import SoroStream.AdminJournal
import SoroStream.Reporting

namespace SoroStream

open Lib Lib.Rollback Lib.Rollback.Prog Lib.Runs Contract Storage

variable {host : Host} {env : Env host} {w w' : World} {single : Bool} {c c' : Chain}

theorem report_streamwise {made : List Stream} {b : Book} {ts : List Transfer} {es : List Published}
    (h : Report env single w made b ts es) : ∀ e ∈ es, e.contractWide = false := by
  intro e he
  cases h with
  | nonceMarked | batchCounted | delegated => exact absurd he List.not_mem_nil
  | opened s duration fees =>
      rcases List.mem_append.mp he with he | he
      · obtain ⟨t, -, rfl⟩ := List.mem_map.mp he
        rfl
      · rw [List.mem_singleton.mp he]
        rfl
  | withdrawn id s claim w₁ out us h =>
      simp only [withdrawalEvents, List.mem_append] at he
      rcases he with (he | he) | he
      · split at he
        · obtain ⟨a, rfl⟩ := mem_feeEvents he
          rfl
        · exact absurd he List.not_mem_nil
      · rcases mem_settlementEvents he with rfl | rfl <;> rfl
      · rw [List.mem_singleton.mp he]
        rfl
  | handedOver id s claim w₁ recipient hsingle h =>
      rcases List.mem_append.mp he with he | he
      · split at he
        · rcases List.mem_append.mp he with he | he
          · obtain ⟨a, rfl⟩ := mem_feeEvents he
            rfl
          · rw [List.mem_singleton.mp he]
            rfl
        · exact absurd he List.not_mem_nil
      · rw [List.mem_singleton.mp he]
        rfl
  | closed id s t amount bySender =>
      cases bySender with
      | true | false =>
          rw [List.mem_singleton.mp he]
          rfl
  | split => rcases List.mem_pair.mp he with rfl | rfl <;> rfl
  | toppedUp | paused | resumed | relabelled | renewalCancelled | archived =>
      rw [List.mem_singleton.mp he]
      rfl

theorem callReported_streamwise {es : List Published} (h : CallReported env single es w w') :
    ∀ e ∈ es, e.contractWide = false := by
  obtain ⟨v, -, h⟩ := h
  rcases h with ⟨made, b, ts, w₁, h, -, -⟩ | h
  · exact report_streamwise h
  · induction h with
    | refl _ => simp
    | tail _ hlast ih =>
        obtain ⟨⟨made, b, ts, w₁, hreport, -, -⟩, -⟩ := hlast
        intro e he
        rcases List.mem_append.mp he with he | he
        · exact ih e he
        · exact report_streamwise hreport e he

def Chain.audited (c : Chain) : Event host → List AuditEntry
  | .call env (.config call) => ((call.exec env c.world).value?.bind fun _ =>
      c.world.config.admin.map fun admin => call.entries admin env.now).getD []
  | _ => []

/-- Every entry names the admin of its moment, who signed the call. -/
def Vouched (c : Chain) (e : Event host) : Prop :=
  ∀ a ∈ c.audited e, c.world.config.admin = some a.admin ∧ ∃ env call, e = .call env call ∧ env.auths a.admin = true ∧
    a.timestamp = env.now

theorem entries_admin {call : ConfigCall} {admin : Address} {now : Nat} {a : AuditEntry}
    (h : a ∈ call.entries admin now) : a.admin = admin ∧ a.timestamp = now := by
  cases call with
  | emergencyPause | emergencyResume | migrate =>
      rw [List.mem_singleton.mp h]
      exact ⟨rfl, rfl⟩
  | _ => exact absurd h List.not_mem_nil

structure LogStep (c : Chain) (e : Event host) : Prop where
  pushed : (c.step e).world.audit.ring = (c.audited e).foldl (RingBuffer.push auditCap) c.world.audit.ring
  told : ((c.receipts e).flatMap Receipt.events).filter Published.isAdminAction = (c.audited e).map AuditEntry.event
  vouched : Vouched c e

theorem LogStep.idle {e : Event host} (haudited : c.audited e = []) (haudit : (c.step e).world.audit = c.world.audit)
    (hquiet : ∀ r ∈ c.receipts e, ∀ p ∈ r.events, p.contractWide = false) : LogStep c e where
  pushed := by rw [haudited, haudit]; rfl
  told := by
    rw [haudited, List.map_nil, List.filter_eq_nil_iff]
    intro p hp
    obtain ⟨r, hr, hp⟩ := List.mem_flatMap.mp hp
    have hnot := hquiet r hr p hp
    cases p <;> simp_all [Published.contractWide, Published.isAdminAction]
  vouched a ha := absurd ha (by simp [haudited])

theorem logStep (c : Chain) (e : Event host) : LogStep c e := by
  rcases receipts_cases c e with ⟨hnone, hsame, hfailed⟩ | ⟨env, call, ids, w', es, rfl, hemit, hexec, hstep, hreceipt⟩
  · refine .idle ?_ hsame.audit (by simp [hnone])
    cases e with
    | call env call =>
        cases call with
        | config call =>
            have hvalue : (call.exec env c.world).value? = none := by
              cases hx : call.exec env c.world with
              | ok u t => exact absurd (by rw [Call.exec, bind_ok]; exact ⟨u, t, hx, rfl⟩) (hfailed env _ rfl [] t)
              | err | trap => rfl
            simp [Chain.audited, hvalue]
        | stream call => rfl
        | view v => rfl
    | treasury env call => rfl
    | tokens time b => rfl
  · cases call with
    | stream call =>
        obtain ⟨es', hes, hreport⟩ := streamCall_reports hemit
        obtain rfl : es = es' := hes
        refine .idle rfl ?_ ?_
        · rw [hstep]
          exact hreport.frame.2
        · rw [hreceipt]
          intro r hr
          rw [List.mem_singleton.mp hr]
          exact callReported_streamwise hreport
    | view v =>
        obtain ⟨hv, rfl⟩ := quietly_ok.mp hemit
        obtain ⟨_, _, hv, -, rfl⟩ := bind_ok.mp hv
        refine .idle rfl ?_ ?_
        · rw [hstep]
          exact congrArg World.audit (view_silent v hv).symm
        · simp [hreceipt]
    | config call =>
        obtain ⟨u, _, hcall, -, rfl⟩ := bind_ok.mp hemit
        obtain ⟨es', entries, hes, hr⟩ := configCall_recorded hcall
        obtain rfl : es = es' := hes
        have hvalue : (call.exec env c.world).value? = some u :=
          congrArg Outcome.value? (Erases.ok (y := call.exec) hcall)
        have haudited : c.audited (.call env (.config call)) = entries := by
          rw [hr.made]
          simp [Chain.audited, hvalue]
        refine ⟨?_, ?_, ?_⟩
        · rw [hstep, haudited]
          exact hr.pushed
        · rw [hreceipt, haudited, ← hr.told]
          simp
        · intro a ha
          rw [haudited] at ha
          have hsigned := hr.signed a ha
          rw [hr.made] at ha
          cases hadmin : c.world.config.admin with
          | none => simp [hadmin] at ha
          | some admin =>
              rw [hadmin, Option.map_some, Option.getD_some] at ha
              obtain ⟨rfl, htime⟩ := entries_admin ha
              exact ⟨rfl, env, _, rfl, hsigned, htime⟩

/-- After any run of the system the audit log holds the last twenty entries made by the calls
that pause, resume and migrate, in order, each made by the admin of its moment with the
admin's signature, and the journal tells every one of them. -/
theorem audit_log_of_run {events : List (Event host)} (hc : Fresh host c) (h : SystemRun host c events c') :
    readAuditLog c'.world = (outputs Chain.step Chain.audited c events).drop
        ((outputs Chain.step Chain.audited c events).length - auditCap) ∧
      (published c events).filter Published.isAdminAction =
        (outputs Chain.step Chain.audited c events).map AuditEntry.event ∧
      Throughout Chain.step Vouched c events := by
  suffices hall : c'.world.audit.ring.Recent auditCap (outputs Chain.step Chain.audited c events) ∧ _ ∧ _ by
    refine ⟨?_, hall.2⟩
    rw [readAuditLog_eq]
    exact hall.1.toList
  induction h with
  | nil =>
      refine ⟨?_, rfl, trivial⟩
      rw [hc.audit]
      exact RingBuffer.recent_nil _
  | @snoc es s e hr hm ih =>
      obtain ⟨hring, htold, hvouched⟩ := ih
      have hstep := logStep s e
      rw [hr.outputs_snoc, published_snoc hr, hr.throughout_snoc]
      refine ⟨?_, ?_, hvouched, hstep.vouched⟩
      · rw [hstep.pushed]
        exact hring.pushes _
      · rw [List.filter_append, List.map_append, htold, hstep.told]

def Sample.administered : List (Event Sample.site) :=
  [Sample.configure [4] 1 (.initializeContract (Sample.party 4) "1.0.0"), Sample.configure [4] 5 .emergencyPause,
    Sample.configure [4] 9 .emergencyResume, Sample.configure [4] 12 (.migrate "1.0.0" "2.0.0")]

theorem sample_audit_log_of_run :
    readAuditLog (Sample.genesis.after Sample.administered).world =
        (outputs Chain.step Chain.audited Sample.genesis Sample.administered).drop
          ((outputs Chain.step Chain.audited Sample.genesis Sample.administered).length - auditCap) ∧
      (published Sample.genesis Sample.administered).filter Published.isAdminAction =
        (outputs Chain.step Chain.audited Sample.genesis Sample.administered).map AuditEntry.event ∧
      Throughout Chain.step Vouched Sample.genesis Sample.administered :=
  audit_log_of_run Sample.genesis_fresh (run_of_inOrder (by decide))

/-- All three calls succeed and are entered. -/
example : (readAuditLog (Sample.genesis.after Sample.administered).world).length = 3 := by decide +kernel

end SoroStream
