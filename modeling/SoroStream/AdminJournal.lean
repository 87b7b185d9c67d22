import SoroStream.AuditLog
import SoroStream.Governance
import SoroStream.Receipts

namespace SoroStream

open Lib Lib.Rollback Lib.Rollback.Prog Lib.Runs Contract Storage

variable {host : Host} {env : Env host} {w w' : World} {l l' : List Published}

def Published.contractWide : Published → Bool
  | .contractDeployed .. | .contractPaused .. | .contractResumed .. | .feeChangeProposed .. | .feeChangeExecuted ..
  | .contractMigrated .. | .adminAction .. | .paused .. | .unpaused .. => true
  | _ => false

def Published.isAdminAction : Published → Bool
  | .adminAction .. => true
  | _ => false

def AuditEntry.event (a : AuditEntry) : Published := .adminAction a.instruction a.admin a.timestamp

def ConfigCall.entries (admin : Address) (now : Nat) : ConfigCall → List AuditEntry
  | .emergencyPause => [⟨"emergency_pause", admin, now, ""⟩]
  | .emergencyResume => [⟨"emergency_resume", admin, now, ""⟩]
  | .migrate _ toVersion => [⟨"migrate", admin, now, toVersion⟩]
  | _ => []

def SameAudit (w w' : World) : Prop := w'.audit = w.audit

instance : IsPreorder World SameAudit where
  refl _ := rfl
  trans _ _ _ h h' := Eq.trans h' h

theorem sameAudit_config {f : Config → Config} : Keeps env SameAudit (setConfig f : Contract host Unit) :=
  keeps_update fun _ => rfl

theorem sameAudit_pause {f : PauseCells → PauseCells} : Keeps env SameAudit (setPause f : Contract host Unit) :=
  keeps_update fun _ => rfl

theorem sameAudit_treasury : KeptByTreasury env SameAudit where
  cells _ := keeps_update fun _ => rfl
  payout _ _ _ _ _ := rfl

theorem configCall_sameAudit {c : ConfigCall} (h : ¬c.Records) : Keeps env SameAudit c.exec := by
  refine configCall_keeps_of (fun _ _ => rfl) ?_ (fun hr => absurd hr h) (fun _ _ _ => sameAudit_config)
    (fun _ _ => sameAudit_pause) fun _ _ => sameAudit_config
  exact fun _ => ⟨fun _ => rfl, fun _ _ _ => withdrawTreasury_keeps sameAudit_treasury,
    fun _ _ => withdrawAll_keeps sameAudit_treasury⟩

/-- Something may be published of the contract, nothing is entered in the log. -/
def Unrecorded (a b : World × List Published) : Prop :=
  SameAudit a.1 b.1 ∧ ∃ es, b.2 = a.2 ++ es ∧ ∀ e ∈ es, e.contractWide = true ∧ e.isAdminAction = false

theorem Unrecorded.refl (a : World × List Published) : Unrecorded a a := ⟨rfl, [], by simp, by simp⟩

theorem Unrecorded.trans {a b c : World × List Published} (h : Unrecorded a b) (h' : Unrecorded b c) :
    Unrecorded a c := by
  obtain ⟨haudit, es, hes, hall⟩ := h
  obtain ⟨haudit', es', hes', hall'⟩ := h'
  refine ⟨haudit'.trans haudit, es ++ es', by rw [hes', hes, List.append_assoc], ?_⟩
  intro e he
  rcases List.mem_append.mp he with he | he
  · exact hall e he
  · exact hall' e he

instance : IsPreorder (World × List Published) Unrecorded where
  refl := .refl
  trans _ _ _ := .trans

theorem unrecorded_quietly {α : Type} {y : Contract host α} (h : Keeps env SameAudit y) :
    Keeps env Unrecorded (quietly y : Traced host α) := by
  rintro ⟨w, l⟩ a ⟨w', l'⟩ hrun
  obtain ⟨hy, rfl⟩ := quietly_ok.mp hrun
  exact ⟨h hy, [], by simp, by simp⟩

theorem unrecorded_publish {e : Published} (h : e.contractWide = true) (h' : e.isAdminAction = false) :
    Keeps env Unrecorded (publish e : Traced host Unit) :=
  keeps_update fun a => ⟨rfl, [e], rfl, by simp [h, h']⟩

theorem unrecorded_ask {α : Type} {f : World → α} : Keeps env Unrecorded (quietly (ask f) : Traced host α) :=
  unrecorded_quietly keeps_read

theorem unrecorded_auth {a : Address} : Keeps env Unrecorded (quietly (requireAuth a) : Traced host Unit) :=
  unrecorded_quietly requireAuth_keeps

theorem unrecorded_config {f : Config → Config} :
    Keeps env Unrecorded (quietly (setConfig f) : Traced host Unit) := unrecorded_quietly sameAudit_config

theorem unrecorded_pause {f : PauseCells → PauseCells} :
    Keeps env Unrecorded (quietly (setPause f) : Traced host Unit) := unrecorded_quietly sameAudit_pause

theorem configCall_unrecorded {c : ConfigCall} (h : ¬c.Records) : Keeps env Unrecorded (c.emit : Traced host Unit) := by
  cases c with
  | emergencyPause | emergencyResume | migrate => exact absurd trivial h
  | initializeContract admin version =>
      refine keeps_bind unrecorded_ask fun _ => keeps_bind keeps_failIf fun _ => ?_
      exact keeps_bind unrecorded_config fun _ => keeps_bind unrecorded_config fun _ => unrecorded_publish rfl rfl
  | pause guardian =>
      refine keeps_bind unrecorded_auth fun _ => keeps_bind unrecorded_ask fun _ => keeps_bind keeps_okOr fun _ => ?_
      refine keeps_bind keeps_failIf fun _ => keeps_bind unrecorded_pause fun _ => ?_
      exact keeps_bind (unrecorded_quietly keeps_read) fun _ => keeps_bind unrecorded_pause fun _ =>
        unrecorded_publish rfl rfl
  | unpause governance =>
      refine keeps_bind unrecorded_auth fun _ => keeps_bind unrecorded_ask fun _ => keeps_bind keeps_okOr fun _ => ?_
      refine keeps_bind keeps_failIf fun _ => keeps_bind unrecorded_pause fun _ =>
        keeps_bind unrecorded_pause fun _ => ?_
      exact keeps_bind (unrecorded_quietly keeps_read) fun _ => unrecorded_publish rfl rfl
  | proposeFeeChange admin newFeeBps =>
      refine keeps_bind unrecorded_auth fun _ => keeps_bind unrecorded_ask fun _ => keeps_bind keeps_okOr fun _ => ?_
      refine keeps_bind keeps_failIf fun _ => keeps_bind keeps_failIf fun _ => ?_
      exact keeps_bind (unrecorded_quietly keeps_read) fun _ => keeps_bind unrecorded_config fun _ =>
        unrecorded_publish rfl rfl
  | executeFeeChange =>
      refine keeps_bind unrecorded_ask fun _ => keeps_bind keeps_okOr fun _ => ?_
      refine keeps_bind (unrecorded_quietly keeps_read) fun _ => keeps_bind keeps_failIf fun _ => ?_
      exact keeps_bind unrecorded_config fun _ => keeps_bind unrecorded_config fun _ => unrecorded_publish rfl rfl
  | _ => exact unrecorded_quietly (configCall_sameAudit h)

theorem recordAction_told {line : Address → Nat → Published} {instruction params : String} {u : Unit}
    (h : Emitting.recordAction (fun a t => publish (line a t)) instruction params env (w, l) = .ok u (w', l')) :
    ∃ admin, w.config.admin = some admin ∧
      l' = l ++ [line admin env.now, .adminAction instruction admin env.now] ∧
      w'.audit.ring = w.audit.ring.push auditCap ⟨instruction, admin, env.now, params⟩ := by
  simp only [Emitting.recordAction, timestamp, ask, quietly_bind_ok, quietly_read_bind, okOrHalt_bind_ok, publish_bind,
    publish_ok, Storage.appendAuditEntry, setAudit, update_ok, Prod.mk.injEq, exists_and_left, exists_eq_left',
    exists_const] at h
  obtain ⟨admin, hadmin, rfl, rfl⟩ := h
  exact ⟨admin, hadmin, by simp, rfl⟩

structure Recorded (env : Env host) (c : ConfigCall) (w w' : World) (es : List Published) (entries : List AuditEntry) :
    Prop where
  wide : ∀ e ∈ es, e.contractWide = true
  told : es.filter Published.isAdminAction = entries.map AuditEntry.event
  pushed : w'.audit.ring = entries.foldl (RingBuffer.push auditCap) w.audit.ring
  made : entries = ((w.config.admin.map fun admin => c.entries admin env.now).getD [])
  signed : ∀ a ∈ entries, env.auths a.admin = true

theorem recorded_of_action {c : ConfigCall} {v : World} {instruction params : String} {u : Unit}
    (line : Address → Nat → Published)
    (hline : ∀ a t, (line a t).contractWide = true ∧ (line a t).isAdminAction = false)
    (hentry : ∀ a, c.entries a env.now = [⟨instruction, a, env.now, params⟩]) (hsigned : SignedByAdmin env w.config)
    (hadmin : v.config.admin = w.config.admin) (haudit : v.audit = w.audit)
    (h : Emitting.recordAction (fun a t => publish (line a t)) instruction params env (v, l) = .ok u (w', l')) :
    ∃ es entries, l' = l ++ es ∧ Recorded env c w w' es entries := by
  obtain ⟨admin, hv, hl, hring⟩ := recordAction_told h
  obtain ⟨signer, hsigner, hauth⟩ := hsigned
  have hw : w.config.admin = some admin := hadmin ▸ hv
  obtain rfl := Option.some.inj (hsigner.symm.trans hw)
  refine ⟨_, [⟨instruction, signer, env.now, params⟩], hl, ?_, ?_, ?_, ?_, ?_⟩
  · intro e he
    rcases List.mem_pair.mp he with rfl | rfl
    · exact (hline signer env.now).1
    · rfl
  · rw [List.filter_cons_of_neg (by simp [(hline signer env.now).2]), List.filter_cons_of_pos rfl, List.filter_nil]
    rfl
  · rw [hring, haudit]
    rfl
  · rw [hw, Option.map_some, Option.getD_some, hentry]
  · intro a ha
    rw [List.mem_singleton.mp ha]
    exact hauth

theorem configCall_recorded {c : ConfigCall} {u : Unit} (h : c.emit env (w, l) = .ok u (w', l')) :
    ∃ es entries, l' = l ++ es ∧ Recorded env c w w' es entries := by
  by_cases hr : c.Records
  · cases c with
    | emergencyPause =>
        simp only [ConfigCall.emit, Emitting.emergencyPause, timestamp, quietly_bind_ok, quietly_read_bind,
          checkAdmin_ok, setPaused, setPauseExpiry, setPause, update_ok, and_assoc, exists_and_left, exists_eq_left',
          exists_const] at h
        obtain ⟨hsigned, h⟩ := h
        refine recorded_of_action Published.contractPaused (fun _ _ => ⟨rfl, rfl⟩) (fun _ => rfl) hsigned ?_ ?_ h
        · rfl
        · rfl
    | emergencyResume =>
        simp only [ConfigCall.emit, Emitting.emergencyResume, quietly_bind_ok, checkAdmin_ok, setPaused,
          setPauseExpiry, setPause, update_ok, and_assoc, exists_and_left, exists_eq_left', exists_const] at h
        obtain ⟨hsigned, h⟩ := h
        refine recorded_of_action Published.contractResumed (fun _ _ => ⟨rfl, rfl⟩) (fun _ => rfl) hsigned ?_ ?_ h
        · rfl
        · rfl
    | migrate fromVersion toVersion =>
        simp only [ConfigCall.emit, Emitting.migrate, ask, quietly_bind_ok, quietly_read_bind, checkAdmin_ok,
          failIf_bind_ok, writeVersion, recordMigration, setConfig, update_ok, and_assoc, exists_and_left,
          exists_eq_left', exists_const] at h
        obtain ⟨hsigned, -, h⟩ := h
        refine recorded_of_action (fun admin _ => .contractMigrated fromVersion toVersion admin)
          (fun _ _ => ⟨rfl, rfl⟩) (fun _ => rfl) hsigned ?_ ?_ h
        · rfl
        · rfl
    | _ => exact absurd hr id
  · obtain ⟨haudit, es, hes, hall⟩ := configCall_unrecorded hr h
    have hnone : es.filter Published.isAdminAction = [] := by
      rw [List.filter_eq_nil_iff]
      intro e he
      simp [(hall e he).2]
    have hring : w'.audit = w.audit := haudit
    have hentries : ∀ admin, c.entries admin env.now = [] := by
      intro admin
      cases c with
      | emergencyPause | emergencyResume | migrate => exact absurd trivial hr
      | _ => rfl
    refine ⟨es, [], hes, fun e he => (hall e he).1, hnone, by rw [hring]; rfl, ?_, by simp⟩
    cases w.config.admin with
    | none => rfl
    | some admin => exact (hentries admin).symm

end SoroStream
