import SoroStream.AuditTrail
import SoroStream.Bookkeeping

namespace SoroStream

open Lib Lib.Rollback Lib.Rollback.Prog Lib.Runs Contract

variable {host : Host} {env : Env host} {w w' : World} {single : Bool} {c c' : Chain} {es : List Published}

theorem reported_booked (h : Reported env single es w w') (hw : Accounts env.now w.book.streams)
    (hfee : FeeBounded w.config) : ∃ ts, w'.log = w.log ++ ts ∧ Booked w.config single es ts := by
  obtain ⟨made, b, ts, w₁, hreport, hmoved, rfl⟩ := h
  exact ⟨ts, hmoved.log, report_booked hreport hw hfee⟩

theorem reports_booked (h : Reports env single es w w') (hw : Accounts env.now w.book.streams)
    (hfee : FeeBounded w.config) : (∃ ts, w'.log = w.log ++ ts ∧ Booked w.config single es ts) ∧
      Accounts env.now w'.book.streams ∧ w'.config = w.config := by
  induction h with
  | refl _ => exact ⟨⟨[], by simp, .nil⟩, hw, rfl⟩
  | tail _ hlast ih =>
      obtain ⟨⟨ts, hts, hbooked⟩, hkept, hconfig⟩ := ih hw hfee
      obtain ⟨us, hus, hnext⟩ := reported_booked hlast.1 hkept (hconfig ▸ hfee)
      obtain ⟨made, hacted⟩ := hlast.1.acted
      rw [hconfig] at hnext
      refine ⟨⟨ts ++ us, ?_, hbooked.append hnext⟩, acted_accounts hacted hkept,
        (reported_frame hlast.1).1.trans hconfig⟩
      rw [hus, hts, List.append_assoc]

theorem callReported_booked (h : CallReported env single es w w') (hw : Accounts env.now w.book.streams)
    (hfee : FeeBounded w.config) : ∃ ts, w'.log = w.log ++ ts ∧ Booked w.config single es ts := by
  obtain ⟨v, hv, h⟩ := h
  have hsame : v.book = w.book ∧ v.config = w.config ∧ v.log = w.log := by
    rcases hv with rfl | rfl
    · exact ⟨rfl, rfl, rfl⟩
    · exact ⟨rfl, rfl, rfl⟩
  obtain ⟨hbook, hconfig, hlog⟩ := hsame
  rw [← hbook] at hw
  rw [← hconfig] at hfee ⊢
  rw [← hlog]
  rcases h with h | h
  · exact reported_booked h hw hfee
  · exact (reports_booked h hw hfee).1

def Event.isSingle : Event host → Bool
  | .call _ (.stream c) => c.isSingle
  | _ => true

/-- Payouts of the treasury are told under no heading, nor are events about the whole contract. -/
theorem aside_booked {config : Config} {ts : List Transfer} (hpayouts : ∀ t ∈ ts, t.cause = .payout)
    (hwide : ∀ e ∈ es, e.contractWide = true) : Booked config single es ts := by
  have hmoved (k : Heading) : moved k ts = 0 := moved_eq_zero fun t ht => by simp [hpayouts t ht, Cause.headings]
  have htold (k : Heading) : told k es = 0 := by
    apply tally_eq_zero
    intro l hl
    obtain ⟨e, he, hl⟩ := List.mem_flatMap.mp hl
    have he := hwide e he
    cases e <;> first | exact absurd hl List.not_mem_nil | cases he
  exact .of_lines (fun k => (htold k).trans (hmoved k).symm) fun id => hmoved _

theorem step_booked {e : Event host} (hc : Reached host c) (hmay : May c e) :
    ∃ ts, (c.step e).world.log = c.world.log ++ ts ∧
      Booked c.world.config e.isSingle ((c.receipts e).flatMap Receipt.events) ts := by
  rcases receipts_cases c e with ⟨hnone, -, hfailed⟩ | ⟨env, call, ids, w', es, rfl, hemit, -, hstep, hreceipt⟩
  · rcases step_cases hmay with ⟨-, haside⟩ | ⟨env, call, -, -, rfl, hexec, -⟩
    · obtain ⟨ts, hts, hpayouts⟩ := haside.log
      exact ⟨ts, hts, aside_booked hpayouts (by simp [hnone])⟩
    · exact absurd hexec (hfailed env _ rfl _ _)
  · have hevents : (c.receipts (.call env call)).flatMap Receipt.events = es := by simp [hreceipt]
    rw [hstep, hevents]
    cases call with
    | stream call =>
        have hsolvent := reached_solvent hc
        obtain ⟨es', hes, hreport⟩ := streamCall_reports hemit
        obtain rfl : es = es' := hes
        exact callReported_booked hreport (hsolvent.accounts.mono hmay.1) hsolvent.fees
    | view v =>
        obtain ⟨hv, rfl⟩ := quietly_ok.mp hemit
        obtain ⟨_, _, hv, -, rfl⟩ := bind_ok.mp hv
        have hsame : c.world = w' := view_silent v hv
        exact ⟨[], by simp [hsame], .nil⟩
    | config call =>
        obtain ⟨_, _, hcall, -, rfl⟩ := bind_ok.mp hemit
        obtain ⟨es', entries, hes, hr⟩ := configCall_recorded hcall
        obtain rfl : es = es' := hes
        obtain ⟨ts, hts, hpayouts⟩ := (configCall_aside call (Erases.ok (y := call.exec) hcall)).log
        exact ⟨ts, hts, aside_booked hpayouts hr.wide⟩

def Chain.untold (c : Chain) (e : Event host) : List Transfer :=
  if e.isSingle then [] else (c.step e).world.log.drop c.world.log.length

theorem run_booked {events : List (Event host)} (hc : Fresh host c) (h : SystemRun host c events c') :
    (∀ k : Heading, k.Exact → told k (published c events) = moved k c'.world.log) ∧
      (∀ id, moved (.paid id) c'.world.log ≤ told (.paid id) (published c events)) ∧
      (Throughout Chain.step (fun c _ => FeesLeave c.world.config) c events →
        ∀ id, told (.paid id) (published c events) = moved (.paid id) c'.world.log) ∧
      ∀ id, moved (.fees id) c'.world.log = told (.fees id) (published c events) +
        moved (.fees id) (outputs Chain.step Chain.untold c events) := by
  induction h with
  | nil =>
      rw [hc.log]
      exact ⟨fun _ _ => rfl, fun _ => le_rfl, fun _ _ => rfl, fun _ => rfl⟩
  | @snoc es s e hr hm ih =>
      obtain ⟨hexact, hle, heq, hfees⟩ := ih
      obtain ⟨ts, hts, hbooked⟩ := step_booked ⟨c, es, hc, hr⟩ hm
      have huntold : s.untold e = if e.isSingle then [] else ts := by
        rw [Chain.untold, hts, List.drop_left]
      rw [published_snoc hr, hr.outputs_snoc, hr.throughout_snoc, hts, huntold]
      refine ⟨?_, ?_, ?_, ?_⟩
      · intro k hk
        rw [told_append, moved_append, hexact k hk, hbooked.exact_told k hk]
      · intro id
        rw [told_append, moved_append]
        exact add_le_add (hle id) (hbooked.paid_le id)
      · rintro ⟨hall, hlast⟩ id
        rw [told_append, moved_append, heq hall id, hbooked.paid_told hlast id]
      · intro id
        rw [told_append, moved_append, moved_append, hfees id, hbooked.fees_told id]
        cases e.isSingle <;> simp <;> omega

/-- Five percent go to the treasury contract, from a withdrawal and from a batch. -/
def Sample.feePaying : List (Event Sample.site) :=
  [Sample.configure [7] 5 (.setTreasuryAddress (Sample.party 1)), Sample.configure [7] 5 (.setProtocolFee 500),
    Sample.opening 0 0, Sample.call [3] 1010 (.withdraw Sample.streamId (Sample.party 3)),
    Sample.call [3] 2010 (.batchWithdraw [Sample.streamId] (Sample.party 3))]

/-- The fee events of every stream tell its protocol fees but for those that batches of
withdrawals took, which are told by no event. -/
theorem journal_tells_fees {events : List (Event host)} (hc : Fresh host c) (h : SystemRun host c events c')
    (id : StreamId) : moved (.fees id) c'.world.log = told (.fees id) (published c events) +
      moved (.fees id) (outputs Chain.step Chain.untold c events) := by
  obtain ⟨-, -, -, hfees⟩ := run_booked hc h
  exact hfees id

theorem sample_journal_tells_fees :
    moved (.fees Sample.streamId) (Sample.genesis.after Sample.feePaying).world.log =
      told (.fees Sample.streamId) (published Sample.genesis Sample.feePaying) +
        moved (.fees Sample.streamId) (outputs Chain.step Chain.untold Sample.genesis Sample.feePaying) :=
  journal_tells_fees Sample.genesis_fresh (run_of_inOrder (by decide)) Sample.streamId

/-- Here the event tells half of the fees. -/
example : moved (.fees Sample.streamId) (Sample.genesis.after Sample.feePaying).world.log = 2500 ∧
    told (.fees Sample.streamId) (published Sample.genesis Sample.feePaying) = 1250 := by
  decide +kernel

end SoroStream
