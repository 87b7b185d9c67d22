import SoroStream.Indexer
import SoroStream.Reporting
import SoroStream.Solvency

namespace SoroStream

open Lib Lib.Runs Contract

variable {host : Host} {env : Env host} {w w' : World} {single : Bool} {id : StreamId} {s : Stream} {now : Nat}

@[simps]
def Stream.entry (s : Stream) : Indexer.Entry where
  sender := s.sender
  recipient := s.recipient
  deposit := s.deposit
  flowRate := s.flowRate
  startTime := s.startTime
  endTime := s.endTime
  lastWithdrawTime := s.lastWithdrawTime
  status := s.status
  lastPauseTime := s.lastPauseTime
  totalWithdrawn := s.totalWithdrawn

def Receipt.Plain (r : Receipt) : Prop := ∀ e ∈ r.events, e.qualifies = false

theorem Receipt.Plain.handsOver {r : Receipt} (h : r.Plain) (id : StreamId) : r.handsOver id = false := by
  apply List.any_eq_false.mpr
  intro e he
  have hplain := h e he
  cases e <;> simp_all [Published.qualifies]

theorem Receipt.Plain.splits {r : Receipt} (h : r.Plain) (id : StreamId) : r.splits id = false := by
  apply List.any_eq_false.mpr
  intro e he
  have hplain := h e he
  cases e <;> simp_all [Published.qualifies]

namespace Indexer

def known (streams : Streams) : Index := fun id => (streams.lookup id).map Stream.entry

theorem known_insert (streams : Streams) (s : Stream) :
    known (streams.insert s.id s) = Function.update (known streams) s.id (some s.entry) := by
  funext j
  by_cases hj : j = s.id
  · subst hj
    simp [known, Finmap.lookup_insert]
  · simp [known, Finmap.lookup_insert_of_ne _ hj, hj]

theorem known_erase (streams : Streams) (id : StreamId) :
    known (streams.erase id) = Function.update (known streams) id none := by
  funext j
  by_cases hj : j = id
  · subst hj
    simp [known]
  · simp [known, Finmap.lookup_erase_ne hj, hj]

theorem known_stored {streams : Streams} (hs : streams.lookup id = some s) : known streams id = some s.entry := by
  rw [known, hs]
  rfl

theorem known_free {streams : Streams} (hs : streams.lookup id = none) : known streams id = none := by
  rw [known, hs]
  rfl

theorem change_eq {ix : Index} {e : Entry} {fits : Entry → Bool} {after : Entry → Option Entry}
    (he : ix id = some e) (hfits : fits e = true) :
    change ix id fits after = some (Function.update ix id (after e)) := by
  simp only [change, he, hfits, if_true]

theorem clock_entry (s : Stream) (now : Nat) : s.entry.clock now = s.clock now := rfl

theorem live_entry (s : Stream) : s.entry.live = true ↔ s.Live := by
  simp only [Entry.live, Bool.or_eq_true, decide_eq_true_eq]
  rfl

theorem withdrawn_entry {claim : Int} (s : Stream) (hclaim : 0 ≤ claim) (now : Nat) :
    s.entry.withdrawn claim now = (s.checkpoint claim now).entry := by
  have htotal : s.totalWithdrawn + claim = (s.checkpoint claim now).totalWithdrawn := by
    simp only [Stream.checkpoint, Stream.credit]
    split <;> omega
  simp only [Entry.withdrawn, Stream.entry, htotal]
  rfl

variable {r : Receipt} {ix : Index}

theorem read_fees (w : World) (id : StreamId) (s : Stream) (claim : Int) :
    replay (read r) ix (feeEvents w id s claim) = some ix := by
  apply replay_skip
  intro e he
  obtain ⟨a, rfl⟩ := mem_feeEvents he
  rfl

theorem read_paid {e : Entry} {timestamp : Nat} (ix : Index) (amount : Int) (hix : ix id = some e)
    (hclock : timestamp = e.clock r.time) :
    read r ix (.streamWithdrawn id e.recipient amount timestamp) =
      some (Function.update ix id (some (if e.status = .active ∧ e.endTime ≤ timestamp ∧ r.handsOver id = false then
        (e.withdrawn amount timestamp).renewed else e.withdrawn amount timestamp))) := by
  have hthere : ¬(ix id = none ∧ r.completes id = true) := by simp [hix]
  simp only [read, if_neg hthere]
  rw [change_eq hix (by simpa using hclock)]
  split <;> rfl

/-- A renewal that failed leaves a completed stream in the books. -/
theorem read_lapsed {e : Entry} (hix : ix id = some e) (hactive : e.status = .active) :
    replay (read r) ix [.autoRenewFailed id e.sender e.deposit, .streamCompleted id] =
      some (Function.update ix id (some e.completed)) := by
  have hfailed : read r ix (.autoRenewFailed id e.sender e.deposit) = some (Function.update ix id (some e.completed)) :=
    change_eq hix (by simp [hactive])
  have hcompleted : read r (Function.update ix id (some e.completed)) (.streamCompleted id) =
      some (Function.update (Function.update ix id (some e.completed)) id (some e.completed)) :=
    change_eq (Function.update_self ..) (by simp [Entry.completed])
  rw [replay_cons, hfailed, Option.bind_some, replay_single, hcompleted, Function.update_idem]

theorem read_finished {e : Entry} (hix : ix id = some e) (hactive : e.status = .active) :
    read r ix (.streamCompleted id) = some (Function.update ix id none) := by
  refine (change_eq hix (by simp [hactive])).trans ?_
  rw [if_neg (by simp [hactive])]

theorem read_withdrawn {claim : Int} {w₁ : World} {out : Option Stream} {us : List Transfer}
    (h : Withdrawal env w single id s claim w₁ out us) (hid : s.id = id) (hs : Sound env.now s)
    (hnow : r.time = env.now) (hover : r.handsOver id = false)
    (hmem : ∀ e ∈ withdrawalEvents w single id s claim env.now out, e ∈ r.events) :
    replay (read r) (known w.book.streams) (withdrawalEvents w single id s claim env.now out) =
      some (known (w.book.settle id (s.checkpoint claim env.now) out).streams) := by
  have hknown := known_stored h.stored
  have hclaim : 0 ≤ claim := by
    rcases claimFor_cases h.claimed with rfl | rfl
    · exact flowed_nonneg hs.rate env.now
    · exact le_rfl
  have hstatus : s.entry.status = .active := h.active
  have hclock : env.now = s.entry.clock r.time := by rw [clock_entry, clock_of_active h.active, hnow]
  have hfees : replay (read r) (known w.book.streams) (if single then feeEvents w id s claim else []) =
      some (known w.book.streams) := by
    split
    · exact read_fees w id s claim
    · rfl
  rw [withdrawalEvents, List.append_assoc]
  refine replay_trans hfees ?_
  subst hid
  have hset := h.settled
  cases hset with
  | running hend =>
      have hquiet : settlementEvents s.id s (some (s.checkpoint claim env.now)) = [] :=
        if_neg (by simp [Stream.checkpoint, Stream.credit, h.active])
      have hlater : ¬(s.entry.status = .active ∧ s.entry.endTime ≤ env.now ∧ r.handsOver s.id = false) :=
        fun hc => absurd hc.2.1 (not_le.mpr hend)
      have hpaid := read_paid (known w.book.streams) claim hknown hclock
      rw [if_neg hlater, withdrawn_entry s hclaim] at hpaid
      rw [hquiet, List.nil_append, replay_single]
      exact hpaid.trans (congrArg some (known_insert _ (s.checkpoint claim env.now)).symm)
  | renewed hend horder hauto hfunds hauth hpay hnew =>
      have hquiet : settlementEvents s.id s (some (s.checkpoint claim env.now).renewed) = [] :=
        if_neg (by simp [Stream.renewed, Stream.checkpoint, Stream.credit, h.active])
      have hpaid := read_paid (known w.book.streams) claim hknown hclock
      rw [if_pos ⟨hstatus, hend, hover⟩, withdrawn_entry s hclaim] at hpaid
      rw [hquiet, List.nil_append, replay_single]
      exact hpaid.trans (congrArg some (known_insert _ (s.checkpoint claim env.now).renewed).symm)
  | lapsed hend horder hauto hlooks hfunds hpay =>
      have htold : settlementEvents s.id s (some { s.checkpoint claim env.now with status := .completed }) =
          [.autoRenewFailed s.id s.sender s.deposit, .streamCompleted s.id] := by simp [settlementEvents]
      have hlapsed := read_lapsed (r := r) hknown hstatus
      have hlater : ¬(s.entry.completed.status = .active ∧ s.entry.completed.endTime ≤ env.now ∧
          r.handsOver s.id = false) := by simp [Entry.completed]
      have hpaid := read_paid (r := r) (Function.update (known w.book.streams) s.id (some s.entry.completed)) claim
        (Function.update_self ..) hnow.symm
      have hentry : s.entry.completed.withdrawn claim env.now =
          Stream.entry { s.checkpoint claim env.now with status := .completed } :=
        congrArg Entry.completed (withdrawn_entry s hclaim env.now)
      rw [if_neg hlater, Function.update_idem, hentry] at hpaid
      rw [htold]
      refine replay_trans hlapsed ?_
      rw [replay_single]
      exact hpaid.trans (congrArg some (known_insert _ { s.checkpoint claim env.now with status := .completed }).symm)
  | finished hend horder hauto hpay =>
      have hdone : r.completes s.id = true := decide_eq_true (hmem _ (by simp [withdrawalEvents, settlementEvents]))
      have hgone : read r (Function.update (known w.book.streams) s.id none)
          (.streamWithdrawn s.id s.recipient claim env.now) =
          some (Function.update (known w.book.streams) s.id none) :=
        if_pos ⟨Function.update_self .., hdone⟩
      rw [settlementEvents, List.singleton_append, replay_cons, read_finished hknown hstatus, Option.bind_some,
        replay_single, hgone]
      exact congrArg some (known_erase _ s.id).symm

/-- A handover, with the payment before it when there is one. -/
theorem read_handedOver {claim : Int} {w₁ : World} {recipient : Address} (h : HandOver env w id s claim w₁ recipient)
    (hid : s.id = id) (hnow : r.time = env.now) (hover : r.handsOver id = true) :
    replay (read r) (known w.book.streams) (handOverEvents w id s claim (s.clock env.now) recipient) =
      some (known (HandOver.book w.book id s claim (s.clock env.now) recipient).streams) := by
  have hknown := known_stored h.stored
  have hclock : s.clock env.now = s.entry.clock r.time := by rw [clock_entry, hnow]
  subst hid
  have hpast : replay (read r) (known w.book.streams) (if 0 < claim then feeEvents w s.id s claim ++
      [.streamWithdrawn s.id s.recipient claim (s.clock env.now)] else []) =
      some (Function.update (known w.book.streams) s.id (some (s.advance claim (s.clock env.now)).entry)) := by
    by_cases hpos : 0 < claim
    · have hpaid := read_paid (known w.book.streams) claim hknown hclock
      rw [if_neg (by simp [hover]), withdrawn_entry s hpos.le] at hpaid
      rw [if_pos hpos]
      refine replay_trans (read_fees w s.id s claim) ?_
      rw [replay_single, Stream.advance, if_pos hpos]
      exact hpaid
    · rw [if_neg hpos, replay_nil, Stream.advance, if_neg hpos, ← hknown, Function.update_eq_self]
  have hlive : (s.advance claim (s.clock env.now)).entry.live = true := by
    refine (live_entry _).mpr ?_
    unfold Stream.advance
    split
    · exact h.live
    · exact h.live
  have hpassed : read r (Function.update (known w.book.streams) s.id (some (s.advance claim (s.clock env.now)).entry))
      (.recipientTransferred s.id s.recipient recipient) = _ :=
    change_eq (Function.update_self ..) (by rw [hlive]; simp [Stream.entry, advance_recipient])
  rw [handOverEvents]
  refine replay_trans hpast ?_
  rw [replay_single, hpassed, Function.update_idem]
  have hafter : ({ s.advance claim (s.clock env.now) with recipient := recipient } : Stream).id = s.id :=
    advance_id s claim (s.clock env.now)
  refine congrArg some (Eq.trans ?_
    (known_insert _ { s.advance claim (s.clock env.now) with recipient := recipient }).symm)
  rw [hafter]
  rfl

theorem read_closed {amount : Int} {t : Nat} {bySender : Bool} (hs : w.book.streams.lookup id = some s)
    (hsound : Sound now s) (hlive : s.Live) (hamount : earnedAt s t = some amount ∨ claimableAt s t = some amount)
    (hsplit : r.splits id = false) :
    replay (read r) (known w.book.streams) (closingEvents id s amount bySender) =
      some (known (w.book.close id s).streams) := by
  have hknown := known_stored hs
  have hshare := hsound.closing_share hamount
  have hrefund : refundOf s amount + amount = s.entry.remaining := by
    rw [refundOf_eq hsound hshare.1 hshare.2, sub_add_cancel]
    rfl
  rw [Book.close_streams, known_erase]
  cases bySender with
  | true =>
      change replay (read r) _ [.streamCancelled id s.sender (refundOf s amount) amount] = _
      rw [replay_single, read, if_neg (by simp [hsplit])]
      exact change_eq hknown (by simp [live_entry, hlive, hrefund])
  | false =>
      change replay (read r) _ [.streamTerminatedByRecipient id s.recipient amount (refundOf s amount)] = _
      rw [replay_single, read]
      exact change_eq hknown (by simp [live_entry, hlive, hrefund])

theorem read_split {cancelAmount earned streamed : Int} (h : Split env w id s cancelAmount earned streamed)
    (hid : s.id = id) (hnow : r.time = env.now) (hsplit : r.splits id = true) :
    replay (read r) (known w.book.streams)
        (splitEvents host id s (s.clock env.now) (splitDeposit s streamed cancelAmount) cancelAmount earned) =
      some (known (splitBook host w.book id s (s.clock env.now) (splitDeposit s streamed cancelAmount)).streams) := by
  have hknown := known_stored h.stored
  have hclock : s.entry.clock r.time = s.clock env.now := by rw [clock_entry, hnow]
  subst hid
  rw [splitEvents, replay_cons, read, if_pos hsplit, Option.bind_some, replay_single, read, hknown]
  simp only [hclock]
  rw [if_pos ⟨(live_entry s).mpr h.live, rfl⟩, splitBook, Book.add_streams, known_insert, Book.save_streams]
  have hkept : known (w.book.streams.insert s.id { s with status := .cancelled }) =
      Function.update (known w.book.streams) s.id (some s.entry.cancelled) :=
    known_insert w.book.streams { s with status := .cancelled }
  rw [hkept]
  rfl

theorem read_amended {s' : Stream} {e : Published} {fits : Entry → Bool} {after : Entry → Option Entry}
    (hs : w.book.streams.lookup id = some s) (hid : s.id = id) (hafter : after s.entry = some s'.entry)
    (hsame : s'.id = s.id) (hfits : fits s.entry = true)
    (hread : read r (known w.book.streams) e = change (known w.book.streams) id fits after) :
    replay (read r) (known w.book.streams) [e] = some (known (w.book.save s').streams) := by
  subst hid
  rw [replay_single, hread, change_eq (known_stored hs) hfits, hafter, Book.save_streams, known_insert, hsame]

theorem read_opened {fees : List Transfer} (hfree : w.book.streams.lookup s.id = none) (hnow : r.time = env.now)
    {duration : Nat} (h : Opening env s duration) :
    replay (read r) (known w.book.streams) (creationEvents s fees) = some (known (w.book.add s).streams) := by
  have hfees : replay (read r) (known w.book.streams)
      (fees.map fun t => .creationFeeCollected t.amount t.payee) = some (known w.book.streams) := by
    apply replay_skip
    intro e he
    obtain ⟨t, -, rfl⟩ := List.mem_map.mp he
    rfl
  obtain ⟨hmark, hpause, htotal⟩ := h.untouched
  refine replay_trans hfees ?_
  rw [replay_single, read, if_pos (known_free hfree), Book.add_streams, known_insert]
  simp only [Stream.entry, hnow, h.active, h.start, hmark, hpause, htotal]

/-- The indexer reads the events of a change as the change. -/
theorem read_report {made : List Stream} {b : Book} {ts : List Transfer} {es : List Published}
    (h : Report env single w made b ts es) (hw : Accounts env.now w.book.streams) (hnow : r.time = env.now)
    (hmem : ∀ e ∈ es, e ∈ r.events) (hwhole : r.events = es ∨ r.Plain) :
    replay (read r) (known w.book.streams) es = some (known b.streams) := by
  -- an event that speaks for others stands in a call of its own
  have hplain (he : ∀ e ∈ es, e.qualifies = false) : r.Plain := by
    rcases hwhole with hall | hr
    · intro e hmem
      exact he e (hall ▸ hmem)
    · exact hr
  cases h with
  | nonceMarked | batchCounted | delegated => rfl
  | opened s duration fees h hfree hroom hfees => exact read_opened hfree hnow h
  | withdrawn id s claim w₁ out us h =>
      obtain ⟨hid, hs⟩ := hw id s h.stored
      have hquiet := hplain (withdrawalEvents_plain w single id s claim env.now out)
      exact read_withdrawn h hid hs hnow (hquiet.handsOver id) hmem
  | handedOver id s claim w₁ recipient hsingle h =>
      have hover : r.handsOver id = true := by
        refine List.any_eq_true.mpr ⟨.recipientTransferred id s.recipient recipient, hmem _ ?_, by simp⟩
        simp [handOverEvents]
      exact read_handedOver h (hw id s h.stored).1 hnow hover
  | closed id s t amount bySender hs hlive hamount hcov =>
      have hquiet := hplain (closingEvents_plain id s amount bySender)
      exact read_closed hs (hw id s hs).2 hlive hamount (hquiet.splits id)
  | split id s cancelAmount earned streamed h =>
      have hsplit : r.splits id = true := by
        refine List.any_eq_true.mpr ⟨_, hmem _ (List.mem_cons_of_mem _ (List.mem_singleton_self _)), by simp⟩
      exact read_split h (hw id s h.stored).1 hnow hsplit
  | toppedUp id s caller amount h =>
      exact read_amended h.stored (hw id s h.stored).1 rfl rfl (by simp [live_entry, h.live, Stream.toppedUp]) rfl
  | paused id s hs hauth hactive =>
      exact read_amended hs (hw id s hs).1 (by rw [Entry.paused, hnow]; rfl) rfl (by simp [hactive]) rfl
  | resumed id s hs hauth hpaused =>
      exact read_amended hs (hw id s hs).1 (by rw [Entry.resumed, hnow]; rfl) rfl (by simp [hpaused]) rfl
  | relabelled id s metadata hs hauth => exact read_amended hs (hw id s hs).1 rfl rfl rfl rfl
  | renewalCancelled id s hs hauth => exact read_amended hs (hw id s hs).1 rfl rfl rfl rfl
  | archived id s h =>
      rw [replay_single, read, change_eq (known_stored h.stored) (by simp)]
      exact congrArg some (known_erase _ id).symm

theorem read_reported {es : List Published} (h : Reported env single es w w') (hw : Accounts env.now w.book.streams)
    (hnow : r.time = env.now) (hmem : ∀ e ∈ es, e ∈ r.events) (hwhole : r.events = es ∨ r.Plain) :
    replay (read r) (known w.book.streams) es = some (known w'.book.streams) := by
  obtain ⟨made, b, ts, w₁, hreport, -, rfl⟩ := h
  exact read_report hreport hw hnow hmem hwhole

theorem reports_plain {es : List Published} (h : Reports env single es w w') : ∀ e ∈ es, e.qualifies = false := by
  induction h with
  | refl _ => simp
  | tail _ hlast ih =>
      intro e he
      rcases List.mem_append.mp he with he | he
      · exact ih e he
      · exact hlast.2 e he

theorem read_reports {es : List Published} (h : Reports env single es w w') (hw : Accounts env.now w.book.streams)
    (hnow : r.time = env.now) (hmem : ∀ e ∈ es, e ∈ r.events) (hr : r.Plain) :
    replay (read r) (known w.book.streams) es = some (known w'.book.streams) ∧ Accounts env.now w'.book.streams := by
  induction h with
  | refl _ => exact ⟨rfl, hw⟩
  | tail _ hlast ih =>
      obtain ⟨hread, hkept⟩ := ih hw fun e he => hmem e (List.mem_append_left _ he)
      have hstep := read_reported hlast.1 hkept hnow (fun e he => hmem e (List.mem_append_right _ he)) (.inr hr)
      obtain ⟨made, hacted⟩ := hlast.1.acted
      exact ⟨replay_trans hread hstep, acted_accounts hacted hkept⟩

/-- The events of a call, read together, tell what the call did to the streams. -/
theorem read_call {es : List Published} (h : CallReported env single es w w') (hw : Accounts env.now w.book.streams) :
    readReceipt (known w.book.streams) ⟨env.now, es⟩ = some (known w'.book.streams) := by
  obtain ⟨v, hv, h⟩ := h
  have hsame : v.book = w.book := by
    rcases hv with rfl | rfl
    · rfl
    · rfl
  rw [← hsame] at hw ⊢
  rcases h with h | h
  · exact read_reported h hw rfl (fun _ he => he) (.inl rfl)
  · exact (read_reports h hw rfl (fun _ he => he) (reports_plain h)).1

end Indexer

end SoroStream
