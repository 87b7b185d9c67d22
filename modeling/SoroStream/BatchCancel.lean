import SoroStream.Apart
import SoroStream.Exit
import SoroStream.Splitting
import SoroStream.Lib.Batch

namespace SoroStream

open Lib Lib.Rollback Lib.Rollback.Prog Contract

variable {host : Host} {env : Env host} {w v v' : World} {c : Chain} {ids : List StreamId} {id : StreamId}
  {s : Stream} {sender : Address} {now : Nat}

/-- A paused stream whose clock is behind the ledger time, and not yet at its end. -/
def Stream.Drifts (now : Nat) (s : Stream) : Prop :=
  s.status = .paused ∧ s.lastPauseTime < now ∧ s.lastPauseTime < s.endTime

theorem flowed_level (h : Sound now s) (hlive : s.Live) (hlevel : ¬s.Drifts now) :
    flowed s now = flowed s (s.clock now) := by
  obtain ⟨-, hclock⟩ := h.clock hlive
  have hmin : min now s.endTime = min (s.clock now) s.endTime := by
    rcases hlive with ha | hp
    · rw [clock_of_active ha]
    · rw [clock_of_paused hp] at hclock ⊢
      have hcases : ¬(s.lastPauseTime < now ∧ s.lastPauseTime < s.endTime) := fun hb => hlevel ⟨hp, hb⟩
      omega
  rw [flowed, flowed, hmin]

theorem flowed_drift (h : Sound now s) (hdrift : s.Drifts now) : flowed s (s.clock now) < flowed s now := by
  obtain ⟨hp, hbefore, hend⟩ := hdrift
  have hmark := (h.paused hp).1
  have hrate := h.rate
  rw [clock_of_paused hp, flowed, flowed]
  refine mul_lt_mul_of_pos_left ?_ (by omega)
  omega

def Carried (env : Env host) : Balances → List Transfer → Prop
  | _, [] => True
  | b, t :: ts => env.accepts b t = true ∧ Carried env (b.move t) ts

theorem carried_append {b : Balances} {ts us : List Transfer} :
    Carried env b (ts ++ us) ↔ Carried env b ts ∧ Carried env (ts.foldl Balances.move b) us := by
  induction ts generalizing b with
  | nil => simp [Carried]
  | cons t ts ih => simp only [List.cons_append, Carried, List.foldl_cons, ih, and_assoc]

theorem carried_positive {b : Balances} {t : Transfer} :
    Carried env b (positive t) ↔ (0 < t.amount → env.accepts b t = true) := by
  by_cases hpos : 0 < t.amount
  · simp [positive, hpos, Carried]
  · simp [positive, hpos, Carried]

/-- The contract holds what it owes, so only the token can stop the two shares. -/
theorem covered_iff_carried {amount : Int} (hv : Solvent host env.now v) (hs : v.book.streams.lookup id = some s)
    (hlive : s.Live) (hpos : 0 ≤ amount) (hle : amount ≤ s.remaining) :
    Covered env v s amount ↔ Carried env v.balances (closingTransfers host s amount) := by
  obtain ⟨hshare, hrefund⟩ := closing_held hv hs hlive hpos hle
  rw [closingTransfers, carried_append, carried_positive, carried_positive]
  constructor
  · intro h
    exact ⟨fun hdue => (h.share hdue).2.2, fun hrest => (h.refund hrest).2.2⟩
  · rintro ⟨hfirst, hsecond⟩
    exact ⟨fun hdue => ⟨hdue.le, hshare, hfirst hdue⟩, fun hrest => ⟨hrest.le, hrefund, hsecond hrest⟩⟩

/-- What cancelling the listed streams of the sender at the ledger time pays out: both shares
of each that is live, once. -/
def payouts (host : Host) (now : Nat) (sender : Address) : Streams → List StreamId → List Transfer
  | _, [] => []
  | streams, id :: ids =>
      match streams.lookup id with
      | some s =>
          if s.sender = sender ∧ s.Live then
            closingTransfers host s (flowed s now) ++ payouts host now sender (streams.erase id) ids
          else payouts host now sender streams ids
      | none => payouts host now sender streams ids

theorem payouts_of_live (hs : v.book.streams.lookup id = some s) (hlive : s.Live) :
    payouts host now s.sender v.book.streams (id :: ids) = closingTransfers host s (flowed s now) ++
      payouts host now s.sender (closed host v id s (flowed s now)).book.streams ids := by
  simp only [payouts, hs, hlive, true_and, if_true]
  rfl

def refusal (sender : Address) : Option Stream → Option StreamError
  | none => some .streamNotFound
  | some s => if s.sender ≠ sender then some .notSender else if ¬s.Live then some .streamNotActive else none

theorem batchCancelItem_refused (env : Env host) {e : StreamError}
    (h : refusal sender (v.book.streams.lookup id) = some e) : batchCancelItem sender id env v = .err e v := by
  have hload : (ask (Storage.loadStream id) : Contract host _) env v = .ok (v.book.streams.lookup id) v := rfl
  rw [batchCancelItem, bind_apply hload]
  cases hs : v.book.streams.lookup id with
  | none =>
      rw [hs] at h
      obtain rfl := Option.some.inj h
      exact bind_err rfl
  | some s =>
      have hfound : okOr StreamError.streamNotFound (some s) env v = .ok s v := rfl
      rw [bind_apply hfound]
      rw [hs, refusal] at h
      by_cases hsender : s.sender = sender
      · rw [if_neg (not_not.mpr hsender)] at h
        by_cases hlive : s.Live
        · rw [if_neg (not_not.mpr hlive)] at h
          exact absurd h.symm (Option.some_ne_none e)
        · rw [if_pos hlive] at h
          obtain rfl := Option.some.inj h
          have hpass : failIf (s.sender ≠ sender) StreamError.notSender env v = .ok () v :=
            failIf_ok.mpr ⟨not_not.mpr hsender, rfl⟩
          have hstop : failIf (¬s.Live) StreamError.streamNotActive env v = .err .streamNotActive v :=
            failIf_err.mpr ⟨hlive, rfl, rfl⟩
          rw [bind_apply hpass]
          exact bind_err hstop
      · rw [if_pos hsender] at h
        obtain rfl := Option.some.inj h
        have hstop : failIf (s.sender ≠ sender) StreamError.notSender env v = .err .notSender v :=
          failIf_err.mpr ⟨hsender, rfl, rfl⟩
        exact bind_err hstop

def Lacks (w : World) (sender : Address) (id : StreamId) : Prop :=
  ∀ s, w.book.streams.lookup id = some s → s.sender = sender → ¬s.Live

theorem batchCancelItem_lacks (env : Env host) (h : Lacks v sender id) :
    ∃ e, batchCancelItem sender id env v = .err e v := by
  suffices hrefused : ∃ e, refusal sender (v.book.streams.lookup id) = some e from
    hrefused.imp fun _ he => batchCancelItem_refused env he
  cases hs : v.book.streams.lookup id with
  | none => exact ⟨_, rfl⟩
  | some s =>
      by_cases hsender : s.sender = sender
      · exact ⟨_, by rw [refusal, if_neg (not_not.mpr hsender), if_pos (h s hs hsender)]⟩
      · exact ⟨_, by rw [refusal, if_pos hsender]⟩

theorem cancelStream_lacks (h : Lacks v sender id)
    (hown : ∀ s, v.book.streams.lookup id = some s → v.book.delegates id = some sender → s.sender = sender)
    (u : Unit) (v' : World) : cancelStream id sender env v ≠ .ok u v' := by
  intro hok
  obtain ⟨-, s, amount, hs, hcaller, hlive, -, -, -⟩ := cancelStream_ok.mp hok
  rcases hcaller with hsender | hdelegate
  · exact h s hs hsender hlive
  · exact h s hs (hown s hs hdelegate) hlive

/-- Of a live stream of the sender both shares are paid, or the batch traps. -/
theorem batchCancelItem_covered {result : Except StreamError Unit} (hv : Solvent host env.now v)
    (hs : v.book.streams.lookup id = some s) (hlive : s.Live)
    (h : attempt (batchCancelItem s.sender id) env v = .ok result v') :
    Covered env v s (flowed s env.now) ∧ closed host v id s (flowed s env.now) = v' := by
  have hearned := (hv.accounts id s hs).2.earnedAt_eq_some env.now
  rcases attempt_ok.mp h with ⟨u, hok, -⟩ | ⟨e, herr, -⟩
  · obtain ⟨r, amount, hr, -, -, hamount, hcov, hclosed⟩ := batchCancelItem_ok.mp hok
    obtain rfl := Option.some.inj (hs.symm.trans hr)
    obtain rfl := Option.some.inj (hearned.symm.trans hamount)
    exact ⟨hcov, hclosed⟩
  · have hnone := (batchCancelItem_refuses herr).2 s hs rfl hlive
    exact absurd (hearned.symm.trans hnone) (Option.some_ne_none _)

theorem payouts_of_lacks (h : Lacks v sender id) :
    payouts host now sender v.book.streams (id :: ids) = payouts host now sender v.book.streams ids := by
  rw [payouts]
  cases hs : v.book.streams.lookup id with
  | none => rfl
  | some s => exact if_neg fun hboth => h s hs hboth.1 hboth.2

/-- Between two items: the books are in order, no listed stream tells the two clocks apart,
and the tokens carry out what is still to be paid. -/
structure Level (env : Env host) (sender : Address) (ids : List StreamId) (v : World) : Prop where
  solvent : Solvent host env.now v
  own : ∀ id ∈ ids, ∀ s, v.book.streams.lookup id = some s → v.book.delegates id = some sender → s.sender = sender
  level : ∀ id ∈ ids, ∀ s, v.book.streams.lookup id = some s → s.sender = sender → ¬s.Drifts env.now
  carried : Carried env v.balances (payouts host env.now sender v.book.streams ids)

theorem closed_solvent {amount : Int} (hv : Solvent host env.now v) (hs : v.book.streams.lookup id = some s)
    (hlive : s.Live) {t : Nat} (hamount : amount = flowed s t) (hcov : Covered env v s amount) :
    Solvent host env.now (closed host v id s amount) := by
  have hsound := (hv.accounts id s hs).2
  subst hamount
  exact acted_solvent (closed_acted hs hlive (.inl (hsound.earnedAt_eq_some t)) hcov) hv

theorem lookup_of_closed {amount : Int} {j : StreamId} {r : Stream}
    (h : (closed host v id s amount).book.streams.lookup j = some r) : v.book.streams.lookup j = some r := by
  have hne : j ≠ id := by
    rintro rfl
    rw [closed, withBook_book, Book.close_streams, Finmap.lookup_erase] at h
    exact Option.some_ne_none r h.symm
  rwa [closed, withBook_book, Book.close_streams, Finmap.lookup_erase_ne hne] at h

theorem Level.passed (h : Level env sender (id :: ids) v) (hlacks : Lacks v sender id) : Level env sender ids v where
  solvent := h.solvent
  own j hj := h.own j (List.mem_cons_of_mem id hj)
  level j hj := h.level j (List.mem_cons_of_mem id hj)
  carried := payouts_of_lacks hlacks ▸ h.carried

theorem Level.covered (h : Level env s.sender (id :: ids) v) (hs : v.book.streams.lookup id = some s)
    (hlive : s.Live) : Covered env v s (flowed s env.now) := by
  have hsound := (h.solvent.accounts id s hs).2
  have hcarried := h.carried
  rw [payouts_of_live hs hlive, carried_append] at hcarried
  exact (covered_iff_carried h.solvent hs hlive (flowed_nonneg hsound.rate env.now)
    (hsound.toAccounted.flowed_le_remaining env.now)).mpr hcarried.1

theorem Level.closed (h : Level env s.sender (id :: ids) v) (hs : v.book.streams.lookup id = some s)
    (hlive : s.Live) : Level env s.sender ids (closed host v id s (flowed s env.now)) where
  solvent := closed_solvent h.solvent hs hlive rfl (h.covered hs hlive)
  own j hj r hr := h.own j (List.mem_cons_of_mem id hj) r (lookup_of_closed hr)
  level j hj r hr := h.level j (List.mem_cons_of_mem id hj) r (lookup_of_closed hr)
  carried := by
    have hcarried := h.carried
    rw [payouts_of_live hs hlive, carried_append] at hcarried
    exact hcarried.2

/-- A single call, failed or not, and the item of the batch end in the same world. -/
theorem item_alike (hv : Level env sender (id :: ids) v) (hauth : env.auths sender = true) {outcome : Option Unit}
    (h : isolated (cancelStream id sender) env v = .ok outcome v') :
    ∃ result, attempt (batchCancelItem sender id) env v = .ok result v' ∧
      (result = .ok () ↔ outcome = some ()) ∧ Level env sender ids v' := by
  by_cases hlacks : Lacks v sender id
  · have hfailed := isolated_of_failed (cancelStream_lacks hlacks (hv.own id List.mem_cons_self) :
        ∀ u v', cancelStream id sender env v ≠ .ok u v')
    obtain ⟨rfl, rfl⟩ := Outcome.ok.inj (hfailed.symm.trans h)
    obtain ⟨e, herr⟩ := batchCancelItem_lacks env hlacks
    exact ⟨_, attempt_of_err herr, by simp, hv.passed hlacks⟩
  · simp only [Lacks, not_forall, not_not] at hlacks
    obtain ⟨s, hs, rfl, hlive⟩ := hlacks
    have hsound := (hv.solvent.accounts id s hs).2
    have hcov := hv.covered hs hlive
    have hitem : batchCancelItem s.sender id env v = .ok () (closed host v id s (flowed s env.now)) :=
      batchCancelItem_ok.mpr ⟨s, _, hs, rfl, hlive, hsound.earnedAt_eq_some env.now, hcov, rfl⟩
    have hsame := flowed_level hsound hlive (hv.level id List.mem_cons_self s hs rfl)
    have hearned : earnedAt s (s.clock env.now) = some (flowed s env.now) :=
      hsame ▸ hsound.earnedAt_eq_some (s.clock env.now)
    have hcancel : cancelStream id s.sender env v = .ok () (closed host v id s (flowed s env.now)) :=
      cancelStream_ok.mpr ⟨hauth, s, _, hs, .inl rfl, hlive, hearned, hcov, rfl⟩
    obtain ⟨rfl, rfl⟩ := Outcome.ok.inj ((isolated_of_ok hcancel).symm.trans h)
    exact ⟨_, attempt_of_ok hitem, by simp, hv.closed hs hlive⟩

theorem items_alike (hv : Level env sender ids v) (hauth : env.auths sender = true) {outcomes : List (Option Unit)}
    (h : each (fun id => isolated (cancelStream id sender)) ids env v = .ok outcomes v') :
    ∃ results, each (fun id => attempt (batchCancelItem sender id)) ids env v = .ok results v' ∧
      List.Forall₂ (fun result outcome => result = .ok () ↔ outcome = some ()) results outcomes := by
  induction ids generalizing v outcomes with
  | nil =>
      obtain ⟨rfl, rfl⟩ := each_nil.mp h
      exact ⟨[], rfl, .nil⟩
  | cons id ids ih =>
      obtain ⟨outcome, v₁, outcomes, hcall, hrest, rfl⟩ := each_cons.mp h
      obtain ⟨result, hitem, hsame, hv₁⟩ := item_alike hv hauth hcall
      obtain ⟨results, hitems, hsames⟩ := ih hv₁ hrest
      exact ⟨result :: results, each_cons.mpr ⟨_, v₁, _, hitem, hitems, rfl⟩, .cons hsame hsames⟩

theorem items_carried {results : List (Except StreamError Unit)} (hv : Solvent host env.now v)
    (h : each (fun id => attempt (batchCancelItem sender id)) ids env v = .ok results v') :
    Carried env v.balances (payouts host env.now sender v.book.streams ids) := by
  induction ids generalizing v results with
  | nil => trivial
  | cons id ids ih =>
      obtain ⟨result, v₁, results, hitem, hrest, -⟩ := each_cons.mp h
      by_cases hlacks : Lacks v sender id
      · obtain ⟨e, herr⟩ := batchCancelItem_lacks env hlacks
        obtain ⟨-, rfl⟩ := Outcome.ok.inj ((attempt_of_err herr).symm.trans hitem)
        rw [payouts_of_lacks hlacks]
        exact ih hv hrest
      · simp only [Lacks, not_forall, not_not] at hlacks
        obtain ⟨s, hs, rfl, hlive⟩ := hlacks
        obtain ⟨hcov, rfl⟩ := batchCancelItem_covered hv hs hlive hitem
        have hsound := (hv.accounts id s hs).2
        rw [payouts_of_live hs hlive, carried_append]
        exact ⟨(covered_iff_carried hv hs hlive (flowed_nonneg hsound.rate env.now)
          (hsound.toAccounted.flowed_le_remaining env.now)).mp hcov, ih (closed_solvent hv hs hlive rfl hcov) hrest⟩

def World.claims (w : World) (id : StreamId) : List Transfer := w.log.filter fun t => t.cause = .claim id

theorem Idle.claims_eq (h : Idle id w w') : w'.claims id = w.claims id := by
  obtain ⟨ts, hts, hidle⟩ := h.log
  have hnone : ts.filter (fun t => t.cause = .claim id) = [] := by
    rw [List.filter_eq_nil_iff]
    intro t ht hcause
    refine hidle t ht ?_
    rw [of_decide_eq_true hcause]
    rfl
  rw [World.claims, World.claims, hts, List.filter_append, hnone, List.append_nil]

theorem closed_claims (w : World) (id : StreamId) (s : Stream) (amount : Int) :
    (closed host w id s amount).claims s.id = w.claims s.id ++ positive (claimTransfer host s amount) := by
  have hshare : (positive (claimTransfer host s amount)).filter (fun t => t.cause = .claim s.id) =
      positive (claimTransfer host s amount) := by
    rw [List.filter_eq_self]
    intro t ht
    rw [mem_positive ht]
    simp [claimTransfer]
  have hrefund : (positive (refundTransfer host s (refundOf s amount))).filter (fun t => t.cause = .claim s.id) =
      [] := by
    rw [List.filter_eq_nil_iff]
    intro t ht
    rw [mem_positive ht]
    simp [refundTransfer]
  rw [World.claims, closed, withBook_log, pay_log, closingTransfers, List.filter_append, List.filter_append, hshare,
    hrefund, List.append_nil, World.claims]

theorem positive_claim_amount (host : Host) (s : Stream) {amount : Int} (h : 0 ≤ amount) :
    ((positive (claimTransfer host s amount)).map Transfer.amount).sum = amount := by
  by_cases hpos : 0 < amount
  · simp [positive, claimTransfer, hpos]
  · simp [positive, claimTransfer, hpos]
    omega

def Untouched (env : Env host) (id : StreamId) (w v : World) : Prop := Solvent host env.now v ∧ Idle id w v

def ClosedWith (env : Env host) (id : StreamId) (s : Stream) (amount : Int) (w v : World) : Prop :=
  Solvent host env.now v ∧ v.book.streams.lookup id = none ∧
    v.claims id = w.claims id ++ positive (claimTransfer host s amount)

theorem Untouched.closes {t : Nat} (h : Untouched env id w v) (hs : w.book.streams.lookup id = some s)
    (hlive : s.Live) (hcov : Covered env v s (flowed s t)) :
    ClosedWith env id s (flowed s t) w (closed host v id s (flowed s t)) := by
  obtain ⟨hv, hidle⟩ := h
  have hstored : v.book.streams.lookup id = some s := hidle.record.trans hs
  refine ⟨closed_solvent hv hstored hlive rfl hcov, Finmap.lookup_erase _ _, ?_⟩
  obtain rfl := (hv.accounts id s hstored).1
  rw [closed_claims, hidle.claims_eq]

/-- What one pass can do: nothing, or close a live stream with what has flowed at some time. -/
def Closes (env : Env host) (id : StreamId) (v v' : World) : Prop :=
  v = v' ∨ ∃ s t, v.book.streams.lookup id = some s ∧ s.Live ∧ Covered env v s (flowed s t) ∧
    closed host v id s (flowed s t) = v'

theorem Untouched.other {j : StreamId} (h : Untouched env id w v) (hpass : Closes env j v v') (hne : j ≠ id) :
    Untouched env id w v' := by
  rcases hpass with rfl | ⟨r, t, hr, hlive, hcov, rfl⟩
  · exact h
  · exact ⟨closed_solvent h.1 hr hlive rfl hcov, h.2.trans (closed_idle (h.1.accounts j r hr).1 hne.symm)⟩

theorem ClosedWith.stays {amount : Int} {j : StreamId} (h : ClosedWith env id s amount w v)
    (hpass : Closes env j v v') : ClosedWith env id s amount w v' := by
  rcases hpass with rfl | ⟨r, t, hr, hlive, hcov, rfl⟩
  · exact h
  · obtain ⟨hv, hgone, hclaims⟩ := h
    have hne : id ≠ j := by
      rintro rfl
      exact Option.some_ne_none r (hr.symm.trans hgone)
    have hidle : Idle id v (closed host v j r (flowed r t)) := closed_idle (hv.accounts j r hr).1 hne
    exact ⟨closed_solvent hv hr hlive rfl hcov, hidle.record.trans hgone, hidle.claims_eq.trans hclaims⟩

theorem batchItem_passes {result : Except StreamError Unit} (hv : Solvent host env.now v)
    (h : attempt (batchCancelItem sender id) env v = .ok result v') : Closes env id v v' := by
  rcases batchCancelItem_cases h with rfl | ⟨s, amount, hs, -, hlive, hearned, hcov, rfl⟩
  · exact .inl rfl
  · have hamount := (hv.accounts id s hs).2.earnedAt_eq_some env.now
    obtain rfl := Option.some.inj (hamount.symm.trans hearned)
    exact .inr ⟨s, _, hs, hlive, hcov, rfl⟩

theorem batch_closes {results : List (Except StreamError Unit)} (hw : Solvent host env.now w)
    (hs : w.book.streams.lookup id = some s) (hlive : s.Live) (hmem : id ∈ ids)
    (h : batchCancelStream ids s.sender env w = .ok results w') : ClosedWith env id s (flowed s env.now) w w' := by
  refine each_turn (Untouched env id w) (ClosedWith env id s (flowed s env.now) w) hmem ?_ ?_ ?_ ⟨hw, .refl w⟩
    (batchCancelStream_ok h).2
  · intro j _ hne v result v' hv hitem
    exact hv.other (batchItem_passes hv.1 hitem) hne
  · intro v result v' hv hitem
    obtain ⟨hcov, rfl⟩ := batchCancelItem_covered hv.1 (hv.2.record.trans hs) hlive hitem
    exact hv.closes hs hlive hcov
  · intro j _ v result v' hv hitem
    exact hv.stays (batchItem_passes hv.1 hitem)

theorem isolatedCancel_cases {outcome : Option Unit} (hv : Solvent host env.now v)
    (h : isolated (cancelStream id sender) env v = .ok outcome v') :
    v = v' ∨ ∃ s, v.book.streams.lookup id = some s ∧ s.Live ∧ Covered env v s (flowed s (s.clock env.now)) ∧
      closed host v id s (flowed s (s.clock env.now)) = v' := by
  cases outcome with
  | none => exact .inl (isolated_ok_none h)
  | some u =>
      obtain ⟨-, s, amount, hs, -, hlive, hearned, hcov, rfl⟩ := cancelStream_ok.mp (isolated_ok_some.mp h)
      have hamount := (hv.accounts id s hs).2.earnedAt_eq_some (s.clock env.now)
      obtain rfl := Option.some.inj (hamount.symm.trans hearned)
      exact .inr ⟨s, hs, hlive, hcov, rfl⟩

/-- The calls one by one leave the stream, if the token refuses, or close it by its own clock. -/
theorem calls_close {outcomes : List (Option Unit)} (hw : Solvent host env.now w)
    (hs : w.book.streams.lookup id = some s) (hlive : s.Live)
    (h : each (fun id => isolated (cancelStream id sender)) ids env w = .ok outcomes w') :
    Untouched env id w w' ∨ ClosedWith env id s (flowed s (s.clock env.now)) w w' := by
  refine each_inv (fun v => Untouched env id w v ∨ ClosedWith env id s (flowed s (s.clock env.now)) w v) ?_
    (.inl ⟨hw, .refl w⟩) h
  rintro j - v outcome v' (hv | hv) hcall
  · rcases isolatedCancel_cases hv.1 hcall with rfl | ⟨r, hr, hrlive, hcov, rfl⟩
    · exact .inl hv
    · by_cases hj : j = id
      · subst hj
        obtain rfl := Option.some.inj (hr.symm.trans (hv.2.record.trans hs))
        exact .inr (hv.closes hs hlive hcov)
      · exact .inl (hv.other (.inr ⟨r, _, hr, hrlive, hcov, rfl⟩) hj)
  · rcases isolatedCancel_cases hv.1 hcall with rfl | ⟨r, hr, hrlive, hcov, rfl⟩
    · exact .inr hv
    · exact .inr (hv.stays (.inr ⟨r, _, hr, hrlive, hcov, rfl⟩))

/-- The batch does what the calls one after another do, each a transaction of its own. -/
def CancelsAlike (env : Env host) (w : World) (ids : List StreamId) (sender : Address) : Prop :=
  ∃ results outcomes w₁ w₂,
    batchCancelStream ids sender env w = .ok results w₁ ∧
    each (fun id => isolated (cancelStream id sender)) ids env w = .ok outcomes w₂ ∧
    results.length = ids.length ∧
    List.Forall₂ (fun result outcome => result = .ok () ↔ outcome = some ()) results outcomes ∧
    w₁.log = w₂.log ∧ w₁.balances = w₂.balances ∧ w₁.book = w₂.book

theorem cancels_alike (hv : Level env sender ids w) (hauth : env.auths sender = true) (hids : ids ≠ [])
    (hlength : ids.length ≤ 20) : CancelsAlike env w ids sender := by
  obtain ⟨outcomes, w', hcalls⟩ := each_isolated (fun id => cancelStream id sender) env ids w
  obtain ⟨results, hitems, hresults⟩ := items_alike hv hauth hcalls
  have hsigned : requireAuth sender env w = .ok () w := requireAuth_ok.mpr ⟨hauth, rfl⟩
  have hsized : failIf (ids = [] ∨ 20 < ids.length) StreamError.batchLengthMismatch env w = .ok () w :=
    failIf_ok.mpr ⟨by simp [hids, hlength], rfl⟩
  refine ⟨results, outcomes, w', w', ?_, hcalls, each_length hitems, hresults, rfl, rfl, rfl⟩
  rw [batchCancelStream, bind_apply hsigned, bind_apply hsized]
  exact hitems

/-- On a paused stream whose clock is behind, the recipient's share in the batch is larger. -/
theorem CancelsAlike.level (h : CancelsAlike env w ids sender) (hw : Solvent host env.now w) (hmem : id ∈ ids)
    (hs : w.book.streams.lookup id = some s) (hsender : s.sender = sender) : ¬s.Drifts env.now := by
  intro hdrift
  subst hsender
  obtain ⟨results, outcomes, w₁, w₂, hbatch, hcalls, -, -, hlog, -, hbook⟩ := h
  have hlive : s.Live := .inr hdrift.1
  have hsound := (hw.accounts id s hs).2
  have hless := flowed_drift hsound hdrift
  have hpos := flowed_nonneg hsound.rate (s.clock env.now)
  obtain ⟨-, hgone, hfirst⟩ := batch_closes hw hs hlive hmem hbatch
  rcases calls_close hw hs hlive hcalls with ⟨-, hidle⟩ | ⟨-, -, hsecond⟩
  · rw [hbook, hidle.record, hs] at hgone
    exact Option.some_ne_none s hgone
  · have hclaims : w₁.claims id = w₂.claims id := by rw [World.claims, World.claims, hlog]
    have hpaid := List.append_cancel_left (hfirst.symm.trans (hclaims.trans hsecond))
    have hshares := congrArg (fun ts : List Transfer => (ts.map Transfer.amount).sum) hpaid
    simp only [positive_claim_amount host s hpos, positive_claim_amount host s (hpos.trans hless.le)] at hshares
    exact hless.ne' hshares

/-- A batch of cancellations and the calls one by one part on the paused streams whose clock
is behind and where a token refuses to pay, and on nothing else. An item that fails writes
nothing. -/
theorem batch_cancel_alike_iff (env : Env host) (h : Reached host c) (hnow : c.now ≤ env.now)
    (hauth : env.auths sender = true) (hids : ids ≠ []) (hlength : ids.length ≤ 20)
    (hown : ∀ id ∈ ids, ∀ s, c.world.book.streams.lookup id = some s →
      c.world.book.delegates id = some sender → s.sender = sender) :
    (CancelsAlike env c.world ids sender ↔
      (∀ id ∈ ids, ∀ s, c.world.book.streams.lookup id = some s → s.sender = sender →
        ¬(s.status = .paused ∧ s.lastPauseTime < env.now ∧ s.lastPauseTime < s.endTime)) ∧
      Carried env c.world.balances (payouts host env.now sender c.world.book.streams ids)) ∧
    ∀ id v e v', batchCancelItem sender id env v = .err e v' → v = v' := by
  have hw : Solvent host env.now c.world := aside_solvent hnow (.refl _) (reached_solvent h)
  refine ⟨⟨?_, ?_⟩, fun id v e v' => batchCancelItem_err⟩
  · intro halike
    refine ⟨fun id hmem s hs hsender => halike.level hw hmem hs hsender, ?_⟩
    obtain ⟨results, outcomes, w₁, w₂, hbatch, -⟩ := halike
    exact items_carried hw (batchCancelStream_ok hbatch).2
  · rintro ⟨hlevel, hcarried⟩
    exact cancels_alike ⟨hw, hown, hlevel, hcarried⟩ hauth hids hlength

theorem sample_batch_cancel_alike :
    (CancelsAlike (Sample.signed [2] 2010) (Sample.genesis.after [Sample.opening 0 0]).world
        [Sample.streamId, Sample.streamId, 7] (Sample.party 2) ↔
      (∀ id ∈ [Sample.streamId, Sample.streamId, 7], ∀ s,
        (Sample.genesis.after [Sample.opening 0 0]).world.book.streams.lookup id = some s → s.sender = Sample.party 2 →
          ¬(s.status = .paused ∧ s.lastPauseTime < 2010 ∧ s.lastPauseTime < s.endTime)) ∧
      Carried (Sample.signed [2] 2010) (Sample.genesis.after [Sample.opening 0 0]).world.balances
        (payouts Sample.site 2010 (Sample.party 2) (Sample.genesis.after [Sample.opening 0 0]).world.book.streams
          [Sample.streamId, Sample.streamId, 7])) ∧
    ∀ id v e v', batchCancelItem (Sample.party 2) id (Sample.signed [2] 2010) v = .err e v' → v = v' := by
  have hreached : Reached Sample.site (Sample.genesis.after [Sample.opening 0 0]) :=
    reached_after Sample.genesis_fresh (by decide)
  have hnone : ∀ id ∈ [Sample.streamId, Sample.streamId, 7],
      (Sample.genesis.after [Sample.opening 0 0]).world.book.delegates id = none := by decide
  refine batch_cancel_alike_iff (Sample.signed [2] 2010) hreached (by decide) (by decide) (by decide) (by decide) ?_
  intro id hmem s _ hdelegate
  exact absurd (hdelegate.symm.trans (hnone id hmem)) (Option.some_ne_none _)

theorem batch_cancel_pays_pause :
    Reached Sample.site Sample.halted ∧ Sample.halted.now ≤ 2010 ∧ Honours (Sample.signed [2] 2010) ∧
    (Sample.signed [2] 2010).auths (Sample.party 2) = true ∧
    Sample.halted.world.book.delegates Sample.streamId = none ∧
    (((batchCancelStream [Sample.streamId] (Sample.party 2) (Sample.signed [2] 2010) Sample.halted.world).commit
      Sample.halted.world).log.map Transfer.amount).tail = [50000, 50000] ∧
    (((cancelStream Sample.streamId (Sample.party 2) (Sample.signed [2] 2010) Sample.halted.world).commit
      Sample.halted.world).log.map Transfer.amount).tail = [25000, 75000] ∧
    ¬CancelsAlike (Sample.signed [2] 2010) Sample.halted.world [Sample.streamId] (Sample.party 2) := by
  refine ⟨reached_after Sample.genesis_fresh (by decide), by decide +kernel, fun _ _ _ _ _ => rfl, by decide,
    by decide +kernel, by decide +kernel, by decide +kernel, ?_⟩
  rintro ⟨results, outcomes, w₁, w₂, hbatch, hcalls, -, -, hlog, -, -⟩
  have hdiffer : ((batchCancelStream [Sample.streamId] (Sample.party 2) (Sample.signed [2] 2010)
      Sample.halted.world).commit Sample.halted.world).log ≠
      ((each (fun id => isolated (cancelStream id (Sample.party 2))) [Sample.streamId] (Sample.signed [2] 2010)
        Sample.halted.world).commit Sample.halted.world).log := by decide +kernel
  rw [hbatch, hcalls] at hdiffer
  exact hdiffer hlog

end SoroStream
