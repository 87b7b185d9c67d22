import SoroStream.Lineage

namespace SoroStream

open Lib Lib.Rollback Lib.Rollback.Prog Lib.Runs Contract

variable {host : Host} {env : Env host} {w w' : World} {made : List Stream} {R : Stream → Stream → Prop}

structure Hereditary (env : Env host) (R : Stream → Stream → Prop) : Prop where
  refl : ∀ s, R s s
  trans : ∀ {s s' s''}, R s s' → R s' s'' → R s s''
  withdrawn : ∀ {w single id s claim w₁ s' us}, Withdrawal env w single id s claim w₁ (some s') us →
    Sound env.now s → R s s'
  handedOver : ∀ {w id s claim w₁ recipient}, HandOver env w id s claim w₁ recipient → Sound env.now s →
    R s { s.advance claim (s.clock env.now) with recipient := recipient }
  cancelled : ∀ {s}, s.Live → R s { s with status := .cancelled }
  toppedUp : ∀ {w id s caller amount}, TopUp env w id s caller amount → Sound env.now s →
    R s (s.toppedUp (topUpAmount s amount))
  paused : ∀ {s}, s.status = .active → R s { s with status := .paused, lastPauseTime := env.now }
  resumed : ∀ {s}, s.status = .paused → Sound env.now s → R s (resumed s (env.now - s.lastPauseTime))
  amended : ∀ {s metadata autoRenew}, (autoRenew = true → s.autoRenew = true) → R s { s with metadata, autoRenew }

namespace Hereditary

theorem action (hR : Hereditary env R) {b : Book} {ts : List Transfer} (h : Action env w made b ts)
    (hw : Accounts env.now w.book.streams) : Inherits R (made.map Stream.id) w.book.streams b.streams := by
  cases h with
  | nonceMarked | batchCounted | delegated => exact .refl hR.refl _
  | opened s => exact Inherits.add hR.refl
  | withdrawn single id s claim w₁ out us h =>
      obtain ⟨rfl, hs⟩ := hw id s h.stored
      cases out with
      | none => exact .erase hR.refl s.id
      | some s' =>
          obtain ⟨hid, -⟩ := h.settled_sound hs rfl
          have hsaved : Inherits R [] w.book.streams (w.book.streams.insert s'.id s') :=
            .save hR.refl (hid ▸ h.stored) (hR.withdrawn h hs)
          exact hsaved
  | handedOver id s claim w₁ recipient h =>
      obtain ⟨rfl, hs⟩ := hw id s h.stored
      have hid := advance_id s claim (s.clock env.now)
      exact .save (k := (s.advance claim (s.clock env.now)).id) hR.refl (hid ▸ h.stored) (hR.handedOver h hs)
  | closed id s | archived id s => exact .erase hR.refl id
  | split id s cancelAmount earned streamed h =>
      obtain ⟨rfl, hs⟩ := hw id s h.stored
      have hcancel : Inherits R [] w.book.streams (w.book.streams.insert s.id { s with status := .cancelled }) :=
        .save hR.refl h.stored (hR.cancelled h.live)
      exact Inherits.trans (R := R) hR.trans hcancel (.add hR.refl)
  | toppedUp id s caller amount h =>
      obtain ⟨rfl, hs⟩ := hw id s h.stored
      exact .save (k := s.id) hR.refl h.stored (hR.toppedUp h hs)
  | paused id s hs hauth hactive =>
      obtain ⟨rfl, -⟩ := hw id s hs
      exact .save (k := s.id) hR.refl hs (hR.paused hactive)
  | resumed id s hs hauth hpaused =>
      obtain ⟨rfl, hsound⟩ := hw id s hs
      exact .save (k := s.id) hR.refl hs (hR.resumed hpaused hsound)
  | amended id s metadata autoRenew hs hauth hauto =>
      obtain ⟨rfl, -⟩ := hw id s hs
      exact .save (k := s.id) hR.refl hs (hR.amended hauto)

theorem acts (hR : Hereditary env R) (h : Acts env made w w') (hw : Accounts env.now w.book.streams) :
    Inherits R (made.map Stream.id) w.book.streams w'.book.streams ∧ Accounts env.now w'.book.streams := by
  induction h with
  | refl w => exact ⟨.refl hR.refl _, hw⟩
  | tail _ hlast ih =>
      obtain ⟨hfirst, haccounts⟩ := ih hw
      refine ⟨?_, acted_accounts hlast haccounts⟩
      rw [List.map_append]
      obtain ⟨b, ts, w₁, ha, -, rfl⟩ := hlast
      exact hfirst.trans hR.trans (hR.action ha haccounts)

end Hereditary

/-- What is hereditary in every transaction passes from the records before an event to those
after it. -/
theorem step_inherits {c : Chain} {e : Event host} (hrefl : ∀ s, R s s) (hR : ∀ env : Env host, Hereditary env R)
    (hmay : May c e) (hw : Accounts c.now c.world.book.streams) :
    Inherits R (c.made e) c.world.book.streams (c.step e).world.book.streams := by
  rcases step_cases hmay with ⟨hmade, haside⟩ | ⟨env, call, made, v, rfl, -, hids, -, haside, hacts⟩
  · rw [hmade, haside.book]
    exact .refl hrefl _
  · rw [← hids, ← haside.book]
    refine ((hR env).acts hacts ?_).1
    rw [haside.book]
    exact hw.mono hmay.1

theorem run_inherits {c c' : Chain} {events : List (Event host)} (hrefl : ∀ s, R s s)
    (htrans : ∀ {s s' s''}, R s s' → R s' s'' → R s s'') (hR : ∀ env : Env host, Hereditary env R)
    (hc : Reached host c) (hrun : SystemRun host c events c') :
    Inherits R (outputs Chain.step Chain.made c events) c.world.book.streams c'.world.book.streams := by
  induction hrun with
  | nil => exact .refl hrefl _
  | @snoc es d e hr hm ih =>
      rw [hr.outputs_snoc]
      exact ih.trans htrans (step_inherits hrefl hR hm (reached_accounts (hc.run hr)))

/-- Who pays whom in which token at which rate stays; the other terms only grow, and a
renewal can only be given up. -/
structure Stream.KeepsTerms (s s' : Stream) : Prop where
  sender : s'.sender = s.sender
  token : s'.token = s.token
  flowRate : s'.flowRate = s.flowRate
  allowRecipientTermination : s'.allowRecipientTermination = s.allowRecipientTermination
  autoRenew : s'.autoRenew = true → s.autoRenew = true
  deposit : s.deposit ≤ s'.deposit
  startTime : s.startTime ≤ s'.startTime
  cliffTime : s.cliffTime ≤ s'.cliffTime
  endTime : s.endTime ≤ s'.endTime
  lastWithdrawTime : s.lastWithdrawTime ≤ s'.lastWithdrawTime
  lockUntil : s.lockUntil ≤ s'.lockUntil

namespace Stream.KeepsTerms

variable {s s' s'' : Stream}

theorem refl (s : Stream) : s.KeepsTerms s :=
  ⟨rfl, rfl, rfl, rfl, fun h => h, le_rfl, le_rfl, le_rfl, le_rfl, le_rfl, le_rfl⟩

theorem trans (h : s.KeepsTerms s') (h' : s'.KeepsTerms s'') : s.KeepsTerms s'' where
  sender := h'.sender.trans h.sender
  token := h'.token.trans h.token
  flowRate := h'.flowRate.trans h.flowRate
  allowRecipientTermination := h'.allowRecipientTermination.trans h.allowRecipientTermination
  autoRenew hauto := h.autoRenew (h'.autoRenew hauto)
  deposit := h.deposit.trans h'.deposit
  startTime := h.startTime.trans h'.startTime
  cliffTime := h.cliffTime.trans h'.cliffTime
  endTime := h.endTime.trans h'.endTime
  lastWithdrawTime := h.lastWithdrawTime.trans h'.lastWithdrawTime
  lockUntil := h.lockUntil.trans h'.lockUntil

end Stream.KeepsTerms

theorem le_saturatingAddU64 {a b : Nat} (h : a ≤ u64Max) : a ≤ saturatingAddU64 a b := le_min (Nat.le_add_right _ _) h

theorem keepsTerms_checkpoint {s : Stream} {claim : Int} {t : Nat} (h : s.lastWithdrawTime ≤ min t s.endTime) :
    s.KeepsTerms (s.checkpoint claim t) :=
  { Stream.KeepsTerms.refl s with lastWithdrawTime := h }

theorem Settlement.keepsTerms {looks : Bool} {now : Nat} {s s' : Stream} {ts : List Transfer}
    (h : Settlement env w now looks s (some s') ts) (hstop : s.lastWithdrawTime ≤ s.endTime) : s.KeepsTerms s' := by
  cases h with
  | running => exact .refl s
  | renewed hend horder =>
      exact { Stream.KeepsTerms.refl s with
        startTime := horder
        endTime := Nat.le_add_right _ _
        lastWithdrawTime := hstop }
  | lapsed => exact { Stream.KeepsTerms.refl s with }

theorem keepsTerms_hereditary (env : Env host) : Hereditary env Stream.KeepsTerms where
  refl := .refl
  trans := .trans
  withdrawn h hs := by
    have hmark := le_min (hs.active h.active) hs.stopped
    exact (keepsTerms_checkpoint hmark).trans (h.settled.keepsTerms (min_le_right _ _))
  handedOver {w id s claim w₁ recipient} h hs := by
    have hmark := le_min (hs.clock h.live).1 hs.stopped
    have hadvance : s.KeepsTerms (s.advance claim (s.clock env.now)) := by
      rw [Stream.advance]
      split
      · exact keepsTerms_checkpoint hmark
      · exact .refl s
    exact hadvance.trans { Stream.KeepsTerms.refl _ with }
  cancelled _ := { Stream.KeepsTerms.refl _ with }
  toppedUp {w id s caller amount} h _ := by
    have hwanted := h.wanted
    exact { Stream.KeepsTerms.refl s with
      deposit := le_add_of_nonneg_right hwanted.le
      endTime := Nat.le_add_right _ _ }
  paused _ := { Stream.KeepsTerms.refl _ with }
  resumed {s} _ hs := by
    have hstop := hs.endTime_max
    have hmark := hs.stopped.trans hstop
    exact { Stream.KeepsTerms.refl s with
      startTime := le_saturatingAddU64 (hs.started.trans hmark)
      cliffTime := le_saturatingAddU64 (hs.cliff.trans hstop)
      endTime := le_saturatingAddU64 hstop
      lastWithdrawTime := le_saturatingAddU64 hmark
      lockUntil := le_saturatingAddU64 hs.lock_max }
  amended hauto := { Stream.KeepsTerms.refl _ with autoRenew := hauto }

/-- The terms of a stream are fixed when it is created. In every run from a reached state that
makes no new record under its ID: what is stored there at the end was stored there before,
with the same sender, token and rate; no deposit shrinks, neither schedule nor checkpoint
moves back, and a renewal is not switched on. -/
theorem terms_fixed {c c' : Chain} {events : List (Event host)} (hc : Reached host c)
    (hrun : SystemRun host c events c') {id : StreamId} {s' : Stream}
    (hnew : id ∉ outputs Chain.step Chain.made c events) (hs' : c'.world.book.streams.lookup id = some s') :
    ∃ s, c.world.book.streams.lookup id = some s ∧ s.KeepsTerms s' :=
  run_inherits .refl .trans keepsTerms_hereditary hc hrun id hnew s' hs'

namespace Sample

/-- The stream of party 2 is drawn on, paused, resumed, lengthened and handed over. -/
def longLived : List (Event site) :=
  [call [3] 1010 (.withdraw streamId (party 3)), call [2] 1100 (.pauseStream streamId (party 2)),
    call [2] 1200 (.resumeStream streamId (party 2)),
    call [2] 1300 (.topUp streamId (party 2) (party 9) ⟨5000, by decide⟩),
    call [3] 1400 (.transferRecipient streamId (party 3) (party 5))]

end Sample

theorem sample_terms_fixed :
    ∃ s, (Sample.genesis.after [Sample.opening 0 0]).world.book.streams.lookup Sample.streamId = some s ∧
      ∃ s', ((Sample.genesis.after [Sample.opening 0 0]).after Sample.longLived).world.book.streams.lookup
        Sample.streamId = some s' ∧ s.KeepsTerms s' := by
  have hafter : ∃ s', ((Sample.genesis.after [Sample.opening 0 0]).after Sample.longLived).world.book.streams.lookup
      Sample.streamId = some s' := Option.isSome_iff_exists.mp (by decide +kernel)
  obtain ⟨s', hs'⟩ := hafter
  obtain ⟨s, hs, hterms⟩ := terms_fixed (reached_after Sample.genesis_fresh (by decide)) (run_of_inOrder (by decide))
    (by decide +kernel) hs'
  exact ⟨s, hs, s', hs', hterms⟩

end SoroStream
