import SoroStream.Accounting
import SoroStream.Lib.Succession

namespace SoroStream

open Lib Lib.Rollback Lib.Rollback.Prog Lib.Runs Contract

variable {host : Host} {env : Env host} {w w' w'' : World} {id j : StreamId} {q r s : Stream} {now : Nat}
  {made : List Stream} {new new' : List StreamId} {streams : Streams}

def Stream.Continues (s s' : Stream) : Prop := s'.Live → s.Live ∧ s.lastWithdrawTime ≤ s'.lastWithdrawTime

theorem Stream.Continues.refl (s : Stream) : s.Continues s := fun hlive => ⟨hlive, le_rfl⟩

theorem Stream.Continues.trans {s s' s'' : Stream} (h : s.Continues s') (h' : s'.Continues s'') : s.Continues s'' := by
  intro hlive
  obtain ⟨hlive', hle'⟩ := h' hlive
  obtain ⟨hlive'', hle⟩ := h hlive'
  exact ⟨hlive'', hle.trans hle'⟩

/-- Outside the IDs in `new` no record appears, none comes back to life, and no
checkpoint goes back. -/
abbrev Advances (new : List StreamId) (before after : Streams) : Prop := Inherits Stream.Continues new before after

theorem Settlement.continues {looks : Bool} {s' : Stream} {ts : List Transfer}
    (h : Settlement env w now looks s (some s') ts) (hstop : s.lastWithdrawTime ≤ s.endTime)
    (hactive : s.status = .active) : s.Continues s' := by
  intro hlive
  cases h with
  | running => exact ⟨.inl hactive, le_rfl⟩
  | renewed => exact ⟨.inl hactive, hstop⟩
  | lapsed => simp [Stream.Live] at hlive

theorem Withdrawal.continues {single : Bool} {claim : Int} {w₁ : World} {s' : Stream} {us : List Transfer}
    (h : Withdrawal env w single id s claim w₁ (some s') us) (hs : Sound env.now s) : s.Continues s' := by
  intro hlive
  obtain ⟨-, hle⟩ := h.settled.continues (min_le_right _ _) h.active hlive
  exact ⟨.inl h.active, (le_min (hs.active h.active) hs.stopped).trans hle⟩

theorem advance_continues {claim : Int} {recipient : Address} (hs : Sound now s) (hlive : s.Live) :
    s.Continues { s.advance claim (s.clock now) with recipient := recipient } := by
  intro _
  refine ⟨hlive, ?_⟩
  change s.lastWithdrawTime ≤ (s.advance claim (s.clock now)).lastWithdrawTime
  rw [Stream.advance]
  split
  · exact le_min (hs.clock hlive).1 hs.stopped
  · exact le_rfl

theorem resumed_continues {pausedDuration : Nat} (hs : Sound now s) (hlive : s.Live) :
    s.Continues (resumed s pausedDuration) := by
  intro _
  exact ⟨hlive, le_min (Nat.le_add_right _ _) (hs.stopped.trans hs.endTime_max)⟩

theorem action_advances {b : Book} {ts : List Transfer} (h : Action env w made b ts)
    (hw : Accounts env.now w.book.streams) : Advances (made.map Stream.id) w.book.streams b.streams := by
  have hrefl := Stream.Continues.refl
  cases h with
  | nonceMarked | batchCounted | delegated => exact .refl hrefl _
  | opened s => exact .add hrefl
  | withdrawn single id s claim w₁ out us h =>
      obtain ⟨rfl, hs⟩ := hw id s h.stored
      cases out with
      | none => exact .erase hrefl s.id
      | some s' =>
          obtain ⟨hid, -⟩ := h.settled_sound hs rfl
          have hsaved : Advances [] w.book.streams (w.book.streams.insert s'.id s') :=
            .save hrefl (hid ▸ h.stored) (h.continues hs)
          exact hsaved
  | handedOver id s claim w₁ recipient h =>
      obtain ⟨rfl, hs⟩ := hw id s h.stored
      have hid := advance_id s claim (s.clock env.now)
      exact .save (k := (s.advance claim (s.clock env.now)).id) hrefl (hid ▸ h.stored) (advance_continues hs h.live)
  | closed id s | archived id s => exact .erase hrefl id
  | split id s cancelAmount earned streamed h =>
      obtain ⟨rfl, hs⟩ := hw id s h.stored
      have hcancel : Advances [] w.book.streams (w.book.streams.insert s.id { s with status := .cancelled }) :=
        .save hrefl h.stored fun hlive => by simp [Stream.Live] at hlive
      exact hcancel.trans .trans (.add hrefl)
  | toppedUp id s caller amount h =>
      obtain ⟨rfl, hs⟩ := hw id s h.stored
      exact .save (k := s.id) hrefl h.stored fun _ => ⟨h.live, le_rfl⟩
  | paused id s hs hauth hactive =>
      obtain ⟨rfl, -⟩ := hw id s hs
      exact .save (k := s.id) hrefl hs fun _ => ⟨.inl hactive, le_rfl⟩
  | resumed id s hs hauth hpaused =>
      obtain ⟨rfl, hsound⟩ := hw id s hs
      exact .save (k := s.id) hrefl hs (resumed_continues hsound (.inr hpaused))
  | amended id s metadata autoRenew hs =>
      obtain ⟨rfl, -⟩ := hw id s hs
      exact .save (k := s.id) hrefl hs fun hlive => ⟨hlive, le_rfl⟩

theorem acted_advances (h : Acted env made w w') (hw : Accounts env.now w.book.streams) :
    Advances (made.map Stream.id) w.book.streams w'.book.streams := by
  obtain ⟨b, ts, w₁, ha, -, rfl⟩ := h
  exact action_advances ha hw

theorem acts_advances (h : Acts env made w w') (hw : Accounts env.now w.book.streams) :
    Advances (made.map Stream.id) w.book.streams w'.book.streams ∧ Accounts env.now w'.book.streams := by
  induction h with
  | refl w => exact ⟨.refl Stream.Continues.refl _, hw⟩
  | tail _ hlast ih =>
      obtain ⟨hfirst, haccounts⟩ := ih hw
      refine ⟨?_, acted_accounts hlast haccounts⟩
      rw [List.map_append]
      exact hfirst.trans .trans (acted_advances hlast haccounts)

theorem step_advances {c : Chain} {e : Event host} (hmay : May c e) (hw : Accounts c.now c.world.book.streams) :
    Advances (c.made e) c.world.book.streams (c.step e).world.book.streams := by
  rcases step_cases hmay with ⟨hmade, haside⟩ | ⟨env, call, made, v, rfl, -, hids, -, haside, hacts⟩
  · rw [hmade, haside.book]
    exact .refl Stream.Continues.refl _
  · rw [← hids, ← haside.book]
    refine (acts_advances hacts ?_).1
    rw [haside.book]
    exact hw.mono hmay.1

def Descends (new : List StreamId) (before after : Streams) : Prop :=
  ∀ id, id ∉ new → ∀ s', after.lookup id = some s' → ∃ s, before.lookup id = some s ∧ (s'.Live → s.Live)

theorem Descends.of_advances {before after : Streams} (h : Advances new before after) : Descends new before after :=
  h.imp fun _ _ hcontinues hlive => (hcontinues hlive).1

theorem acts_descends (h : Acts env made w w') (hw : Accounts env.now w.book.streams) :
    Descends (made.map Stream.id) w.book.streams w'.book.streams ∧ Accounts env.now w'.book.streams :=
  (acts_advances h hw).imp_left .of_advances

theorem step_descends {c : Chain} {e : Event host} (hmay : May c e) (hw : Accounts c.now c.world.book.streams) :
    Descends (c.made e) c.world.book.streams (c.step e).world.book.streams := .of_advances (step_advances hmay hw)

end SoroStream
