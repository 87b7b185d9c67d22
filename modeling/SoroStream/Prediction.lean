import SoroStream.Heredity
import SoroStream.SdkReference
import SoroStream.TopUps

namespace SoroStream

open Lib Lib.Rollback Lib.Rollback.Prog Lib.Runs Contract VestingMath DifferentialFuzz

variable {host : Host} {env : Env host} {w w' : World} {c c' : Chain} {id : StreamId} {s s' s'' : Stream} {now : Nat}
  {e : Event host} {events : List (Event host)}

def Stream.dust (s : Stream) : Int := s.deposit - s.flowRate * ((s.endTime : Int) - s.startTime)

/-- Short of the last second that a `u64` can tell, the dust stays and the duration does not
shrink. -/
structure Stream.KeepsPace (s s' : Stream) : Prop where
  flowRate : s'.flowRate = s.flowRate
  endTime : s.endTime ≤ s'.endTime
  dust : s'.endTime < u64Max → s'.dust = s.dust
  duration : s'.endTime < u64Max → (s.endTime : Int) - s.startTime ≤ s'.endTime - s'.startTime

namespace Stream.KeepsPace

theorem refl (s : Stream) : s.KeepsPace s := ⟨rfl, le_rfl, fun _ => rfl, fun _ => le_rfl⟩

theorem trans (h : s.KeepsPace s') (h' : s'.KeepsPace s'') : s.KeepsPace s'' where
  flowRate := h'.flowRate.trans h.flowRate
  endTime := h.endTime.trans h'.endTime
  dust hend := (h'.dust hend).trans (h.dust (h'.endTime.trans_lt hend))
  duration hend := (h.duration (h'.endTime.trans_lt hend)).trans (h'.duration hend)

end Stream.KeepsPace

def Stream.Proportioned (s : Stream) : Prop := s.endTime < u64Max → s.dust < (s.endTime : Int) - s.startTime

def Stream.Lasting (s : Stream) : Prop := s.endTime < u64Max → s.startTime < s.endTime

theorem Stream.KeepsPace.lasting (h : s.KeepsPace s') (hs : s.Lasting) : s'.Lasting := by
  intro hend
  have hbefore := hs (h.endTime.trans_lt hend)
  have hspan := h.duration hend
  omega

/-- A successor runs for a whole number of seconds, at least one, but at the old rate. -/
theorem Split.lasting {cancelAmount earned streamed : Int} (h : Split env w id s cancelAmount earned streamed)
    (hs : Sound now s) :
    (splitSuccessor host id s (s.clock env.now) (splitDeposit s streamed cancelAmount)).Lasting := by
  intro _
  have hrate := hs.rate
  have hleft := h.left
  have hone : 1 ≤ (splitDeposit s streamed cancelAmount).tdiv s.flowRate := by
    rw [Int.tdiv_eq_ediv_of_nonneg (by omega)]
    exact Int.le_ediv_of_mul_le (by omega) (by omega)
  simp only [splitSuccessor, successor]
  omega

theorem Sound.span_cast (hs : Sound now s) : ((s.endTime - s.startTime : Nat) : Int) = s.endTime - s.startTime :=
  Nat.cast_sub (hs.started.trans hs.stopped)

theorem Sound.rate_le (hs : Sound now s) (hlasting : s.startTime < s.endTime) :
    s.flowRate ≤ s.deposit / ((s.endTime - s.startTime : Nat) : Int) := by
  have hspan := hs.span_cast
  have hfunded := hs.funded
  rw [← hspan] at hfunded
  exact Int.le_ediv_of_mul_le (by omega) hfunded

theorem Sound.rate_eq (hs : Sound now s) (hlasting : s.startTime < s.endTime) (hend : s.endTime < u64Max)
    (hprop : s.Proportioned) : s.deposit / ((s.endTime - s.startTime : Nat) : Int) = s.flowRate := by
  have hspan := hs.span_cast
  have hdust := hprop hend
  rw [Stream.dust, ← hspan] at hdust
  refine le_antisymm ?_ (hs.rate_le hlasting)
  have hlt : s.deposit / ((s.endTime - s.startTime : Nat) : Int) < s.flowRate + 1 := by
    apply Int.ediv_lt_of_lt_mul (by omega)
    rw [add_mul, one_mul]
    omega
  omega

namespace Sample

end Sample

end SoroStream
