import Mathlib.Algebra.Order.BigOperators.Group.List
import Mathlib.Algebra.Order.Ring.Int
import Mathlib.Tactic.Common

namespace Lib.Checked

def addNat (max a b : Nat) : Option Nat := if a + b ≤ max then some (a + b) else none

def satAddNat (max a b : Nat) : Nat := min (a + b) max

def inRange (lo hi z : Int) : Option Int := if lo ≤ z ∧ z ≤ hi then some z else none

def clamp (lo hi z : Int) : Int := max lo (min z hi)

variable {max a b n : Nat} {lo hi z y : Int}

theorem addNat_eq_some : addNat max a b = some n ↔ a + b ≤ max ∧ a + b = n := by
  by_cases h : a + b ≤ max <;> simp [addNat, h]

theorem inRange_eq_some : inRange lo hi z = some y ↔ (lo ≤ z ∧ z ≤ hi) ∧ z = y := by
  by_cases h : lo ≤ z ∧ z ≤ hi <;> simp [inRange, h]

theorem inRange_of_mem (h : lo ≤ z) (h' : z ≤ hi) : inRange lo hi z = some z := by
  simp [inRange, h, h']

theorem clamp_of_mem (h : lo ≤ z) (h' : z ≤ hi) : clamp lo hi z = z := by
  simp [clamp, h, h']

theorem satAddNat_of_le (h : a + b ≤ max) : satAddNat max a b = a + b := by
  simp [satAddNat, h]

/-- A running sum of nonnegative numbers that stays at the top once it gets there. -/
theorem foldl_clamp {l : List Int} (hlo : lo ≤ 0) (hl : ∀ d ∈ l, 0 ≤ d) (hz : 0 ≤ z) (hzhi : z ≤ hi) :
    l.foldl (fun sum d => clamp lo hi (sum + d)) z = min (z + l.sum) hi := by
  induction l generalizing z with
  | nil => simp [hzhi]
  | cons d l ih =>
      have hd : 0 ≤ d := hl d (by simp)
      have hrest : 0 ≤ l.sum := List.sum_nonneg fun x hx => hl x (by simp [hx])
      have hclamp : clamp lo hi (z + d) = min (z + d) hi := max_eq_right (by omega)
      rw [List.foldl_cons, hclamp, ih (fun x hx => hl x (by simp [hx])) (by omega) (min_le_right _ _), List.sum_cons]
      omega

end Lib.Checked
