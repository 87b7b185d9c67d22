import Mathlib.Algebra.BigOperators.Group.List.Basic
import Mathlib.Algebra.Ring.Int.Defs

namespace Lib

variable {κ : Type} [DecidableEq κ]

def tally (k : κ) (lines : List (κ × Int)) : Int := (lines.map fun l => if l.1 = k then l.2 else 0).sum

@[simp] theorem tally_nil (k : κ) : tally k [] = 0 := rfl

@[simp] theorem tally_cons (k : κ) (l : κ × Int) (lines : List (κ × Int)) :
    tally k (l :: lines) = (if l.1 = k then l.2 else 0) + tally k lines := by
  simp [tally]

@[simp] theorem tally_append (k : κ) (lines lines' : List (κ × Int)) :
    tally k (lines ++ lines') = tally k lines + tally k lines' := by
  simp [tally]

/-- Nothing is booked under a heading that does not occur. -/
theorem tally_eq_zero {k : κ} {lines : List (κ × Int)} (h : ∀ l ∈ lines, l.1 ≠ k) : tally k lines = 0 := by
  induction lines with
  | nil => rfl
  | cons l lines ih =>
      rw [tally_cons, if_neg (h l (List.mem_cons_self ..)), zero_add]
      exact ih fun l' hl' => h l' (List.mem_cons_of_mem l hl')

end Lib
