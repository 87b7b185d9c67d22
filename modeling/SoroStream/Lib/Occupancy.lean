import SoroStream.Lib.OwnerIndex
import Mathlib.Algebra.BigOperators.Group.Finset.Piecewise
import Mathlib.Algebra.Order.BigOperators.Group.Finset

namespace Lib

variable {κ ω : Type} [DecidableEq ω] {index : ω → SlotArray κ} {x : SlotArray κ} {a : ω} {n : Nat}

/-- No choice of owners has more than `n` entries together. -/
def Within (index : ω → SlotArray κ) (n : Nat) : Prop := ∀ owners : Finset ω, ∑ a ∈ owners, (index a).size ≤ n

theorem sum_size_update (index : ω → SlotArray κ) (x : SlotArray κ) {owners : Finset ω} (ha : a ∈ owners) :
    ∑ b ∈ owners, (Function.update index a x b).size = x.size + ∑ b ∈ owners \ {a}, (index b).size := by
  have hsize : ∀ b, (Function.update index a x b).size = Function.update (fun b => (index b).size) a x.size b :=
    fun b => Function.apply_update (fun _ => SlotArray.size) index a x b
  rw [Finset.sum_congr rfl fun b _ => hsize b, Finset.sum_update_of_mem ha]

theorem sum_size_split (index : ω → SlotArray κ) {owners : Finset ω} (ha : a ∈ owners) :
    ∑ b ∈ owners, (index b).size = (index a).size + ∑ b ∈ owners \ {a}, (index b).size := by
  have hsame := sum_size_update index (index a) ha
  rwa [Function.update_eq_self] at hsame

namespace Within

omit [DecidableEq ω] in
theorem empty : Within (fun _ : ω => (SlotArray.empty : SlotArray κ)) 0 :=
  fun _ => (Finset.sum_eq_zero fun _ _ => rfl).le

omit [DecidableEq ω] in
theorem size_le (h : Within index n) (a : ω) : (index a).size ≤ n := by
  have hone := h {a}
  rwa [Finset.sum_singleton] at hone

/-- One array replaced by one that has at most `d` entries more. -/
theorem update {d : Nat} (h : Within index n) (hx : x.size ≤ (index a).size + d) :
    Within (Function.update index a x) (n + d) := by
  intro owners
  by_cases ha : a ∈ owners
  · have htotal := h owners
    rw [sum_size_split index ha] at htotal
    rw [sum_size_update index x ha]
    omega
  · have hsame : ∀ b ∈ owners, (Function.update index a x b).size = (index b).size := by
      intro b hb
      rw [Function.update_of_ne (ne_of_mem_of_not_mem hb ha)]
    rw [Finset.sum_congr rfl hsame]
    exact (h owners).trans (Nat.le_add_right n d)

theorem push (h : Within index n) (a : ω) (k : κ) : Within (Function.update index a ((index a).push k)) (n + 1) :=
  h.update le_rfl

theorem remove [DecidableEq κ] (h : Within index n) (a : ω) (z k : κ) :
    Within (Function.update index a ((index a).removeOr z k)) n :=
  h.update (d := 0) (SlotArray.size_removeOr_le z (index a) k)

/-- One array replaced by one that has an entry less. -/
theorem drop (h : Within index (n + 1)) (hx : x.size + 1 ≤ (index a).size) : Within (Function.update index a x) n := by
  intro owners
  have hmem : a ∈ insert a owners := Finset.mem_insert_self a owners
  have htotal := h (insert a owners)
  have hpart : ∑ b ∈ owners, (Function.update index a x b).size ≤
      ∑ b ∈ insert a owners, (Function.update index a x b).size :=
    Finset.sum_le_sum_of_subset (Finset.subset_insert a owners)
  rw [sum_size_split index hmem] at htotal
  rw [sum_size_update index x hmem] at hpart
  omega

end Within

end Lib
