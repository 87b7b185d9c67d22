import Mathlib.Data.Finmap
import Mathlib.Algebra.BigOperators.Group.Multiset.Basic
import Mathlib.Algebra.Order.BigOperators.Group.Multiset
import Mathlib.Algebra.Order.Group.Int
import Mathlib.Tactic.Linarith

namespace Lib.Escrow

variable {κ α : Type} [DecidableEq κ]

/-- What a book of positions owes in all, each position weighed by `w`. -/
def total (w : α → Int) (m : Finmap fun _ : κ => α) : Int := (m.entries.map fun e => w e.2).sum

variable {w : α → Int} {m : Finmap fun _ : κ => α} {k : κ} {a b : α}

omit [DecidableEq κ] in
@[simp] theorem total_empty : total w (∅ : Finmap fun _ : κ => α) = 0 := rfl

theorem total_insert_of_notMem (h : k ∉ m) : total w (m.insert k a) = w a + total w m := by
  simp only [total, Finmap.entries_insert_of_notMem h, Multiset.map_cons, Multiset.sum_cons]

theorem insert_erase_self (a : α) : (m.erase k).insert k a = m.insert k a := by
  apply Finmap.ext_lookup
  intro j
  by_cases hj : j = k
  · subst hj; simp
  · simp only [Finmap.lookup_insert_of_ne _ hj, Finmap.lookup_erase_ne hj]

theorem insert_of_lookup (h : m.lookup k = some a) : m.insert k a = m := by
  apply Finmap.ext_lookup
  intro j
  by_cases hj : j = k
  · subst hj; simp [h]
  · simp only [Finmap.lookup_insert_of_ne _ hj]

theorem total_insert (a : α) : total w (m.insert k a) = w a + total w (m.erase k) := by
  rw [← insert_erase_self, total_insert_of_notMem Finmap.notMem_erase_self]

theorem total_erase (h : m.lookup k = some a) : total w (m.erase k) = total w m - w a := by
  have hsplit := total_insert (w := w) (m := m) (k := k) a
  rw [insert_of_lookup h] at hsplit
  omega

/-- Replacing a position changes the total by the difference of the two. -/
theorem total_replace (h : m.lookup k = some a) (b : α) :
    total w (m.insert k b) = total w m - w a + w b := by
  rw [total_insert, total_erase h]
  omega

/-- A new position over an old one of nonnegative weight adds at most its own weight. -/
theorem total_insert_le (hold : ∀ b, m.lookup k = some b → 0 ≤ w b) (a : α) :
    total w (m.insert k a) ≤ total w m + w a := by
  cases h : m.lookup k with
  | none =>
      have hk : k ∉ m := Finmap.lookup_eq_none.mp h
      rw [total_insert_of_notMem hk]
      omega
  | some b =>
      have hb := hold b h
      rw [total_replace h]
      omega

/-- One position weighs no more than the whole book when none is negative. -/
theorem weight_le_total (hpos : ∀ j b, m.lookup j = some b → 0 ≤ w b)
    (h : m.lookup k = some a) : w a ≤ total w m := by
  have hsum : 0 ≤ total w (m.erase k) := by
    refine Multiset.sum_nonneg ?_
    intro x hx
    obtain ⟨⟨j, b⟩, he, rfl⟩ := Multiset.mem_map.mp hx
    have hl : (m.erase k).lookup j = some b := Finmap.mem_lookup_iff.mpr he
    by_cases hj : j = k
    · subst hj; simp at hl
    · exact hpos j b (by rwa [Finmap.lookup_erase_ne hj] at hl)
  rw [total_erase h] at hsum
  omega

end Lib.Escrow
