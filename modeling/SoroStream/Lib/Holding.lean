import Mathlib.Data.Finmap

namespace Lib

variable {κ α : Type} [DecidableEq κ] {p q : α → Prop} {m : Finmap fun _ : κ => α} {a : α}

def Holding (p : α → Prop) (m : Finmap fun _ : κ => α) : Prop := ∀ k a, m.lookup k = some a → p a

namespace Holding

theorem empty : Holding p (∅ : Finmap fun _ : κ => α) := by
  intro k a h
  simp at h

theorem insert (h : Holding p m) (ha : p a) (k : κ) : Holding p (m.insert k a) := by
  intro j b hb
  by_cases hj : j = k
  · subst hj
    rw [Finmap.lookup_insert] at hb
    obtain rfl := Option.some.inj hb
    exact ha
  · rw [Finmap.lookup_insert_of_ne _ hj] at hb
    exact h j b hb

theorem erase (h : Holding p m) (k : κ) : Holding p (m.erase k) := by
  intro j b hb
  by_cases hj : j = k
  · subst hj
    simp at hb
  · rw [Finmap.lookup_erase_ne hj] at hb
    exact h j b hb

/-- One entry without the property does not matter once it is written over. -/
theorem overwrite {k : κ} (h : ∀ j, j ≠ k → ∀ b, m.lookup j = some b → p b) (ha : p a) : Holding p (m.insert k a) := by
  intro j b hb
  by_cases hj : j = k
  · subst hj
    rw [Finmap.lookup_insert] at hb
    obtain rfl := Option.some.inj hb
    exact ha
  · rw [Finmap.lookup_insert_of_ne _ hj] at hb
    exact h j hj b hb

end Holding

end Lib
