import SoroStream.Lib.SlotArray

namespace Lib.SlotArray

variable {α : Type} {x y z : SlotArray α} {l : List α}

/-- Both arrays are whole, and their entries are the same, each as often. -/
def Shuffled (x y : SlotArray α) : Prop := ∃ l l', x.Represents l ∧ y.Represents l' ∧ l.Perm l'

theorem Represents.shuffled (h : x.Represents l) : Shuffled x x := ⟨l, l, h, h, .refl l⟩

theorem Shuffled.symm (h : Shuffled x y) : Shuffled y x := by
  obtain ⟨l, l', hl, hl', hperm⟩ := h
  exact ⟨l', l, hl', hl, hperm.symm⟩

theorem Shuffled.trans (h : Shuffled x y) (h' : Shuffled y z) : Shuffled x z := by
  obtain ⟨l, m, hl, hm, hperm⟩ := h
  obtain ⟨m', n, hm', hn, hperm'⟩ := h'
  obtain rfl : m = m' := hm.toList_eq.symm.trans hm'.toList_eq
  exact ⟨l, n, hl, hn, hperm.trans hperm'⟩

variable [DecidableEq α]

theorem Represents.removed (h : x.Represents l) (d a : α) :
    ∃ l', (x.removeOr d a).Represents l' ∧ l'.Perm (l.erase a) := by
  by_cases ha : a ∈ l
  · obtain ⟨l', hl', hperm⟩ := h.remove ha d
    refine ⟨l', hl', ?_⟩
    have herased := hperm.erase a
    rwa [List.erase_cons_head] at herased
  · have hnone : x.find? a = none := (find?_eq_none h).mpr ha
    refine ⟨l, ?_, ?_⟩
    · simpa only [removeOr, hnone] using h
    · rw [List.erase_of_not_mem ha]

theorem Shuffled.removeOr (h : Shuffled x y) (d a : α) : Shuffled (x.removeOr d a) (y.removeOr d a) := by
  obtain ⟨l, l', hl, hl', hperm⟩ := h
  obtain ⟨m, hm, hperm₁⟩ := hl.removed d a
  obtain ⟨m', hm', hperm₂⟩ := hl'.removed d a
  exact ⟨m, m', hm, hm', hperm₁.trans ((hperm.erase a).trans hperm₂.symm)⟩

theorem Represents.removeOr_comm (h : x.Represents l) (d a b : α) :
    Shuffled ((x.removeOr d a).removeOr d b) ((x.removeOr d b).removeOr d a) := by
  obtain ⟨l₁, h₁, hperm₁⟩ := h.removed d a
  obtain ⟨l₂, h₂, hperm₂⟩ := h.removed d b
  obtain ⟨m₁, hm₁, hleft⟩ := h₁.removed d b
  obtain ⟨m₂, hm₂, hright⟩ := h₂.removed d a
  refine ⟨m₁, m₂, hm₁, hm₂, ?_⟩
  have hfirst : m₁.Perm ((l.erase a).erase b) := hleft.trans (hperm₁.erase b)
  have hsecond : m₂.Perm ((l.erase b).erase a) := hright.trans (hperm₂.erase a)
  rw [List.erase_comm] at hsecond
  exact hfirst.trans hsecond.symm

def dropIf (p : Prop) [Decidable p] (d : α) (x : SlotArray α) (a : α) : SlotArray α :=
  if p then x.removeOr d a else x

variable {p q : Prop} [Decidable p] [Decidable q]

theorem Shuffled.dropIf (h : Shuffled x y) (d a : α) : Shuffled (dropIf p d x a) (dropIf p d y a) := by
  by_cases hp : p
  · simpa only [SlotArray.dropIf, if_pos hp] using h.removeOr d a
  · simpa only [SlotArray.dropIf, if_neg hp] using h

theorem Represents.dropIf_comm (h : x.Represents l) (d a b : α) :
    Shuffled (dropIf q d (dropIf p d x a) b) (dropIf p d (dropIf q d x b) a) := by
  by_cases hp : p
  · by_cases hq : q
    · simpa only [SlotArray.dropIf, if_pos hp, if_pos hq] using h.removeOr_comm d a b
    · simpa only [SlotArray.dropIf, if_pos hp, if_neg hq] using h.shuffled.removeOr d a
  · simpa only [SlotArray.dropIf, if_neg hp] using h.shuffled.dropIf (p := q) d b

end Lib.SlotArray
