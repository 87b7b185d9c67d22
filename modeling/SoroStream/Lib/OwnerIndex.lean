import SoroStream.Lib.SlotArray
import SoroStream.Lib.Escrow
import Mathlib.Logic.Function.Basic

namespace Lib

variable {κ ρ ω : Type} [DecidableEq κ] [DecidableEq ω] {owner : ρ → ω} {index : ω → SlotArray κ}
  {store : Finmap fun _ : κ => ρ} {k : κ} {r q : ρ}

/-- Every owner's array lists exactly the keys of the records it owns. -/
def Filed (owner : ρ → ω) (index : ω → SlotArray κ) (store : Finmap fun _ : κ => ρ) : Prop :=
  ∀ a, (index a).Lists fun k => ∃ r, store.lookup k = some r ∧ owner r = a

namespace Filed

omit [DecidableEq ω] in
theorem empty : Filed owner (fun _ => SlotArray.empty) (∅ : Finmap fun _ : κ => ρ) :=
  fun _ => SlotArray.Lists.empty.congr (by simp)

omit [DecidableEq ω] in
/-- A record replaced by one of the same owner. -/
theorem replace (h : Filed owner index store) (hr : store.lookup k = some r) (ho : owner q = owner r) :
    Filed owner index (store.insert k q) := by
  intro a
  refine (h a).congr fun j => ?_
  by_cases hj : j = k
  · subst hj
    simp [hr, ho]
  · rw [Finmap.lookup_insert_of_ne _ hj]

theorem insert (h : Filed owner index store) (hfree : store.lookup k = none) :
    Filed owner (Function.update index (owner r) ((index (owner r)).push k)) (store.insert k r) := by
  intro a
  have hother : ∀ {j}, j ≠ k → (store.insert k r).lookup j = store.lookup j := Finmap.lookup_insert_of_ne _
  by_cases ha : a = owner r
  · subst ha
    rw [Function.update_self]
    refine ((h (owner r)).push (by simp [hfree])).congr fun j => ?_
    by_cases hj : j = k
    · subst hj
      simp
    · simp [hother hj, hj]
  · rw [Function.update_of_ne ha]
    refine (h a).congr fun j => ?_
    by_cases hj : j = k
    · subst hj
      simp [hfree, Ne.symm ha]
    · rw [hother hj]

theorem erase (h : Filed owner index store) (hr : store.lookup k = some r) (d : κ) :
    Filed owner (Function.update index (owner r) ((index (owner r)).removeOr d k)) (store.erase k) := by
  intro a
  have hother : ∀ {j}, j ≠ k → (store.erase k).lookup j = store.lookup j := Finmap.lookup_erase_ne
  by_cases ha : a = owner r
  · subst ha
    rw [Function.update_self]
    refine ((h (owner r)).remove ⟨r, hr, rfl⟩ d).congr fun j => ?_
    by_cases hj : j = k
    · subst hj
      simp
    · simp [hother hj, hj]
  · rw [Function.update_of_ne ha]
    refine (h a).congr fun j => ?_
    by_cases hj : j = k
    · subst hj
      simp [hr, Ne.symm ha]
    · rw [hother hj]

/-- A record that changes hands leaves one array and enters the other, which may be
the same one. -/
theorem move (h : Filed owner index store) (hr : store.lookup k = some r) (d : κ) :
    let dropped := Function.update index (owner r) ((index (owner r)).removeOr d k)
    Filed owner (Function.update dropped (owner q) ((dropped (owner q)).push k)) (store.insert k q) := by
  intro dropped
  have hmoved := insert (r := q) (h.erase hr d) (Finmap.lookup_erase k store)
  rwa [Escrow.insert_erase_self] at hmoved

end Filed

/-- Every owner's array is whole and has an entry for each record it owns. It may have
others: keys stored over, or stored for somebody else since. -/
structure Entered (owner : ρ → ω) (index : ω → SlotArray κ) (store : Finmap fun _ : κ => ρ) : Prop where
  whole : ∀ a, ∃ l, (index a).Represents l
  entry : ∀ k r, store.lookup k = some r → k ∈ (index (owner r)).toList

namespace Entered

omit [DecidableEq ω] in
theorem empty : Entered owner (fun _ => SlotArray.empty) (∅ : Finmap fun _ : κ => ρ) :=
  ⟨fun _ => ⟨[], SlotArray.represents_empty⟩, by simp⟩

omit [DecidableEq ω] in
theorem replace (h : Entered owner index store) (hr : store.lookup k = some r) (ho : owner q = owner r) :
    Entered owner index (store.insert k q) := by
  refine ⟨h.whole, ?_⟩
  intro j p hp
  by_cases hj : j = k
  · subst hj
    rw [Finmap.lookup_insert] at hp
    obtain rfl := Option.some.inj hp
    exact ho ▸ h.entry j r hr
  · rw [Finmap.lookup_insert_of_ne _ hj] at hp
    exact h.entry j p hp

theorem insert (h : Entered owner index store) (k : κ) (r : ρ) :
    Entered owner (Function.update index (owner r) ((index (owner r)).push k)) (store.insert k r) := by
  obtain ⟨l, hl⟩ := h.whole (owner r)
  have hpush : ((index (owner r)).push k).toList = (index (owner r)).toList ++ [k] := by
    rw [(hl.push k).toList_eq, hl.toList_eq]
  refine ⟨?_, ?_⟩
  · intro a
    by_cases ha : a = owner r
    · subst ha
      rw [Function.update_self]
      exact ⟨l ++ [k], hl.push k⟩
    · rw [Function.update_of_ne ha]
      exact h.whole a
  · intro j p hp
    by_cases hj : j = k
    · subst hj
      rw [Finmap.lookup_insert] at hp
      obtain rfl := Option.some.inj hp
      rw [Function.update_self, hpush]
      simp
    · rw [Finmap.lookup_insert_of_ne _ hj] at hp
      have hmem := h.entry j p hp
      by_cases ha : owner p = owner r
      · rw [ha] at hmem ⊢
        rw [Function.update_self, hpush]
        exact List.mem_append_left _ hmem
      · rwa [Function.update_of_ne ha]

omit [DecidableEq ω] in
theorem removed (h : Entered owner index store) (hr : store.lookup k = some r) (d : κ) :
    ∃ l, ((index (owner r)).removeOr d k).Represents l ∧ l.Perm ((index (owner r)).toList.erase k) := by
  obtain ⟨l, hl⟩ := h.whole (owner r)
  have hmem : k ∈ l := hl.toList_eq ▸ h.entry k r hr
  obtain ⟨l', hl', hperm⟩ := hl.remove hmem d
  refine ⟨l', hl', ?_⟩
  rw [hl.toList_eq]
  simpa using hperm.erase k

theorem erase (h : Entered owner index store) (hr : store.lookup k = some r) (d : κ) :
    Entered owner (Function.update index (owner r) ((index (owner r)).removeOr d k)) (store.erase k) := by
  obtain ⟨l, hl, hperm⟩ := h.removed hr d
  refine ⟨?_, ?_⟩
  · intro a
    by_cases ha : a = owner r
    · subst ha
      rw [Function.update_self]
      exact ⟨l, hl⟩
    · rw [Function.update_of_ne ha]
      exact h.whole a
  · intro j p hp
    have hj : j ≠ k := by
      rintro rfl
      simp at hp
    rw [Finmap.lookup_erase_ne hj] at hp
    have hmem := h.entry j p hp
    by_cases ha : owner p = owner r
    · rw [ha] at hmem ⊢
      rw [Function.update_self, hl.toList_eq, hperm.mem_iff]
      exact (List.mem_erase_of_ne hj).mpr hmem
    · rwa [Function.update_of_ne ha]

theorem move (h : Entered owner index store) (hr : store.lookup k = some r) (d : κ) :
    let dropped := Function.update index (owner r) ((index (owner r)).removeOr d k)
    Entered owner (Function.update dropped (owner q) ((dropped (owner q)).push k)) (store.insert k q) := by
  intro dropped
  have hmoved := (h.erase hr d).insert k q
  rwa [Escrow.insert_erase_self] at hmoved

end Entered

end Lib
