import Mathlib.Data.Finmap
import Mathlib.Data.Multiset.Filter

namespace Lib

variable {κ α : Type} [DecidableEq κ] {m : Finmap fun _ : κ => α} {ks : List κ}

/-- Distinct keys, among them all of the map's, find its entries. -/
theorem entries_of_keys (hnodup : ks.Nodup) (hall : ∀ k a, m.lookup k = some a → k ∈ ks) :
    ((ks.filterMap fun k => (m.lookup k).map (Sigma.mk k) : List (Σ _ : κ, α)) :
      Multiset (Σ _ : κ, α)) = m.entries := by
  have hfound : (ks.filterMap fun k => (m.lookup k).map (Sigma.mk k) : List (Σ _ : κ, α)).Nodup := by
    refine hnodup.filterMap ?_
    intro k k' e he he'
    obtain ⟨a, -, rfl⟩ := Option.map_eq_some_iff.mp he
    obtain ⟨b, -, heq⟩ := Option.map_eq_some_iff.mp he'
    exact congrArg Sigma.fst heq.symm
  refine (Multiset.Nodup.ext (Multiset.coe_nodup.mpr hfound) m.nodupKeys.nodup).mpr ?_
  rintro ⟨k, a⟩
  rw [Multiset.mem_coe, List.mem_filterMap, ← Finmap.mem_lookup_iff]
  constructor
  · rintro ⟨k', -, he⟩
    obtain ⟨b, hb, heq⟩ := Option.map_eq_some_iff.mp he
    cases heq
    exact hb
  · intro ha
    exact ⟨k, hall k a ha, Option.map_eq_some_iff.mpr ⟨a, ha, rfl⟩⟩

theorem values_of_keys (hnodup : ks.Nodup) (hall : ∀ k a, m.lookup k = some a → k ∈ ks) :
    ((ks.filterMap m.lookup : List α) : Multiset α) = m.entries.map fun e => e.2 := by
  rw [← entries_of_keys hnodup hall, Multiset.map_coe, List.map_filterMap]
  congr 1
  refine List.filterMap_congr ?_
  intro k _
  cases m.lookup k with
  | none => rfl
  | some a => rfl

end Lib
