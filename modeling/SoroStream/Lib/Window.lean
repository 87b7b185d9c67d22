import Mathlib.Data.List.Basic
import Mathlib.Tactic.Common

namespace Lib.Window

inductive Mark
  | on (t : Nat)
  | off
  deriving DecidableEq

variable {span now t : Nat} {marks : List Mark}

/-- Some turning on was less than `span` ago, and no turning off came after it. -/
def Open (span : Nat) (marks : List Mark) (t : Nat) : Prop :=
  ∃ t₀ before later, marks = before ++ .on t₀ :: later ∧ t₀ ≤ t ∧ t < t₀ + span ∧ .off ∉ later

theorem not_open_nil : ¬Open span [] t := by
  rintro ⟨t₀, before, later, hmarks, -⟩
  simp at hmarks

theorem not_open_off : ¬Open span (marks ++ [.off]) t := by
  rintro ⟨t₀, before, later, hmarks, -, -, hoff⟩
  rcases List.eq_nil_or_concat later with rfl | ⟨later, m, rfl⟩
  · have hlast := (List.append_inj' hmarks rfl).2
    simp at hlast
  · rw [List.concat_eq_append, ← List.cons_append, ← List.append_assoc] at hmarks
    have hlast := (List.append_inj' hmarks rfl).2
    obtain rfl : Mark.off = m := List.singleton_injective hlast
    exact hoff (by simp)

theorem open_on (hpast : ∀ t₀, .on t₀ ∈ marks → t₀ ≤ now) (hnow : now ≤ t) :
    Open span (marks ++ [.on now]) t ↔ t < now + span := by
  constructor
  · rintro ⟨t₀, before, later, hmarks, -, hlt, -⟩
    have hmem : .on t₀ ∈ marks ++ [.on now] := by simp [hmarks]
    have hle : t₀ ≤ now := by
      rcases List.mem_append.mp hmem with hmem | hmem
      · exact hpast t₀ hmem
      · exact Nat.le_of_eq (Mark.on.inj (List.mem_singleton.mp hmem))
    omega
  · intro hlt
    exact ⟨now, marks, [], rfl, hnow, hlt, List.not_mem_nil⟩

end Lib.Window
