import Mathlib.Data.List.Basic
import Mathlib.Order.Defs.PartialOrder
import Mathlib.Tactic.Common

namespace Lib.VersionedCell

variable {ν α : Type}

structure Cell (ν α : Type) where
  version : ν
  value : α
  deriving DecidableEq

structure Write (ν α : Type) where
  expected : ν
  version : ν
  value : α

def Write.cell (w : Write ν α) : Cell ν α := ⟨w.version, w.value⟩

/-- The writes that were accepted one after the other, and what they made of the cell. -/
inductive Linked : Cell ν α → List (Write ν α) → Cell ν α → Prop
  | nil (c : Cell ν α) : Linked c [] c
  | snoc {c d ws} (w : Write ν α) : Linked c ws d → d.version = w.expected → Linked c (ws ++ [w]) w.cell

namespace Linked

variable {c d e : Cell ν α} {ws ws' : List (Write ν α)} {w w' : Write ν α}

theorem last_eq (h : Linked c ws d) : d = ((ws.map Write.cell).getLast?).getD c := by
  cases h with
  | nil => rfl
  | snoc w _ _ => simp

/-- A history can be cut at any of its writes, which found the version it quotes. -/
theorem cut (h : Linked c (ws ++ w :: ws') e) :
    ∃ d, Linked c ws d ∧ d.version = w.expected ∧ Linked w.cell ws' e := by
  generalize hall : ws ++ w :: ws' = all at h
  induction h generalizing ws' with
  | nil => simp at hall
  | @snoc d all w₁ hl hw ih =>
      rcases List.eq_nil_or_concat ws' with rfl | ⟨ws', w₂, rfl⟩
      · obtain ⟨rfl, hlast⟩ := List.append_inj' hall rfl
        obtain rfl := List.head_eq_of_cons_eq hlast
        exact ⟨d, hl, hw, .nil _⟩
      · rw [List.concat_eq_append, ← List.cons_append, ← List.append_assoc] at hall
        obtain ⟨hinit, hlast⟩ := List.append_inj' hall rfl
        obtain rfl := List.head_eq_of_cons_eq hlast
        obtain ⟨d', hd, hexp, htail⟩ := ih hinit
        refine ⟨d', hd, hexp, ?_⟩
        rw [List.concat_eq_append]
        exact htail.snoc w₂ hw

/-- Of two accepted writes that quote the same version, the first or one between the two put
that version back. -/
theorem put_back {between : List (Write ν α)} (h : Linked c (ws ++ w :: between ++ w' :: ws') e)
    (hsame : w.expected = w'.expected) : ∃ v ∈ w :: between, v.version = w.expected := by
  rw [hsame]
  obtain ⟨d, hd, hfound, -⟩ := h.cut
  obtain ⟨-, -, -, hd⟩ := hd.cut
  rw [hd.last_eq] at hfound
  rcases List.eq_nil_or_concat between with rfl | ⟨between, v, rfl⟩
  · exact ⟨w, List.mem_cons_self .., hfound⟩
  · refine ⟨v, by simp, ?_⟩
    simpa [Write.cell] using hfound

/-- Where every write raises the version, the versions quoted go up as well: each is quoted
by one accepted write at most. -/
theorem quoted_increasing [Preorder ν] (h : Linked c ws d) (hraise : ∀ w ∈ ws, w.expected < w.version) :
    (∀ w ∈ ws, w.expected < d.version) ∧ (ws.map Write.expected).Pairwise (· < ·) := by
  induction h with
  | nil => exact ⟨by simp, List.Pairwise.nil⟩
  | snoc w hl hw ih =>
      obtain ⟨hbelow, hpair⟩ := ih fun v hv => hraise v (List.mem_append_left _ hv)
      have hlast : w.expected < w.version := hraise w (by simp)
      constructor
      · intro v hv
        rcases List.mem_append.mp hv with hv | hv
        · exact lt_trans (hw ▸ hbelow v hv) hlast
        · obtain rfl := List.mem_singleton.mp hv
          exact hlast
      · rw [List.map_append, List.pairwise_append]
        refine ⟨hpair, List.pairwise_singleton _ _, ?_⟩
        intro a ha b hb
        obtain ⟨v, hv, rfl⟩ := List.mem_map.mp ha
        obtain rfl := List.mem_singleton.mp hb
        exact hw ▸ hbelow v hv

end Linked

end Lib.VersionedCell
