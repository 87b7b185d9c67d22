import Mathlib.Data.List.Basic
import Mathlib.Data.List.Perm.Basic
import Mathlib.Data.List.Nodup
import Mathlib.Tactic.Common

namespace Lib

/-- An array kept as one counter cell and one cell for each slot, as key-value
stores hold it. A cell that was never written reads `none`. -/
structure SlotArray (α : Type) where
  count : Option Nat
  slot : Nat → Option α

namespace SlotArray

variable {α : Type} {x : SlotArray α} {l : List α} {a : α}

def empty : SlotArray α := ⟨none, fun _ => none⟩

def size (x : SlotArray α) : Nat := x.count.getD 0

@[simp] theorem size_mk (n : Nat) (f : Nat → Option α) : size ⟨some n, f⟩ = n := rfl

def toList (x : SlotArray α) : List α := (List.range x.size).filterMap x.slot

def push (x : SlotArray α) (a : α) : SlotArray α :=
  ⟨some (x.size + 1), Function.update x.slot x.size (some a)⟩

def find? [DecidableEq α] (x : SlotArray α) (a : α) : Option Nat :=
  (List.range x.size).find? (fun i => x.slot i = some a)

/-- Swap-and-pop: the last entry moves into the first slot that holds `a`. The
value `d` stands in for a last entry that is missing. -/
def removeOr [DecidableEq α] (d : α) (x : SlotArray α) (a : α) : SlotArray α :=
  match x.find? a with
  | none => x
  | some i =>
      let last := x.size - 1
      let moved := if i ≠ last then Function.update x.slot i (some ((x.slot last).getD d)) else x.slot
      ⟨some last, Function.update moved last none⟩

@[simp] theorem size_push (x : SlotArray α) (a : α) : (x.push a).size = x.size + 1 := rfl

theorem size_removeOr_le [DecidableEq α] (d : α) (x : SlotArray α) (a : α) : (x.removeOr d a).size ≤ x.size := by
  unfold removeOr
  split
  · exact Nat.le_refl _
  · exact Nat.sub_le _ _

/-- The array is exactly the list: nothing missing below the counter, nothing
left behind above it. -/
def Represents (x : SlotArray α) (l : List α) : Prop :=
  x.size = l.length ∧ ∀ i, x.slot i = l[i]?

theorem represents_empty : Represents (empty : SlotArray α) [] := ⟨rfl, fun _ => by simp [empty]⟩

theorem range_filterMap_getElem? (l : List α) (n : Nat) :
    (List.range n).filterMap (fun i => l[i]?) = l.take n := by
  induction n with
  | zero => rfl
  | succ n ih =>
      rw [List.range_succ, List.filterMap_append, ih, List.take_add_one]
      cases hn : l[n]? <;> simp [hn]

theorem Represents.toList_eq (h : Represents x l) : x.toList = l := by
  have hslot : x.slot = fun i => l[i]? := funext h.2
  rw [toList, h.1, hslot, range_filterMap_getElem?, List.take_length]

theorem Represents.push (h : Represents x l) (a : α) : Represents (x.push a) (l ++ [a]) := by
  refine ⟨by simp [SlotArray.push, h.1], ?_⟩
  intro i
  simp only [SlotArray.push, h.1, Function.update_apply]
  by_cases hi : i = l.length
  · subst hi; simp
  · rw [if_neg hi, h.2]
    by_cases hlt : i < l.length
    · rw [List.getElem?_append_left hlt]
    · rw [List.getElem?_eq_none (by omega), List.getElem?_eq_none (by simp; omega)]

variable [DecidableEq α]

theorem find?_eq_some (h : Represents x l) {i : Nat} (hf : x.find? a = some i) :
    i < l.length ∧ l[i]? = some a := by
  rw [find?, h.1] at hf
  have hmem := List.mem_of_find?_eq_some hf
  have hp := List.find?_some hf
  rw [decide_eq_true_eq, h.2] at hp
  exact ⟨List.mem_range.mp hmem, hp⟩

theorem find?_eq_none (h : Represents x l) : x.find? a = none ↔ a ∉ l := by
  rw [find?, h.1, List.find?_eq_none]
  simp only [decide_eq_true_eq, h.2, List.mem_range]
  constructor
  · intro hn ha
    obtain ⟨i, hi⟩ := List.mem_iff_getElem?.mp ha
    exact hn i (List.getElem?_eq_some_iff.mp hi).1 hi
  · intro ha i _ hi
    exact ha (List.mem_of_getElem? hi)

/-- The stand-in is never used: a nonempty array has its last entry. -/
theorem removeOr_default (h : Represents x l) (d d' : α) (a : α) :
    x.removeOr d a = x.removeOr d' a := by
  cases hf : x.find? a with
  | none => simp only [removeOr, hf]
  | some i =>
      have hi := (find?_eq_some h hf).1
      have hlast : (x.slot (x.size - 1)).isSome := by
        rw [h.1, h.2, List.getElem?_eq_getElem (by omega)]
        rfl
      obtain ⟨b, hb⟩ := Option.isSome_iff_exists.mp hlast
      simp only [removeOr, hf, hb, Option.getD_some]

/-- The list that swap-and-pop leaves when it finds its entry at `i`. -/
def swapPop (l : List α) (i : Nat) : List α :=
  match l.getLast? with
  | none => l
  | some b => (l.set i b).dropLast

omit [DecidableEq α] in
theorem swapPop_perm {i : Nat} (hi : i < l.length) : (l[i] :: swapPop l i).Perm l := by
  obtain ⟨m, b, rfl⟩ : ∃ m b, l = m ++ [b] :=
    ⟨l.dropLast, l.getLast (by rintro rfl; simp at hi), (List.dropLast_append_getLast _).symm⟩
  simp only [swapPop, List.getLast?_append, List.getLast?_singleton, Option.some_or]
  by_cases hlast : i = m.length
  · subst hlast
    simp only [List.set_append, Nat.lt_irrefl, if_false, Nat.sub_self, List.set_cons_zero,
      List.dropLast_concat, List.getElem_concat_length]
    exact (List.perm_append_singleton b m).symm
  · have him : i < m.length := by simp at hi; omega
    rw [List.set_append_left _ _ him, List.dropLast_concat, List.getElem_append_left him]
    refine List.Perm.trans ?_ (List.perm_append_singleton b m).symm
    have hset := List.set_perm_cons_eraseIdx him b
    have hcons := List.getElem_cons_eraseIdx_perm him
    exact ((hset.cons m[i]).trans (List.Perm.swap _ _ _)).trans (hcons.cons b)

theorem represents_swapPop (h : Represents x l) {i : Nat} (hf : x.find? a = some i) (d : α) :
    Represents (x.removeOr d a) (swapPop l i) := by
  have hi := (find?_eq_some h hf).1
  obtain ⟨m, b, rfl⟩ : ∃ m b, l = m ++ [b] :=
    ⟨l.dropLast, l.getLast (by rintro rfl; simp at hi), (List.dropLast_append_getLast _).symm⟩
  have hsize : x.size = m.length + 1 := by simp [h.1]
  have hlast : x.slot m.length = some b := by rw [h.2]; simp
  simp only [swapPop, List.getLast?_append, List.getLast?_singleton, Option.some_or]
  refine ⟨by simp only [removeOr, hf, size_mk, hsize, Nat.add_sub_cancel]; simp, ?_⟩
  intro j
  simp only [removeOr, hf, hsize, Nat.add_sub_cancel, hlast, Option.getD_some, Function.update_apply]
  by_cases hj : j = m.length
  · rw [if_pos hj, List.getElem?_eq_none (by simp [hj])]
  · rw [if_neg hj]
    by_cases him : i = m.length
    · simp only [him, ne_eq, not_true_eq_false, if_false, h.2]
      simp only [List.set_append, Nat.lt_irrefl, if_false, Nat.sub_self, List.set_cons_zero,
        List.dropLast_concat]
      by_cases hlt : j < m.length
      · rw [List.getElem?_append_left hlt]
      · rw [List.getElem?_eq_none (by simp; omega), List.getElem?_eq_none (by omega)]
    · have hlt : i < m.length := by simp at hi; omega
      rw [if_pos him, List.set_append_left _ _ hlt, List.dropLast_concat, Function.update_apply,
        List.getElem?_set]
      by_cases hji : j = i
      · subst hji; simp [hlt]
      · rw [if_neg hji, if_neg (Ne.symm hji), h.2]
        by_cases hjm : j < m.length
        · rw [List.getElem?_append_left hjm]
        · rw [List.getElem?_eq_none (by simp; omega), List.getElem?_eq_none (by omega)]

/-- Removing an entry of a represented list leaves a list with one copy of it
less, the order aside. -/
theorem Represents.remove (h : Represents x l) (ha : a ∈ l) (d : α) :
    ∃ l', Represents (x.removeOr d a) l' ∧ (a :: l').Perm l := by
  obtain ⟨i, hf⟩ : ∃ i, x.find? a = some i := by
    cases hf : x.find? a with
    | none => exact absurd ha ((find?_eq_none h).mp hf)
    | some i => exact ⟨i, rfl⟩
  obtain ⟨hi, hget⟩ := find?_eq_some h hf
  refine ⟨swapPop l i, represents_swapPop h hf d, ?_⟩
  have heq : l[i] = a := by
    rw [List.getElem?_eq_getElem hi] at hget
    exact Option.some.inj hget
  simpa only [heq] using swapPop_perm hi

omit [DecidableEq α]

/-- The array lists exactly the entries with `p`, each once and without a gap. -/
def Lists (x : SlotArray α) (p : α → Prop) : Prop := ∃ l, Represents x l ∧ l.Nodup ∧ ∀ a, a ∈ l ↔ p a

namespace Lists

variable {p q : α → Prop}

theorem empty : Lists (SlotArray.empty : SlotArray α) fun _ => False :=
  ⟨[], represents_empty, List.nodup_nil, by simp⟩

theorem congr (h : Lists x p) (hpq : ∀ a, p a ↔ q a) : Lists x q := by
  obtain ⟨l, hl, hnodup, hmem⟩ := h
  exact ⟨l, hl, hnodup, fun a => (hmem a).trans (hpq a)⟩

theorem push (h : Lists x p) (ha : ¬p a) : Lists (x.push a) fun b => p b ∨ b = a := by
  obtain ⟨l, hl, hnodup, hmem⟩ := h
  refine ⟨l ++ [a], hl.push a, ?_, ?_⟩
  · refine List.nodup_append.mpr ⟨hnodup, List.nodup_singleton a, ?_⟩
    rintro b hb _ hb' rfl
    exact ha ((hmem a).mp (List.mem_singleton.mp hb' ▸ hb))
  · intro b
    rw [List.mem_append, List.mem_singleton, hmem]

theorem remove [DecidableEq α] (h : Lists x p) (ha : p a) (d : α) :
    Lists (x.removeOr d a) fun b => p b ∧ b ≠ a := by
  obtain ⟨l, hl, hnodup, hmem⟩ := h
  obtain ⟨l', hl', hperm⟩ := hl.remove ((hmem a).mpr ha) d
  obtain ⟨hgone, hnodup'⟩ := List.nodup_cons.mp (hperm.nodup_iff.mpr hnodup)
  refine ⟨l', hl', hnodup', ?_⟩
  intro b
  change b ∈ l' ↔ p b ∧ b ≠ a
  rw [← hmem, ← hperm.mem_iff, List.mem_cons]
  constructor
  · intro hb
    exact ⟨.inr hb, fun heq => hgone (heq ▸ hb)⟩
  · rintro ⟨hb, hne⟩
    exact hb.resolve_left hne

theorem present (h : Lists x p) {i : Nat} (hi : i < x.size) : (x.slot i).isSome := by
  obtain ⟨l, hl, -, -⟩ := h
  rw [hl.1] at hi
  rw [hl.2, List.getElem?_eq_getElem hi]
  rfl

theorem absent (h : Lists x p) {i : Nat} (hi : x.size ≤ i) : x.slot i = none := by
  obtain ⟨l, hl, -, -⟩ := h
  rw [hl.1] at hi
  rw [hl.2, List.getElem?_eq_none hi]

theorem nodup (h : Lists x p) : x.toList.Nodup := by
  obtain ⟨l, hl, hnodup, -⟩ := h
  rwa [hl.toList_eq]

theorem mem_iff (h : Lists x p) : a ∈ x.toList ↔ p a := by
  obtain ⟨l, hl, -, hmem⟩ := h
  rw [hl.toList_eq, hmem]

theorem length_eq (h : Lists x p) : x.toList.length = x.size := by
  obtain ⟨l, hl, -, -⟩ := h
  rw [hl.toList_eq, hl.1]

theorem removeOr_default [DecidableEq α] (h : Lists x p) (d d' a : α) : x.removeOr d a = x.removeOr d' a := by
  obtain ⟨l, hl, -, -⟩ := h
  exact SlotArray.removeOr_default hl d d' a

end Lists

end SlotArray

def page {α : Type} (l : List α) (start limit : Nat) : List α :=
  (List.range' start (min (start + limit) l.length - start)).filterMap (fun i => l[i]?)

theorem page_eq {α : Type} (l : List α) (start limit : Nat) :
    page l start limit = (l.drop start).take limit := by
  have hrange : List.range' start (min (start + limit) l.length - start) =
      (List.range (min limit (l.length - start))).map (fun i => start + i) := by
    rw [← List.range'_eq_map_range]
    congr 1
    omega
  have hpage : page l start limit =
      (List.range (min limit (l.length - start))).filterMap (fun i => (l.drop start)[i]?) := by
    rw [page, hrange, List.filterMap_map]
    simp only [Function.comp_def, List.getElem?_drop]
  rw [hpage, SlotArray.range_filterMap_getElem?, ← List.length_drop, List.take_eq_take_iff]
  omega

/-- Reading page after page gives back the list, as far as the pages go. -/
theorem flatMap_page {α : Type} (l : List α) (k n : Nat) :
    (List.range n).flatMap (fun j => page l (j * k) k) = l.take (n * k) := by
  induction n with
  | zero => simp
  | succ n ih =>
      rw [List.range_succ, List.flatMap_append, ih, List.flatMap_singleton, page_eq, Nat.succ_mul,
        List.take_add]

end Lib
