import Mathlib.Data.List.Basic
import Mathlib.Data.List.Nodup
import Mathlib.Data.List.Range
import Mathlib.Data.Nat.ModEq
import Mathlib.Logic.Function.Basic
import Mathlib.Tactic.Common

namespace Lib

structure RingBuffer (α : Type) where
  head : Nat
  len : Nat
  slot : Nat → Option α

namespace RingBuffer

variable {α : Type} {cap : Nat} {r : RingBuffer α} {xs : List α} {x : α}

def push (cap : Nat) (r : RingBuffer α) (x : α) : RingBuffer α where
  head := (r.head + 1) % cap
  len := min (r.len + 1) cap
  slot := Function.update r.slot (r.head % cap) (some x)

def index (cap : Nat) (r : RingBuffer α) (i : Nat) : Nat := (r.head + cap - r.len + i) % cap

def toList (cap : Nat) (r : RingBuffer α) : List α := (List.range r.len).filterMap fun i => r.slot (r.index cap i)

structure Recent (cap : Nat) (r : RingBuffer α) (xs : List α) : Prop where
  head : r.head = xs.length % cap
  len : r.len = min xs.length cap
  slot : ∀ i, i < xs.length → xs.length ≤ i + cap → r.slot (i % cap) = xs[i]?

theorem recent_nil (slot : Nat → Option α) : Recent cap ⟨0, 0, slot⟩ [] where
  head := (Nat.zero_mod cap).symm
  len := (Nat.zero_min cap).symm
  slot i hi := absurd hi (Nat.not_lt_zero i)

/-- Positions less than one turn apart have slots of their own. -/
theorem mod_ne_mod {i n : Nat} (hlt : i < n) (hturn : n < i + cap) : i % cap ≠ n % cap := by
  intro heq
  have hdvd : cap ∣ n - i := (Nat.modEq_iff_dvd' hlt.le).mp heq
  have hle := Nat.le_of_dvd (by omega) hdvd
  omega

theorem Recent.push (h : Recent cap r xs) (x : α) : Recent cap (r.push cap x) (xs ++ [x]) where
  head := by simp only [RingBuffer.push, h.head, Nat.mod_add_mod, List.length_append, List.length_singleton]
  len := by
    simp only [RingBuffer.push, h.len, List.length_append, List.length_singleton]
    omega
  slot i hi hturn := by
    rw [List.length_append, List.length_singleton] at hi hturn
    simp only [RingBuffer.push, h.head, Nat.mod_mod]
    rcases Nat.lt_or_eq_of_le (Nat.le_of_lt_succ hi) with hlt | rfl
    · rw [Function.update_of_ne (mod_ne_mod hlt (by omega)), List.getElem?_append_left hlt]
      exact h.slot i hlt (by omega)
    · rw [Function.update_self, List.getElem?_concat_length]

theorem Recent.pushes (h : Recent cap r xs) (ys : List α) :
    Recent cap (ys.foldl (RingBuffer.push cap) r) (xs ++ ys) := by
  induction ys generalizing r xs with
  | nil => simpa using h
  | cons y ys ih => simpa using ih (h.push y)

/-- Reading starts at the oldest entry kept; nothing is subtracted that is not there. -/
theorem Recent.len_le (h : Recent cap r xs) : r.len ≤ cap := h.len ▸ Nat.min_le_right ..

theorem Recent.index_eq (h : Recent cap r xs) (i : Nat) : r.index cap i = (xs.length - r.len + i) % cap := by
  have hlen : r.len ≤ xs.length := h.len ▸ Nat.min_le_left ..
  have hcap := h.len_le
  have hshift : r.head + cap - r.len + i = xs.length % cap + (cap - r.len + i) := by rw [h.head]; omega
  have hback : xs.length + (cap - r.len + i) = xs.length - r.len + i + cap := by omega
  rw [index, hshift, Nat.mod_add_mod, hback, Nat.add_mod_right]

theorem Recent.slot_index (h : Recent cap r xs) {i : Nat} (hi : i < r.len) :
    r.slot (r.index cap i) = xs[xs.length - r.len + i]? := by
  have hlen := h.len
  rw [h.index_eq]
  exact h.slot _ (by omega) (by omega)

theorem Recent.index_nodup (h : Recent cap r xs) : ((List.range r.len).map (r.index cap)).Nodup := by
  refine List.Nodup.map_on ?_ List.nodup_range
  intro i hi j hj heq
  rw [h.index_eq, h.index_eq] at heq
  have hcap := h.len_le
  rw [List.mem_range] at hi hj
  by_contra hne
  rcases Nat.lt_or_gt_of_ne hne with hlt | hlt
  · exact mod_ne_mod (by omega) (by omega) heq
  · exact mod_ne_mod (by omega) (by omega) heq.symm

theorem filterMap_getElem? (xs : List α) {n k : Nat} (h : n + k = xs.length) :
    (List.range k).filterMap (fun i => xs[n + i]?) = xs.drop n := by
  induction k generalizing n with
  | zero => simp [← h]
  | succ k ih =>
      have hn : n < xs.length := by omega
      have hfirst : xs[n + 0]? = some xs[n] := List.getElem?_eq_getElem hn
      have hrest : (List.range k).filterMap ((fun i => xs[n + i]?) ∘ Nat.succ) = xs.drop (n + 1) := by
        rw [← ih (by omega : n + 1 + k = xs.length)]
        refine List.filterMap_congr ?_
        intro i _
        rw [Function.comp_apply, Nat.succ_eq_add_one, Nat.add_assoc n 1 i, Nat.add_comm 1 i]
      rw [List.range_succ_eq_map, List.filterMap_cons_some (f := fun i => xs[n + i]?) hfirst,
        List.filterMap_map, hrest, List.drop_eq_getElem_cons hn]

/-- The entries still there, oldest first, are the last `cap` of those pushed. -/
theorem Recent.toList (h : Recent cap r xs) : r.toList cap = xs.drop (xs.length - cap) := by
  have hlen := h.len
  have hread : r.toList cap = (List.range r.len).filterMap fun i => xs[xs.length - r.len + i]? := by
    refine List.filterMap_congr ?_
    intro i hi
    exact h.slot_index (List.mem_range.mp hi)
  have hdrop : xs.length - r.len = xs.length - cap := by omega
  rw [hread, filterMap_getElem? xs (by omega), hdrop]

end RingBuffer

end Lib
