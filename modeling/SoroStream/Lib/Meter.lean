import Mathlib.Algebra.Order.Ring.Defs
import Mathlib.Tactic.Ring
import Mathlib.Tactic.Linarith

namespace Lib

/-- A meter that runs at a constant rate. `mark` is where it was last looked at,
`total` what has been counted. -/
structure Meter (α : Type) where
  rate : α
  mark : α
  total : α

namespace Meter

variable {α : Type} [CommRing α] [LinearOrder α] [IsStrictOrderedRing α] {m n : Meter α} {t u : α}

/-- Look at the meter and count what has run. -/
def read (m : Meter α) (t : α) : Meter α := { m with mark := t, total := m.total + m.rate * (t - m.mark) }

/-- Look at the meter and count nothing. -/
def skip (m : Meter α) (t : α) : Meter α := { m with mark := t }

/-- The count less what the mark accounts for. -/
def baseline (m : Meter α) : α := m.total - m.rate * m.mark

omit [LinearOrder α] [IsStrictOrderedRing α] in
theorem read_baseline (m : Meter α) (t : α) : (m.read t).baseline = m.baseline := by
  simp only [baseline, read]
  ring

omit [LinearOrder α] [IsStrictOrderedRing α] in
theorem skip_baseline (m : Meter α) (t : α) : (m.skip t).baseline = m.baseline - m.rate * (t - m.mark) := by
  simp only [baseline, skip]
  ring

omit [LinearOrder α] [IsStrictOrderedRing α] in
theorem read_total (m : Meter α) (t : α) : (m.read t).total = m.baseline + m.rate * t := by
  simp only [baseline, read]
  ring

theorem skip_baseline_le (hrate : 0 < m.rate) (h : m.mark ≤ t) : (m.skip t).baseline ≤ m.baseline := by
  rw [skip_baseline]
  have hprod : 0 ≤ m.rate * (t - m.mark) := mul_nonneg hrate.le (sub_nonneg.mpr h)
  linarith

theorem skip_baseline_lt (hrate : 0 < m.rate) (h : m.mark < t) : (m.skip t).baseline < m.baseline := by
  rw [skip_baseline]
  have hprod : 0 < m.rate * (t - m.mark) := mul_pos hrate (sub_pos.mpr h)
  linarith

theorem baseline_lt_of_mark_lt (hrate : 0 < m.rate) (h : n.rate = m.rate) (htotal : n.total = m.total)
    (hmark : m.mark < n.mark) : n.baseline < m.baseline := by
  have hskip := skip_baseline_lt hrate hmark
  simpa only [baseline, skip, h, htotal] using hskip

end Meter

end Lib
