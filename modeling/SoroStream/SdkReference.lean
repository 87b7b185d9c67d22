import SoroStream.Vesting

namespace SoroStream.DifferentialFuzz

open Lib.Checked VestingMath

/-- The second implementation of the vesting arithmetic, with which the differential
tests compare the contract's. No result is a panic, on a zero divisor or an overflow. -/
def sdkRate (deposit : Int) (durationSecs : Nat) : Option Int :=
  if durationSecs = 0 then none else some (deposit.tdiv durationSecs)

def sdkComputeClaimable (deposit : Int) (durationSecs now cliffTime endTime lastWithdrawTime : Nat) : Option Int :=
  if now < cliffTime then some 0
  else do
    let rate ← sdkRate deposit durationSecs
    if rate = 0 then pure 0
    else
      let capped := min now endTime
      if capped ≤ lastWithdrawTime then pure 0
      else
        let secs := capped - lastWithdrawTime
        checkedMulI128 rate secs

def sdkComputeEarned (deposit : Int) (durationSecs now endTime lastWithdrawTime : Nat) : Option Int := do
  let rate ← sdkRate deposit durationSecs
  if rate = 0 then pure 0
  else
    let capped := if endTime < now then endTime else now
    if capped ≤ lastWithdrawTime then pure 0
    else checkedMulI128 rate ((capped - lastWithdrawTime : Nat) : Int)

def sdkComputeRefund (deposit : Int) (durationSecs now endTime startTime : Nat) : Option Int := do
  let rate ← sdkRate deposit durationSecs
  if rate = 0 then pure deposit
  else
    let capped := if endTime < now then endTime else now
    let streamedSecs := if startTime < capped then capped - startTime else 0
    let totalStreamed ← checkedMulI128 rate streamedSecs
    if totalStreamed < deposit then checkedSubI128 deposit totalStreamed
    else pure 0

variable {deposit rate : Int} {duration now cliff stop start mark : Nat}

theorem capped_eq_min (now stop : Nat) : (if stop < now then stop else now) = min now stop := by
  by_cases h : stop < now
  · rw [if_pos h, min_eq_right h.le]
  · rw [if_neg h, min_eq_left (not_lt.mp h)]

theorem zero_inRange : inRange i128Min i128Max 0 = some 0 := inRange_of_mem (by decide) (by decide)

/-- The shortcuts of the reference give what the product gives. -/
theorem checkedMul_shortcut (rate : Int) (capped mark : Nat) :
    (if rate = 0 then some 0 else if capped ≤ mark then some 0 else checkedMulI128 rate ((capped - mark : Nat) : Int)) =
      inRange i128Min i128Max (accrued rate mark capped) := by
  by_cases hrate : rate = 0
  · rw [if_pos hrate, accrued, hrate, zero_mul, zero_inRange]
  · rw [if_neg hrate]
    by_cases hle : capped ≤ mark
    · rw [if_pos hle, accrued, Nat.sub_eq_zero_of_le hle, Int.natCast_zero, mul_zero, zero_inRange]
    · rw [if_neg hle]
      rfl

theorem sdkRate_eq (h : computeFlowRate deposit duration = some rate) : sdkRate deposit duration = some rate := h

/-- Where there is a rate at all, the two agree on every input, and where they panic as well. -/
theorem sdk_earned_eq (h : computeFlowRate deposit duration = some rate) (now stop mark : Nat) :
    sdkComputeEarned deposit duration now stop mark = computeEarned rate now stop mark := by
  rw [sdkComputeEarned, sdkRate_eq h, computeEarned_eq, vested, ← checkedMul_shortcut]
  simp only [capped_eq_min]
  rfl

theorem sdk_claimable_eq (h : computeFlowRate deposit duration = some rate) (now cliff stop mark : Nat) :
    sdkComputeClaimable deposit duration now cliff stop mark = computeClaimable rate now cliff stop mark := by
  rw [sdkComputeClaimable, computeClaimable_eq]
  by_cases hcliff : cliff ≤ now
  · rw [if_pos hcliff, if_neg (not_lt.mpr hcliff), sdkRate_eq h, computeEarned_eq, vested, ← checkedMul_shortcut]
    rfl
  · rw [if_neg hcliff, if_pos (not_le.mp hcliff)]

theorem streamed_within (h : Schedule deposit rate duration) (hstop : stop ≤ start + duration)
    (hmark : start ≤ mark) (now : Nat) : 0 ≤ vested rate stop mark now ∧ vested rate stop mark now ≤ deposit := by
  constructor
  · exact vested_nonneg h.rate_nonneg
  · have hspan : min now stop - mark ≤ duration - 0 := by omega
    calc vested rate stop mark now
        ≤ accrued rate 0 duration := accrued_le h.rate_nonneg hspan
      _ = rate * duration := by rw [accrued, Nat.sub_zero]
      _ ≤ deposit := h.whole_le

theorem streamed_inRange (h : Schedule deposit rate duration) (hstop : stop ≤ start + duration)
    (hmark : start ≤ mark) (now : Nat) :
    inRange i128Min i128Max (vested rate stop mark now) = some (vested rate stop mark now) := by
  obtain ⟨hlow, hhigh⟩ := streamed_within h hstop hmark now
  exact inRange_of_mem (le_trans (by decide) hlow) (hhigh.trans h.fits)

theorem refund_of_streamed (h : Schedule deposit rate duration) (hstop : stop ≤ start + duration) (now : Nat) :
    computeRefund deposit rate now stop start = some (deposit - vested rate stop start now) := by
  obtain ⟨hlow, hhigh⟩ := streamed_within h hstop le_rfl now
  have hfits := h.fits
  have hsub : saturatingSubI128 deposit (vested rate stop start now) = deposit - vested rate stop start now :=
    clamp_of_mem (le_trans (by decide : i128Min ≤ 0) (by omega)) (by omega)
  rw [computeRefund, computeTotalStreamed_eq, streamed_inRange h hstop le_rfl]
  exact congrArg some hsub

theorem sdk_refund_eq (h : Schedule deposit rate duration) (hstop : stop ≤ start + duration) (now : Nat) :
    sdkComputeRefund deposit duration now stop start = computeRefund deposit rate now stop start := by
  obtain ⟨hlow, hhigh⟩ := streamed_within h hstop le_rfl now
  have hfits := h.fits
  rw [refund_of_streamed h hstop, sdkComputeRefund, sdkRate_eq h.rate]
  by_cases hrate : rate = 0
  · simp only [Option.bind_eq_bind, Option.bind_some, vested, accrued, hrate, zero_mul, sub_zero]
    rfl
  · have hsecs : (if start < min now stop then min now stop - start else 0) = min now stop - start := by
      split
      · rfl
      · omega
    have hproduct : checkedMulI128 rate ((min now stop - start : Nat) : Int) = some (vested rate stop start now) :=
      streamed_inRange h hstop le_rfl now
    simp only [Option.bind_eq_bind, Option.bind_some, if_neg hrate, capped_eq_min, hsecs, hproduct]
    by_cases hlt : vested rate stop start now < deposit
    · rw [if_pos hlt]
      exact inRange_of_mem (le_trans (by decide : i128Min ≤ 0) (by omega)) (by omega)
    · rw [if_neg hlt]
      exact congrArg some (by omega)

/-- On the terms of any stream, over the whole ranges of the deposit, the duration and the
clock, the reference computes exactly what the contract computes, and neither panics: the
claimable amount, the earned amount, and the refund, which is what the stream has left. -/
theorem sdk_agrees (hdeposit : 0 < deposit) (hfits : deposit ≤ i128Max) (hduration : 0 < duration)
    (hstop : stop ≤ start + duration) (hmark : start ≤ mark) (cliff now : Nat) :
    ∃ rate claimable earned streamed refund,
      computeFlowRate deposit duration = some rate ∧
      (computeClaimable rate now cliff stop mark = some claimable ∧
        sdkComputeClaimable deposit duration now cliff stop mark = some claimable) ∧
      (computeEarned rate now stop mark = some earned ∧
        sdkComputeEarned deposit duration now stop mark = some earned) ∧
      (computeRefund deposit rate now stop start = some refund ∧
        sdkComputeRefund deposit duration now stop start = some refund) ∧
      computeTotalStreamed rate now stop start = some streamed ∧ streamed + refund = deposit := by
  obtain ⟨rate, h⟩ : ∃ rate, Schedule deposit rate duration :=
    ⟨deposit / duration, computeFlowRate_eq hdeposit hduration, hdeposit, hfits, hduration⟩
  have hearned : computeEarned rate now stop mark = some (vested rate stop mark now) :=
    (computeEarned_eq rate now stop mark).trans (streamed_inRange h hstop hmark now)
  have hclaimable : computeClaimable rate now cliff stop mark = some (released rate stop mark cliff now) := by
    rw [computeClaimable_eq, hearned, released, apply_ite some]
  refine ⟨rate, released rate stop mark cliff now, vested rate stop mark now, vested rate stop start now,
    deposit - vested rate stop start now, h.rate, ⟨hclaimable, ?_⟩, ⟨hearned, ?_⟩, ⟨refund_of_streamed h hstop now, ?_⟩,
    ?_, add_sub_cancel _ deposit⟩
  · rw [sdk_claimable_eq h.rate, hclaimable]
  · rw [sdk_earned_eq h.rate, hearned]
  · rw [sdk_refund_eq h hstop, refund_of_streamed h hstop]
  · rw [computeTotalStreamed_eq, streamed_inRange h hstop le_rfl]

theorem sample_sdk_agrees :
    ∃ rate claimable earned streamed refund,
      computeFlowRate i128Max 1000 = some rate ∧
      (computeClaimable rate u64Max 5 u64Max (u64Max - 9) = some claimable ∧
        sdkComputeClaimable i128Max 1000 u64Max 5 u64Max (u64Max - 9) = some claimable) ∧
      (computeEarned rate u64Max u64Max (u64Max - 9) = some earned ∧
        sdkComputeEarned i128Max 1000 u64Max u64Max (u64Max - 9) = some earned) ∧
      (computeRefund i128Max rate u64Max u64Max (u64Max - 10) = some refund ∧
        sdkComputeRefund i128Max 1000 u64Max u64Max (u64Max - 10) = some refund) ∧
      computeTotalStreamed rate u64Max u64Max (u64Max - 10) = some streamed ∧ streamed + refund = i128Max :=
  sdk_agrees (by decide) (by decide) (by decide) (by decide) (by decide) 5 u64Max

end SoroStream.DifferentialFuzz
