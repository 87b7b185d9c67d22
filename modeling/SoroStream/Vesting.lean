import SoroStream.Accounting

namespace SoroStream.VestingMath

open Lib.Checked

def accrued (rate : Int) (since till : Nat) : Int := rate * ((till - since : Nat) : Int)

def vested (rate : Int) (stop mark now : Nat) : Int := accrued rate mark (min now stop)

def released (rate : Int) (stop mark cliff now : Nat) : Int := if cliff ≤ now then vested rate stop mark now else 0

section

variable {rate : Int} {a b c d stop mark cliff now : Nat}

theorem accrued_nonneg (hrate : 0 ≤ rate) : 0 ≤ accrued rate a b := Int.mul_nonneg hrate (Int.natCast_nonneg _)

theorem accrued_le (hrate : 0 ≤ rate) (h : b - a ≤ d - c) : accrued rate a b ≤ accrued rate c d :=
  Int.mul_le_mul_of_nonneg_left (Int.ofNat_le.mpr h) hrate

theorem accrued_add (hab : a ≤ b) (hbc : b ≤ c) : accrued rate a b + accrued rate b c = accrued rate a c := by
  have hspan : c - a = (b - a) + (c - b) := by omega
  rw [accrued, accrued, accrued, hspan, Int.natCast_add, Int.mul_add]

theorem vested_nonneg (hrate : 0 ≤ rate) : 0 ≤ vested rate stop mark now := accrued_nonneg hrate

theorem vested_mono (hrate : 0 ≤ rate) {t t' : Nat} (hle : t ≤ t') :
    vested rate stop mark t ≤ vested rate stop mark t' :=
  accrued_le hrate (by omega)

theorem vested_antitone_mark (hrate : 0 ≤ rate) (h : a ≤ mark) : vested rate stop mark now ≤ vested rate stop a now :=
  accrued_le hrate (by omega)

theorem vested_add {t t' : Nat} (hmark : mark ≤ min t stop) (hle : t ≤ t') :
    vested rate stop mark t + vested rate stop (min t stop) t' = vested rate stop mark t' :=
  accrued_add hmark (by omega)

theorem released_nonneg (hrate : 0 ≤ rate) : 0 ≤ released rate stop mark cliff now := by
  rw [released]
  split
  · exact vested_nonneg hrate
  · exact le_rfl

theorem released_le_vested (hrate : 0 ≤ rate) : released rate stop mark cliff now ≤ vested rate stop mark now := by
  rw [released]
  split
  · exact le_rfl
  · exact vested_nonneg hrate

theorem released_mono (hrate : 0 ≤ rate) {t t' : Nat} (hle : t ≤ t') :
    released rate stop mark cliff t ≤ released rate stop mark cliff t' := by
  by_cases hcliff : cliff ≤ t
  · rw [released, released, if_pos hcliff, if_pos (hcliff.trans hle)]
    exact vested_mono hrate hle
  · rw [released, if_neg hcliff]
    exact released_nonneg hrate

end

theorem computeEarned_eq (flowRate : Int) (now endTime lastWithdrawTime : Nat) :
    computeEarned flowRate now endTime lastWithdrawTime =
      inRange i128Min i128Max (vested flowRate endTime lastWithdrawTime now) := by
  simp only [computeEarned, if_lt_eq_min]
  rfl

theorem computeTotalStreamed_eq (flowRate : Int) (now endTime startTime : Nat) :
    computeTotalStreamed flowRate now endTime startTime =
      inRange i128Min i128Max (vested flowRate endTime startTime now) := by
  simp only [computeTotalStreamed, if_lt_eq_min]
  rfl

theorem computeClaimable_eq (flowRate : Int) (now cliffTime endTime lastWithdrawTime : Nat) :
    computeClaimable flowRate now cliffTime endTime lastWithdrawTime =
      if cliffTime ≤ now then computeEarned flowRate now endTime lastWithdrawTime else some 0 := by
  rw [← ite_not]
  simp only [not_le]
  rfl

structure Schedule (deposit flowRate : Int) (duration : Nat) : Prop where
  rate : computeFlowRate deposit duration = some flowRate
  funded : 0 < deposit
  fits : deposit ≤ i128Max
  lasts : 0 < duration

section

variable {deposit flowRate : Int} {duration start w : Nat}

theorem computeFlowRate_eq (hdeposit : 0 < deposit) (hduration : 0 < duration) :
    computeFlowRate deposit duration = some (deposit / duration) := by
  rw [computeFlowRate, if_neg hduration.ne', Int.tdiv_eq_ediv_of_nonneg hdeposit.le]

theorem Schedule.rate_eq (h : Schedule deposit flowRate duration) : flowRate = deposit / duration :=
  Option.some.inj (h.rate.symm.trans (computeFlowRate_eq h.funded h.lasts))

theorem Schedule.rate_nonneg (h : Schedule deposit flowRate duration) : 0 ≤ flowRate := by
  rw [h.rate_eq]
  exact Int.ediv_nonneg h.funded.le (Int.natCast_nonneg _)

theorem Schedule.whole_eq (h : Schedule deposit flowRate duration) :
    flowRate * duration = deposit - deposit % duration := by
  have hdiv := Int.mul_ediv_add_emod deposit duration
  rw [h.rate_eq, Int.mul_comm]
  omega

theorem Schedule.whole_le (h : Schedule deposit flowRate duration) : flowRate * duration ≤ deposit := by
  have hmod := Int.emod_nonneg deposit (Int.natCast_ne_zero.mpr h.lasts.ne')
  have hwhole := h.whole_eq
  omega

/-- What flows within the schedule stays below the deposit, so no product leaves the range. -/
theorem Schedule.vested_le (h : Schedule deposit flowRate duration) (hw : start ≤ w) (now : Nat) :
    vested flowRate (start + duration) w now ≤ flowRate * duration := by
  have hspan : min now (start + duration) - w ≤ duration := by omega
  exact Int.mul_le_mul_of_nonneg_left (Int.ofNat_le.mpr hspan) h.rate_nonneg

theorem Schedule.vested_inRange (h : Schedule deposit flowRate duration) (hw : start ≤ w) (now : Nat) :
    inRange i128Min i128Max (vested flowRate (start + duration) w now) =
      some (vested flowRate (start + duration) w now) := by
  have hlow : 0 ≤ vested flowRate (start + duration) w now := vested_nonneg h.rate_nonneg
  exact inRange_of_mem (le_trans (by decide) hlow) (((h.vested_le hw now).trans h.whole_le).trans h.fits)

theorem Schedule.earned_some (h : Schedule deposit flowRate duration) (hw : start ≤ w) (now : Nat) :
    computeEarned flowRate now (start + duration) w = some (vested flowRate (start + duration) w now) := by
  rw [computeEarned_eq, h.vested_inRange hw]

theorem Schedule.claimable_some (h : Schedule deposit flowRate duration) (hw : start ≤ w) (cliff now : Nat) :
    computeClaimable flowRate now cliff (start + duration) w =
      some (released flowRate (start + duration) w cliff now) := by
  rw [computeClaimable_eq, h.earned_some hw, released, apply_ite some]

theorem Schedule.streamed_some (h : Schedule deposit flowRate duration) (start now : Nat) :
    computeTotalStreamed flowRate now (start + duration) start =
      some (vested flowRate (start + duration) start now) := by
  rw [computeTotalStreamed_eq, h.vested_inRange le_rfl]

theorem Schedule.refund_some (h : Schedule deposit flowRate duration) (start now : Nat) :
    computeRefund deposit flowRate now (start + duration) start =
      some (deposit - vested flowRate (start + duration) start now) := by
  have hlow : 0 ≤ vested flowRate (start + duration) start now := vested_nonneg h.rate_nonneg
  have hhigh : vested flowRate (start + duration) start now ≤ flowRate * duration := h.vested_le le_rfl now
  have hwhole := h.whole_le
  have hfits := h.fits
  have hsub : saturatingSubI128 deposit (vested flowRate (start + duration) start now) =
      deposit - vested flowRate (start + duration) start now :=
    clamp_of_mem (le_trans (by decide : i128Min ≤ 0) (by omega)) (by omega)
  rw [computeRefund, h.streamed_some]
  exact congrArg some hsub

theorem Schedule.refund_ge (h : Schedule deposit flowRate duration) (start now : Nat) :
    deposit.tmod duration ≤ deposit - vested flowRate (start + duration) start now := by
  have hhigh : vested flowRate (start + duration) start now ≤ flowRate * duration := h.vested_le le_rfl now
  have hwhole := h.whole_eq
  rw [Int.tmod_eq_emod_of_nonneg h.funded.le]
  omega

end

/-- The vesting laws over the whole ranges of the deposit, the duration and the clock; times
beyond `u64` are included. -/
theorem vesting_laws {deposit : Int} {duration start w : Nat} (cliff : Nat) (hdeposit : 0 < deposit)
    (hfits : deposit ≤ i128Max) (hduration : 0 < duration) (hw : start ≤ w) (hw' : w ≤ start + duration) :
    ∃ (flowRate : Int) (claimable earned streamed refund : Nat → Int),
      computeFlowRate deposit duration = some flowRate ∧
      (∀ now, computeClaimable flowRate now cliff (start + duration) w = some (claimable now)) ∧
      (∀ now, computeEarned flowRate now (start + duration) w = some (earned now)) ∧
      (∀ now, computeTotalStreamed flowRate now (start + duration) start = some (streamed now)) ∧
      (∀ now, computeRefund deposit flowRate now (start + duration) start = some (refund now)) ∧
      (∀ now, 0 ≤ claimable now ∧ claimable now ≤ earned now ∧ earned now ≤ streamed now ∧
        streamed now ≤ flowRate * duration ∧ flowRate * duration ≤ deposit) ∧
      (∀ now, claimable now = if cliff ≤ now then earned now else 0) ∧
      (∀ now, streamed now + refund now = deposit ∧ deposit.tmod duration ≤ refund now) ∧
      (∀ t t', t ≤ t' → claimable t ≤ claimable t' ∧ earned t ≤ earned t' ∧ streamed t ≤ streamed t' ∧
        refund t' ≤ refund t) ∧
      ∀ t₁ t₂, w ≤ t₁ → t₁ ≤ t₂ → ∃ later,
        computeEarned flowRate t₂ (start + duration) (min t₁ (start + duration)) = some later ∧
        earned t₁ + later = earned t₂ := by
  have h : Schedule deposit (deposit / duration) duration :=
    ⟨computeFlowRate_eq hdeposit hduration, hdeposit, hfits, hduration⟩
  have hrate := h.rate_nonneg
  refine ⟨_, released _ (start + duration) w cliff, vested _ (start + duration) w, vested _ (start + duration) start,
    fun now => deposit - vested _ (start + duration) start now, h.rate, h.claimable_some hw cliff, h.earned_some hw,
    h.streamed_some start, h.refund_some start, ?_, fun now => rfl, ?_, ?_, ?_⟩
  · intro now
    exact ⟨released_nonneg hrate, released_le_vested hrate, vested_antitone_mark hrate hw, h.vested_le le_rfl now,
      h.whole_le⟩
  · intro now
    exact ⟨add_sub_cancel _ deposit, h.refund_ge start now⟩
  · intro t t' hle
    exact ⟨released_mono hrate hle, vested_mono hrate hle, vested_mono hrate hle,
      Int.sub_le_sub_left (vested_mono hrate hle) deposit⟩
  · intro t₁ t₂ hw₁ hle
    have hmark : w ≤ min t₁ (start + duration) := le_min hw₁ hw'
    exact ⟨_, h.earned_some (hw.trans hmark) t₂, vested_add hmark hle⟩

theorem sample_vesting_laws :
    ∃ (flowRate : Int) (claimable earned streamed refund : Nat → Int),
      computeFlowRate i128Max u64Max = some flowRate ∧
      (∀ now, computeClaimable flowRate now 5 (0 + u64Max) 7 = some (claimable now)) ∧
      (∀ now, computeEarned flowRate now (0 + u64Max) 7 = some (earned now)) ∧
      (∀ now, computeTotalStreamed flowRate now (0 + u64Max) 0 = some (streamed now)) ∧
      (∀ now, computeRefund i128Max flowRate now (0 + u64Max) 0 = some (refund now)) ∧
      (∀ now, 0 ≤ claimable now ∧ claimable now ≤ earned now ∧ earned now ≤ streamed now ∧
        streamed now ≤ flowRate * u64Max ∧ flowRate * u64Max ≤ i128Max) ∧
      (∀ now, claimable now = if 5 ≤ now then earned now else 0) ∧
      (∀ now, streamed now + refund now = i128Max ∧ i128Max.tmod u64Max ≤ refund now) ∧
      (∀ t t', t ≤ t' → claimable t ≤ claimable t' ∧ earned t ≤ earned t' ∧ streamed t ≤ streamed t' ∧
        refund t' ≤ refund t) ∧
      ∀ t₁ t₂, 7 ≤ t₁ → t₁ ≤ t₂ → ∃ later,
        computeEarned flowRate t₂ (0 + u64Max) (min t₁ (0 + u64Max)) = some later ∧ earned t₁ + later = earned t₂ :=
  vesting_laws 5 (by decide) (by decide) (by decide) (by decide) (by decide)

end SoroStream.VestingMath
