import SoroStream.CatchUp
import SoroStream.CliffGate

namespace SoroStream

open Lib Lib.Rollback Lib.Rollback.Prog Contract

variable {host : Host} {env : Env host} {w w' w₁ : World} {c : Chain} {id : StreamId} {s s' : Stream} {claim : Int}
  {now : Nat}

theorem dust_held (hw : Solvent host now w) (hs : w.book.streams.lookup id = some s) (hactive : s.status = .active)
    (hclaim : claim = flowed s now ∨ claim = 0) (hpaid : Moved host (claimedTransfers host w s claim) w w₁) :
    dustOf (s.checkpoint claim now) ≤ w₁.balances s.token host.contract := by
  obtain ⟨-, hsound⟩ := hw.accounts id s hs
  have hpos : 0 ≤ claim := claim_nonneg hsound.toAccounted hclaim
  have hmark := checkpoint_sound hsound hactive hclaim
  have hdust : dustOf (s.checkpoint claim now) ≤ s.remaining - claim := by
    rw [dustOf_eq hmark, ← checkpoint_remaining hpos s now]
    exact hmark.toAccounted.dust_le
  have hpot := hw.remaining_le hs (.inl hactive)
  have hspent := claimedTransfers_spent host s s.token hw.fees hpos
  have hreceived : 0 ≤ received host.contract s.token (claimedTransfers host w s claim) :=
    received_nonneg claimedTransfers_nonneg
  have hheld := hpaid.held s.token
  rw [if_pos rfl] at hspent
  omega

/-- A stream that does not renew settles in every world its claim can leave, if its token
lets the dust pass. -/
theorem settlement_available (looks : Bool)
    (htoken : s.endTime ≤ env.now → ∀ t ∈ positive (dustTransfer host (s.checkpoint claim env.now)), Passes env t)
    (hw : Solvent host env.now w) (hs : w.book.streams.lookup id = some s) (hactive : s.status = .active)
    (hauto : s.autoRenew = false)
    (hclaim : claim = flowed s env.now ∨ claim = 0) (hpaid : Moved host (claimedTransfers host w s claim) w w₁) :
    ∃ out us, Settlement env w₁ env.now looks (s.checkpoint claim env.now) out us := by
  by_cases hend : env.now < s.endTime
  · exact ⟨_, _, .running hend⟩
  · have hsound := (hw.accounts id s hs).2
    have horder : s.startTime ≤ s.endTime := hsound.started.trans hsound.stopped
    have hdust := dust_held hw hs hactive hclaim hpaid
    refine ⟨_, _, .finished (not_lt.mp hend) horder hauto fun hpos => ⟨hpos.le, hdust, ?_⟩⟩
    exact htoken (not_lt.mp hend) _ (self_mem_positive hpos) _ hpos.le hdust

def Collected (env : Env host) (w : World) (id : StreamId) (s : Stream) (claim : Int) : Prop :=
  ∃ w' us, withdraw id s.recipient env w = .ok () w' ∧ w'.log = w.log ++ claimTransfers host w s claim ++ us ∧
    (∀ t ∈ us, t.cause = .dust s.id) ∧
    ∀ r, w'.book.streams.lookup id = some r → r.totalWithdrawn = s.totalWithdrawn + claim

/-- An amount that the query shows can be withdrawn, and of a locked stream it shows none. -/
structure Predicts (env : Env host) (w : World) (id : StreamId) (s : Stream) : Prop where
  paid : ∀ claim v, getClaimable id env w = .ok claim v → 0 < claim → Collected env w id s claim
  locked : ∀ v, withdraw id s.recipient env w = .err .streamLocked v → ∃ v', getClaimable id env w = .ok 0 v'

/-- Nothing to claim before the cliff or since the last claim, or else no lock, and a fee that
can be computed. -/
def Foretold (w : World) (s : Stream) (now : Nat) : Prop :=
  now < s.cliffTime ∨ min now s.endTime ≤ s.lastWithdrawTime ∨
    (s.lockUntil ≤ now ∧ FeeFits w s.recipient (s.flowRate * (((min now s.endTime : Nat) : Int) - s.lastWithdrawTime)))

theorem claimBlock_fits {hook : FeeHook host} {after : Int → Contract host Unit} (hpos : 0 < claim)
    (h : claimBlock hook after s claim env w = .ok s' w') : FeeFits w s.recipient claim := by
  obtain ⟨-, ⟨-, -, amount, v, hpay, -⟩ | ⟨hnone, -⟩⟩ := claimBlock_cases h
  · obtain ⟨hfee, -⟩ := payClaim_ok.mp hpay
    intro hdue
    obtain ⟨product, hproduct⟩ := Option.isSome_iff_exists.mp (hfee hdue)
    obtain ⟨⟨-, hle⟩, -⟩ := Checked.inRange_eq_some.mp hproduct
    exact hle
  · exact absurd hpos hnone

/-- No withdrawal succeeds before the lock, or where the fee has no room. -/
theorem withdraw_foretold {u : Unit} (hs : w.book.streams.lookup id = some s)
    (hclaim : claimableAt s env.now = some claim) (hpos : 0 < claim) (h : withdraw id s.recipient env w = .ok u w') :
    s.lockUntil ≤ env.now ∧ FeeFits w s.recipient claim := by
  obtain ⟨-, -, r, amount, w₁, hr, -, -, hlock, hamount, hblock, -⟩ := withdraw_parts h
  obtain rfl := Option.some.inj (hs.symm.trans hr)
  obtain rfl := Option.some.inj (hclaim.symm.trans hamount)
  have hfits : FeeFits (w.awake env.now) s.recipient claim := claimBlock_fits hpos hblock
  exact ⟨hlock, hfits⟩

theorem collected_available (htoken : Honours env) (hw : Solvent host env.now w)
    (hs : w.book.streams.lookup id = some s) (hready : Ready env w s) (hauto : s.autoRenew = false)
    (hclaim : claimableAt s env.now = some claim) (hpos : 0 < claim)
    (hfits : FeeFits w s.recipient claim) : Collected env w id s claim := by
  have hawake : Solvent host env.now (w.awake env.now) := ⟨hw.accounts, hw.fees, hw.covered⟩
  have hpaid := claimed_moved env (w.awake env.now) s claim
  have hdust : ∀ t ∈ positive (dustTransfer host (s.checkpoint claim env.now)), Passes env t :=
    fun t ht => htoken.passes (by rw [mem_positive ht]; rfl)
  obtain ⟨out, us, hsettled⟩ := settlement_available true (fun _ => hdust) hawake hs hready.active hauto
    (claim_cases (claimableAt_eq hclaim)) hpaid
  have hlog : ((w.awake env.now).claimed env s claim).log = w.log ++ claimTransfers host w s claim := by
    rw [hpaid.log, claimedTransfers, if_pos hpos]
    rfl
  have hid := (hw.accounts id s hs).1
  refine ⟨_, us, withdraw_available hw hs hready htoken hclaim hfits hsettled, ?_, ?_, ?_⟩
  · rw [Withdrawal.result, withBook_log, pay_log, hlog]
  · intro t ht
    cases hsettled with
    | running hend => exact absurd ht List.not_mem_nil
    | renewed _ _ hrenews => exact Bool.noConfusion (hauto.symm.trans hrenews)
    | lapsed _ _ hrenews => exact Bool.noConfusion (hauto.symm.trans hrenews)
    | finished => rw [mem_positive ht]; rfl
  · intro r hr
    obtain rfl := (hsettled.lookup hid _).symm.trans hr
    cases hsettled with
    | running hend => exact checkpoint_total hpos.le s env.now
    | renewed _ _ hrenews => exact Bool.noConfusion (hauto.symm.trans hrenews)
    | lapsed _ _ hrenews => exact Bool.noConfusion (hauto.symm.trans hrenews)

/-- What `get_claimable` shows of an active stream can be withdrawn at once, fee included,
exactly when it shows nothing, or the lock is over and the fee can be computed. -/
theorem get_claimable_predicts_iff (env : Env host) (h : Reached host c) (hnow : c.now ≤ env.now)
    (hs : c.world.book.streams.lookup id = some s) (hactive : s.status = .active) (hauto : s.autoRenew = false)
    (hrun : c.world.pause.pausedAt env.now = false) (hcool : Storage.getWithdrawalCooldown c.world = 0)
    (hauth : env.auths s.recipient = true) (htoken : Honours env) :
    Predicts env c.world id s ↔ Foretold c.world s env.now := by
  have hw : Solvent host env.now c.world := aside_solvent hnow (.refl _) (reached_solvent h)
  have hsound := (hw.accounts id s hs).2
  have hflow := flowed_eq hsound.toAccounted (hsound.active hactive)
  have hquery : getClaimable id env c.world = .ok _ c.world := getClaimable_eq hsound hs
  have hclaim := hsound.claimableAt_eq_some env.now
  rw [clock_of_active hactive] at hquery
  have hnothing : env.now < s.cliffTime ∨ min env.now s.endTime ≤ s.lastWithdrawTime →
      getClaimable id env c.world = .ok 0 c.world := by
    rintro (hcliff | hdone)
    · rw [hquery, if_neg fun hopen => absurd hopen.2 (not_le.mpr hcliff)]
    · rw [hquery, flowed_eq_zero hdone, ite_self]
  constructor
  · intro hpredicts
    by_contra hnot
    obtain ⟨hcliff, hmore, hstuck⟩ : s.cliffTime ≤ env.now ∧ s.lastWithdrawTime < min env.now s.endTime ∧
        ¬(s.lockUntil ≤ env.now ∧ FeeFits c.world s.recipient
          (s.flowRate * (((min env.now s.endTime : Nat) : Int) - s.lastWithdrawTime))) := by
      simpa only [Foretold, not_or, not_lt, not_le] using hnot
    have hpos : 0 < flowed s env.now := flowed_pos hsound.rate hmore
    rw [if_pos ⟨.inl hactive, hcliff⟩] at hquery
    rw [if_pos hcliff] at hclaim
    obtain ⟨w', us, hok, -⟩ := hpredicts.paid _ _ hquery hpos
    exact hstuck (hflow ▸ withdraw_foretold hs hclaim hpos hok)
  · intro hforetold
    by_cases hnone : env.now < s.cliffTime ∨ min env.now s.endTime ≤ s.lastWithdrawTime
    · have hzero := hnothing hnone
      refine ⟨?_, fun _ _ => ⟨_, hzero⟩⟩
      intro amount v hamount hpos
      obtain ⟨rfl, -⟩ := Outcome.ok.inj (hzero.symm.trans hamount)
      exact absurd hpos (lt_irrefl 0)
    · rw [Foretold, ← or_assoc] at hforetold
      obtain ⟨hlock, hfits⟩ := hforetold.resolve_left hnone
      obtain ⟨hcliff, hmore⟩ : s.cliffTime ≤ env.now ∧ s.lastWithdrawTime < min env.now s.endTime := by
        simpa only [not_or, not_lt, not_le] using hnone
      rw [if_pos ⟨.inl hactive, hcliff⟩] at hquery
      rw [if_pos hcliff] at hclaim
      have hready : Ready env c.world s := ⟨hauth, hrun, hcool, hactive, hlock⟩
      have hpos : 0 < flowed s env.now := flowed_pos hsound.rate hmore
      have hcollected := collected_available htoken hw hs hready hauto hclaim hpos (hflow ▸ hfits)
      constructor
      · intro amount v hamount _
        obtain ⟨rfl, -⟩ := Outcome.ok.inj (hquery.symm.trans hamount)
        exact hcollected
      · intro v hrefused
        obtain ⟨w', us, hok, -⟩ := hcollected
        rw [hok] at hrefused
        cases hrefused

theorem sample_get_claimable_predicts :
    Predicts (Sample.signed [3] 2010) (Sample.genesis.after [Sample.opening 500 0]).world Sample.streamId
      (createdStream Sample.site (Sample.terms 500 0) 10) ↔
    Foretold (Sample.genesis.after [Sample.opening 500 0]).world (createdStream Sample.site (Sample.terms 500 0) 10)
      2010 := by
  have hreached : Reached Sample.site (Sample.genesis.after [Sample.opening 500 0]) :=
    reached_after Sample.genesis_fresh (by decide)
  exact get_claimable_predicts_iff (Sample.signed [3] 2010) hreached (by decide) (by decide +kernel) rfl rfl
    (by decide +kernel) (by decide +kernel) (by decide) fun _ _ _ _ _ => rfl

theorem get_claimable_ignores_lock :
    Reached Sample.site (Sample.genesis.after [Sample.opening 0 3000]) ∧
    (Sample.genesis.after [Sample.opening 0 3000]).world.book.streams.lookup Sample.streamId =
      some (createdStream Sample.site (Sample.terms 0 3000) 10) ∧
    (createdStream Sample.site (Sample.terms 0 3000) 10).status = .active ∧
    (createdStream Sample.site (Sample.terms 0 3000) 10).autoRenew = false ∧
    (Sample.genesis.after [Sample.opening 0 3000]).world.pause.pausedAt 2010 = false ∧
    Storage.getWithdrawalCooldown (Sample.genesis.after [Sample.opening 0 3000]).world = 0 ∧
    (Sample.signed [3] 2010).auths (Sample.party 3) = true ∧ Honours (Sample.signed [3] 2010) ∧
    (getClaimable Sample.streamId (Sample.signed [3] 2010)
      (Sample.genesis.after [Sample.opening 0 3000]).world).value? = some 50000 ∧
    (∃ v, withdraw Sample.streamId (Sample.party 3) (Sample.signed [3] 2010)
      (Sample.genesis.after [Sample.opening 0 3000]).world = .err .streamLocked v) ∧
    ¬Predicts (Sample.signed [3] 2010) (Sample.genesis.after [Sample.opening 0 3000]).world Sample.streamId
      (createdStream Sample.site (Sample.terms 0 3000) 10) := by
  have hshown : (getClaimable Sample.streamId (Sample.signed [3] 2010)
      (Sample.genesis.after [Sample.opening 0 3000]).world).value? = some 50000 := by decide +kernel
  have hrefused : ∃ v, withdraw Sample.streamId (Sample.party 3) (Sample.signed [3] 2010)
      (Sample.genesis.after [Sample.opening 0 3000]).world = .err .streamLocked v := ⟨_, rfl⟩
  refine ⟨reached_after Sample.genesis_fresh (by decide), by decide +kernel, rfl, rfl, by decide +kernel,
    by decide +kernel, by decide, fun _ _ _ _ _ => rfl, hshown, hrefused, ?_⟩
  intro hpredicts
  obtain ⟨v, hv⟩ := hrefused
  obtain ⟨v', hzero⟩ := hpredicts.locked v hv
  rw [hzero] at hshown
  exact absurd (Option.some.inj hshown) (by decide)

end SoroStream
