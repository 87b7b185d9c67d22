import SoroStream.Renewal
import SoroStream.PauseWindow

namespace SoroStream

open Lib Lib.Rollback Lib.Rollback.Prog Lib.Runs Contract

variable {host : Host} {env : Env host} {envs : List (Env host)} {w w' v : World} {c : Chain} {id : StreamId}
  {s : Stream} {recipient : Address} {claim : Int} {now : Nat}

def World.notified (w : World) (env : Env host) (recipient : Address) : World :=
  ((do let _ ← callContract recipient "on_stream_withdraw" halt : Contract host Unit) env w).commit w

theorem notifyRecipient_run (env : Env host) (w : World) (recipient : Address) :
    notifyRecipient recipient env w = .ok () (w.notified env recipient) := rfl

theorem notified_moved (env : Env host) (w : World) (recipient : Address) :
    Moved host [] w (w.notified env recipient) := notifyRecipient_moved (notifyRecipient_run env w recipient)

/-- The world in which a withdrawal settles: the claim is paid and the recipient told. -/
def World.claimed (w : World) (env : Env host) (s : Stream) (claim : Int) : World :=
  if 0 < claim then (w.pay (claimTransfers host w s claim)).notified env s.recipient else w

theorem claimed_moved (env : Env host) (w : World) (s : Stream) (claim : Int) :
    Moved host (claimedTransfers host w s claim) w (w.claimed env s claim) := by
  unfold claimedTransfers World.claimed
  split
  · simpa using (Moved.pay w (claimTransfers host w s claim)).trans (notified_moved env _ s.recipient)
  · exact Moved.refl w

/-- The product of the claim and the fee rate, where a fee is due, has room. -/
def FeeFits (w : World) (recipient : Address) (claim : Int) : Prop :=
  0 < Storage.getProtocolFee w ∧ Storage.isFeeExempt recipient w = false →
    claim * (Storage.getProtocolFee w : Int) ≤ i128Max

instance (w : World) (recipient : Address) (claim : Int) : Decidable (FeeFits w recipient claim) :=
  inferInstanceAs (Decidable (_ → _))

theorem feeAmount_available (hpos : 0 ≤ claim) (hfits : FeeFits w recipient claim) :
    feeAmount recipient claim env w = .ok (feeOf w recipient claim) w := by
  refine feeAmount_ok.mpr ⟨?_, rfl, rfl⟩
  intro hfee
  have hproduct : 0 ≤ claim * (Storage.getProtocolFee w : Int) := Int.mul_nonneg hpos (Int.natCast_nonneg _)
  have hmin : i128Min ≤ 0 := by decide
  have hsome : checkedMulI128 claim (Storage.getProtocolFee w) = some (claim * Storage.getProtocolFee w) :=
    Checked.inRange_of_mem (hmin.trans hproduct) (hfits hfee)
  rw [hsome]
  rfl

/-- The fee is still there when the recipient has its share. -/
theorem fee_held (hfee : FeeBounded w.config) (hpos : 0 ≤ claim) (hheld : claim ≤ w.balances s.token host.contract) :
    feeOf w s.recipient claim ≤
      (w.pay (positive (claimTransfer host s (claim - feeOf w s.recipient claim)))).balances s.token host.contract := by
  obtain ⟨hnonneg, hle⟩ := feeOf_bounds hfee hpos s.recipient
  have hback : 0 ≤ received host.contract s.token
      (positive (claimTransfer host s (claim - feeOf w s.recipient claim))) :=
    received_nonneg fun t ht => amount_nonneg_of_mem_positive ht
  rw [pay_balances, spent_positive, if_pos ⟨rfl, rfl⟩]
  simp only [claimTransfer] at hback ⊢
  omega

theorem payClaim_available (hfee : FeeBounded w.config) (htoken : ∀ t ∈ claimTransfers host w s claim, Passes env t)
    (hpos : 0 ≤ claim) (hheld : claim ≤ w.balances s.token host.contract) (hfits : FeeFits w s.recipient claim) :
    payClaim noHook s claim env w =
      .ok (claim - feeOf w s.recipient claim) (w.pay (claimTransfers host w s claim)) := by
  obtain ⟨hnonneg, hle⟩ := feeOf_bounds hfee hpos s.recipient
  have hrest := fee_held hfee hpos hheld
  have hamount : feeAmount s.recipient claim env w = .ok _ w := feeAmount_available hpos hfits
  refine payClaim_ok.mpr ⟨(feeAmount_ok.mp hamount).1, ?_, ?_, rfl, afterFee_noHook⟩
  · intro hshare
    have hcovers : claim - feeOf w s.recipient claim ≤ w.balances s.token host.contract := by omega
    exact ⟨hshare.le, hcovers, htoken _ (List.mem_append_left _ (self_mem_positive hshare)) _ hshare.le hcovers⟩
  · intro t ht
    have hpasses := htoken t (List.mem_append_right _ ht)
    obtain ⟨hdue, a, -, rfl⟩ := mem_feeTransfers ht
    exact ⟨hdue.le, hrest, hpasses _ hdue.le hrest⟩

theorem claimBlock_available (hfee : FeeBounded w.config) (htoken : ∀ t ∈ claimedTransfers host w s claim, Passes env t)
    (hpos : 0 ≤ claim) (hheld : claim ≤ w.balances s.token host.contract)
    (hcovered : s.totalWithdrawn + claim ≤ s.deposit) (hwithdrawn : 0 ≤ s.totalWithdrawn)
    (hdeposit : s.deposit ≤ i128Max) (hfits : FeeFits w s.recipient claim) :
    claimBlock noHook (fun _ => notifyRecipient s.recipient) s claim env w =
      .ok (s.credit claim) (w.claimed env s claim) := by
  unfold claimBlock World.claimed Stream.credit
  by_cases hdue : 0 < claim
  · have hmin : i128Min ≤ 0 := by decide
    have hcount : checkedAddI128 s.totalWithdrawn claim = some (s.totalWithdrawn + claim) :=
      Checked.inRange_of_mem (by omega) (by omega)
    rw [claimedTransfers, if_pos hdue] at htoken
    have hpaid := payClaim_available hfee htoken hpos hheld hfits
    have hpass : failIf (s.deposit < s.totalWithdrawn + claim) StreamError.overflow env w = .ok () w :=
      failIf_ok.mpr ⟨not_lt.mpr hcovered, rfl⟩
    rw [if_pos hdue, if_pos hdue, if_pos hdue, bind_apply (okOr_ok.mpr ⟨hcount, rfl⟩), bind_apply hpass,
      bind_apply hpaid, bind_apply (notifyRecipient_run env _ s.recipient)]
    rfl
  · rw [if_neg hdue, if_neg hdue, if_neg hdue]
    rfl

theorem payClaim_paid {amount : Int} (h : payClaim noHook s claim env w = .ok amount w') :
    w.pay (claimTransfers host w s claim) = w' := by
  obtain ⟨-, -, -, -, hafter⟩ := payClaim_ok.mp h
  exact (Outcome.ok.inj (afterFee_noHook.symm.trans hafter)).2

theorem claimBlock_claimed {s' : Stream}
    (h : claimBlock noHook (fun _ => notifyRecipient s.recipient) s claim env w = .ok s' w') :
    w.claimed env s claim = w' := by
  obtain ⟨-, ⟨hpos, -, amount, v, hpay, hcall⟩ | ⟨hnone, rfl⟩⟩ := claimBlock_cases h
  · obtain ⟨-, rfl⟩ := Outcome.ok.inj ((notifyRecipient_run env v s.recipient).symm.trans hcall)
    rw [World.claimed, if_pos hpos, payClaim_paid hpay]
  · rw [World.claimed, if_neg hnone]

/-- A withdrawal settles in the world that its claim leaves. -/
theorem withdraw_claimed {u : Unit} (h : withdraw id recipient env w = .ok u w') :
    ∃ s claim out us, s.recipient = recipient ∧
      Withdrawal env (w.awake env.now) true id s claim ((w.awake env.now).claimed env s claim) out us ∧
      Withdrawal.result ((w.awake env.now).claimed env s claim) id s claim env.now out us = w' := by
  obtain ⟨-, hauth, s, claim, w₁, hs, rfl, hactive, hlock, hclaim, hblock, hsettle⟩ := withdraw_parts h
  obtain ⟨out, us, hwd, rfl⟩ := withdrawal_of_block (w := w.awake env.now) hs hauth hactive hlock hclaim hblock
    hsettle
  obtain rfl := claimBlock_claimed hblock
  exact ⟨s, claim, out, us, rfl, hwd, rfl⟩

structure Ready (env : Env host) (w : World) (s : Stream) : Prop where
  signed : env.auths s.recipient = true
  running : w.pause.pausedAt env.now = false
  cooled : Storage.getWithdrawalCooldown w = 0
  active : s.status = .active
  unlocked : s.lockUntil ≤ env.now

theorem withdraw_of_block {w₁ : World} {out : Option Stream} {us : List Transfer}
    (hs : w.book.streams.lookup id = some s) (hready : Ready env w s) (hclaim : claimableAt s env.now = some claim)
    (hblock : claimBlock noHook (fun _ => notifyRecipient s.recipient) s claim env (w.awake env.now) =
      .ok (s.credit claim) w₁)
    (hsettled : Settlement env w₁ env.now true (s.checkpoint claim env.now) out us) :
    withdraw id s.recipient env w = .ok () (Withdrawal.result w₁ id s claim env.now out us) := by
  have hsettle : settleStream true id (s.checkpoint claim env.now) env.now env w₁ =
      .ok () (Withdrawal.result w₁ id s claim env.now out us) := settleStream_ok.mpr ⟨out, us, hsettled, rfl⟩
  have hcool : ¬(0 < Storage.getWithdrawalCooldown w ∧ env.now <
      saturatingAddU64 s.lastWithdrawTime (Storage.getWithdrawalCooldown w)) := by
    rw [hready.cooled]
    exact fun h => absurd h.1 (lt_irrefl 0)
  simp only [withdraw, timestamp, ask, bind_ok, requireRunning_ok, requireAuth_ok, read_ok, okOr_ok, failIf_ok,
    not_not, not_lt, and_assoc, exists_and_left, exists_eq_left', exists_const]
  exact ⟨hready.running, hready.signed, s, hs, rfl, hready.active, hready.unlocked, hcool, claim, hclaim, _, _, hblock,
    hsettle⟩

theorem withdraw_available {out : Option Stream} {us : List Transfer} (hw : Solvent host env.now w)
    (hs : w.book.streams.lookup id = some s) (hready : Ready env w s) (htoken : Honours env)
    (hclaim : claimableAt s env.now = some claim) (hfits : FeeFits w s.recipient claim)
    (hsettled : Settlement env ((w.awake env.now).claimed env s claim) env.now true (s.checkpoint claim env.now) out
      us) :
    withdraw id s.recipient env w =
      .ok () (Withdrawal.result ((w.awake env.now).claimed env s claim) id s claim env.now out us) := by
  obtain ⟨-, hsound⟩ := hw.accounts id s hs
  have hcases : claim = flowed s env.now ∨ claim = 0 := claim_cases (claimableAt_eq hclaim)
  have hpos : 0 ≤ claim := claim_nonneg hsound.toAccounted hcases
  have hle : claim ≤ s.remaining := by
    have hremaining := hsound.toAccounted.remaining_nonneg
    have hflow := hsound.toAccounted.flowed_le_remaining env.now
    rcases hcases with rfl | rfl
    · exact hflow
    · exact hremaining
  have hheld : claim ≤ (w.awake env.now).balances s.token host.contract :=
    hle.trans (hw.remaining_le hs (.inl hready.active))
  have hcovered : s.totalWithdrawn + claim ≤ s.deposit := by
    rw [Stream.remaining] at hle
    omega
  have hpasses : ∀ t ∈ claimedTransfers host (w.awake env.now) s claim, Passes env t :=
    fun t ht => htoken.passes (claimedTransfers_paid t ht)
  exact withdraw_of_block hs hready hclaim (claimBlock_available hw.fees hpasses hpos hheld hcovered
    hsound.withdrawn_nonneg hsound.deposit_max hfits) hsettled

/-- Withdrawals that all succeed, each in a transaction of its own. -/
inductive Withdraws (id : StreamId) (recipient : Address) : List (Env host) → World → World → Prop
  | nil (w : World) : Withdraws id recipient [] w w
  | cons {env : Env host} {envs : List (Env host)} {w v w' : World} (hok : withdraw id recipient env w = .ok () v)
      (hrest : Withdraws id recipient envs v w') : Withdraws id recipient (env :: envs) w w'

/-- Whenever one of the withdrawals comes to a renewal, the sender can pay for it. -/
def Fundable (id : StreamId) (recipient : Address) : List (Env host) → World → Prop
  | [], _ => True
  | env :: envs, w =>
      (∀ s claim, w.book.streams.lookup id = some s → s.endTime ≤ env.now → claimableAt s env.now = some claim →
        Payable env ((w.awake env.now).claimed env s claim) (renewalTransfer host s)) ∧
      Fundable id recipient envs ((withdraw id recipient env w).commit w)

theorem Fundable.cons (claim : Int) (hs : w.book.streams.lookup id = some s)
    (hclaim : claimableAt s env.now = some claim)
    (hpay : s.endTime ≤ env.now → Payable env ((w.awake env.now).claimed env s claim) (renewalTransfer host s))
    (hrest : Fundable id recipient envs ((withdraw id recipient env w).commit w)) :
    Fundable id recipient (env :: envs) w := by
  refine ⟨?_, hrest⟩
  intro r amount hr hend hamount
  obtain rfl := Option.some.inj (hs.symm.trans hr)
  obtain rfl := Option.some.inj (hclaim.symm.trans hamount)
  exact hpay hend

/-- What the withdrawals claim: up to the end of each cycle that has run out, then up to
now in the last. -/
def cycleClaims (now : Nat) : Nat → Stream → List Int
  | 0, s => [s.flowRate * ((now : Int) - s.lastWithdrawTime)]
  | m + 1, s => s.flowRate * ((s.endTime : Int) - s.lastWithdrawTime) :: cycleClaims now m s.renewed

/-- What they move: each claim but the last is followed by a renewal. -/
def cycleTransfers (host : Host) (w : World) (s : Stream) : List Int → List Transfer
  | [] => []
  | [claim] => claimedTransfers host w s claim
  | claim :: claims => claimedTransfers host w s claim ++ renewalTransfer host s :: cycleTransfers host w s claims

theorem cycleClaims_length (now m : Nat) (s : Stream) : (cycleClaims now m s).length = m + 1 := by
  induction m generalizing s with
  | zero => rfl
  | succ m ih => rw [cycleClaims, List.length_cons, ih]

/-- The claims add up: each cycle starts where the one before it ends. -/
theorem cycleClaims_sum (now m : Nat) (s : Stream) :
    (cycleClaims now m s).sum = s.flowRate * ((now : Int) - s.lastWithdrawTime) := by
  induction m generalizing s with
  | zero => rw [cycleClaims, List.sum_cons, List.sum_nil, add_zero]
  | succ m ih =>
      rw [cycleClaims, List.sum_cons, ih]
      change s.flowRate * ((s.endTime : Int) - s.lastWithdrawTime) + s.flowRate * ((now : Int) - s.endTime) = _
      ring

theorem cycleTransfers_cons (w : World) (s : Stream) (claim : Int) {claims : List Int} (h : claims ≠ []) :
    cycleTransfers host w s (claim :: claims) =
      claimedTransfers host w s claim ++ renewalTransfer host s :: cycleTransfers host w s claims := by
  cases claims with
  | nil => exact absurd rfl h
  | cons _ _ => rfl

theorem cycleTransfers_renewals (w : World) (s : Stream) (claims : List Int) :
    ((cycleTransfers host w s claims).filter fun t => t.cause = .renewal s.id).length = claims.length - 1 := by
  have hclaimed : ∀ claim, (claimedTransfers host w s claim).filter (fun t => t.cause = .renewal s.id) = [] := by
    intro claim
    refine List.filter_eq_nil_iff.mpr ?_
    intro t ht hrenewal
    have hpays := of_decide_eq_true (claimedTransfers_paysClaim t ht)
    simp [of_decide_eq_true hrenewal] at hpays
  induction claims with
  | nil => rfl
  | cons claim claims ih =>
      cases claims with
      | nil => rw [cycleTransfers, hclaimed]; rfl
      | cons next claims =>
          rw [cycleTransfers_cons _ _ _ (by simp), List.filter_append, hclaimed, List.nil_append,
            List.filter_cons_of_pos (by simp [renewalTransfer]), List.length_cons, ih]
          simp

structure Behind (host : Host) (id : StreamId) (now m : Nat) (w : World) (s : Stream) : Prop where
  solvent : Solvent host now w
  stored : w.book.streams.lookup id = some s
  active : s.status = .active
  auto : s.autoRenew = true
  long : s.startTime < s.endTime
  cliff : s.cliffTime ≤ now
  unlocked : s.lockUntil ≤ now
  running : w.pause.pausedAt now = false
  cooled : Storage.getWithdrawalCooldown w = 0
  began : s.startTime + m * (s.endTime - s.startTime) ≤ now
  ends : now < s.startTime + (m + 1) * (s.endTime - s.startTime)
  fits : s.startTime + (m + 1) * (s.endTime - s.startTime) ≤ u64Max
  fees : ∀ claim ∈ cycleClaims now m s, FeeFits w s.recipient claim

structure Signed (env : Env host) (now : Nat) (s : Stream) : Prop where
  now_eq : env.now = now
  recipient : env.auths s.recipient = true
  sender : env.auths s.sender = true
  honoured : Honours env

theorem withdraw_frame (hw : Solvent host env.now w) (h : withdraw id recipient env w = .ok () w') :
    Solvent host env.now w' ∧ w'.config = w.config ∧ w'.pause = w.pause.settle env.now := by
  obtain ⟨-, r, claim, w₁, out, us, -, hwd, rfl⟩ := withdraw_ok h
  have hacted := withdrawal_acted hwd
  have hconfig : _ = (w.awake env.now).config := acted_config hacted
  exact ⟨acted_solvent (w := w.awake env.now) hacted ⟨hw.accounts, hw.fees, hw.covered⟩, hconfig, hwd.paid.pause⟩

namespace Behind

variable {m : Nat}

theorem ready (h : Behind host id now m w s) (henv : Signed env now s) : Ready env w s := by
  obtain rfl := henv.now_eq
  exact ⟨henv.recipient, h.running, h.cooled, h.active, h.unlocked⟩

theorem ended (h : Behind host id now (m + 1) w s) : s.endTime ≤ now := by
  have hbegan := h.began
  have hcycles : (m + 1) * (s.endTime - s.startTime) = m * (s.endTime - s.startTime) + (s.endTime - s.startTime) :=
    Nat.succ_mul m _
  omega

theorem checkpoint_le (h : Behind host id now m w s) : s.lastWithdrawTime ≤ now :=
  (h.solvent.accounts id s h.stored).2.active h.active

theorem claimable (h : Behind host id now m w s) :
    claimableAt s now = some (s.flowRate * (((min now s.endTime : Nat) : Int) - s.lastWithdrawTime)) := by
  have hsound := (h.solvent.accounts id s h.stored).2
  rw [hsound.claimableAt_eq_some, if_pos h.cliff, flowed_eq hsound.toAccounted h.checkpoint_le]

/-- The cycle after one that ran out is one renewal less behind. -/
theorem next (h : Behind host id now (m + 1) w s) (hsolvent : Solvent host now w')
    (hstored : w'.book.streams.lookup id = some s.renewed) (hconfig : w'.config = w.config)
    (hpause : w'.pause = w.pause.settle now) : Behind host id now m w' s.renewed := by
  have hlong := h.long
  have hlength : s.renewed.endTime - s.renewed.startTime = s.endTime - s.startTime := Nat.add_sub_cancel_left ..
  have hcycles : (m + 1) * (s.endTime - s.startTime) = m * (s.endTime - s.startTime) + (s.endTime - s.startTime) :=
    Nat.succ_mul m _
  have hcycles' : (m + 1 + 1) * (s.endTime - s.startTime) =
      (m + 1) * (s.endTime - s.startTime) + (s.endTime - s.startTime) := Nat.succ_mul (m + 1) _
  have hbegan := h.began
  have hends := h.ends
  have hfits := h.fits
  have hstart : s.renewed.startTime = s.endTime := rfl
  refine ⟨hsolvent, hstored, h.active, h.auto, by omega, h.cliff, h.unlocked, ?_, ?_, ?_, ?_, ?_, ?_⟩
  · rw [hpause, settle_pausedAt le_rfl]
    exact h.running
  · rw [Storage.getWithdrawalCooldown, hconfig]
    exact h.cooled
  · rw [hlength, hstart]
    omega
  · rw [hlength, hstart]
    omega
  · rw [hlength, hstart]
    omega
  · intro claim hclaim hfee
    rw [Storage.getProtocolFee, Storage.isFeeExempt, hconfig] at hfee
    rw [Storage.getProtocolFee, hconfig]
    exact h.fees claim (List.mem_cons_of_mem _ hclaim) hfee

theorem renews (h : Behind host id now (m + 1) w s) (henv : Signed env now s)
    (hpay : ∀ claim, claimableAt s env.now = some claim →
      Payable env ((w.awake env.now).claimed env s claim) (renewalTransfer host s)) :
    ∃ w', withdraw id s.recipient env w = .ok () w' ∧ Behind host id now m w' s.renewed ∧ w'.config = w.config ∧
      w'.log = w.log ++ (claimedTransfers host w s (s.flowRate * ((s.endTime : Int) - s.lastWithdrawTime)) ++
        [renewalTransfer host s]) := by
  obtain rfl := henv.now_eq
  have hid := (h.solvent.accounts id s h.stored).1
  have hlong := h.long
  have hfits := h.fits
  have hcycles : (m + 1 + 1) * (s.endTime - s.startTime) =
      m * (s.endTime - s.startTime) + (s.endTime - s.startTime) + (s.endTime - s.startTime) := by
    rw [Nat.succ_mul, Nat.succ_mul]
  have hclaim := h.claimable
  rw [min_eq_right h.ended] at hclaim
  let claim := s.flowRate * ((s.endTime : Int) - s.lastWithdrawTime)
  have hfunds := hpay claim hclaim
  have hsettled : Settlement env ((w.awake env.now).claimed env s claim) env.now true (s.checkpoint claim env.now)
      (some (s.checkpoint claim env.now).renewed) [renewalTransfer host (s.checkpoint claim env.now)] :=
    .renewed h.ended hlong.le h.auto (fun _ => hfunds.2.1) henv.sender hfunds (by
      change s.endTime + (s.endTime - s.startTime) ≤ u64Max
      omega)
  have hok := withdraw_available h.solvent h.stored (h.ready henv) henv.honoured hclaim
    (h.fees claim (List.mem_cons_self ..)) hsettled
  have hmoved := claimed_moved env (w.awake env.now) s claim
  obtain ⟨hsolvent, hconfig, hpause⟩ := withdraw_frame h.solvent hok
  refine ⟨_, hok, h.next hsolvent ?_ hconfig hpause, hconfig, ?_⟩
  · exact hsettled.lookup hid _
  · rw [Withdrawal.result, withBook_log, pay_log, hmoved.log, List.append_assoc]
    rfl

theorem settles (h : Behind host id now 0 w s) (henv : Signed env now s) :
    ∃ w', withdraw id s.recipient env w = .ok () w' ∧ Solvent host now w' ∧ w'.config = w.config ∧
      w'.pause = w.pause.settle now ∧
      w'.book.streams.lookup id = some (s.checkpoint (s.flowRate * ((now : Int) - s.lastWithdrawTime)) now) ∧
      w'.log = w.log ++ claimedTransfers host w s (s.flowRate * ((now : Int) - s.lastWithdrawTime)) := by
  obtain rfl := henv.now_eq
  have hid := (h.solvent.accounts id s h.stored).1
  have hlong := h.long
  have hends := h.ends
  rw [Nat.zero_add, Nat.one_mul] at hends
  have hbefore : env.now < s.endTime := by omega
  have hclaim := h.claimable
  rw [min_eq_left hbefore.le] at hclaim
  let claim := s.flowRate * ((env.now : Int) - s.lastWithdrawTime)
  have hsettled : Settlement env ((w.awake env.now).claimed env s claim) env.now true (s.checkpoint claim env.now)
      (some (s.checkpoint claim env.now)) [] := .running hbefore
  have hok := withdraw_available h.solvent h.stored (h.ready henv) henv.honoured hclaim
    (h.fees claim (List.mem_cons_self ..)) hsettled
  have hmoved := claimed_moved env (w.awake env.now) s claim
  obtain ⟨hsolvent, hconfig, hpause⟩ := withdraw_frame h.solvent hok
  refine ⟨_, hok, hsolvent, hconfig, hpause, ?_, ?_⟩
  · exact hsettled.lookup hid _
  · rw [Withdrawal.result, withBook_log, pay_nil, hmoved.log]
    rfl

end Behind

structure CaughtUp (id : StreamId) (now : Nat) (w : World) (q : Stream) : Prop where
  stored : w.book.streams.lookup id = some q
  own : q.id = id
  active : q.status = .active
  claimed : q.lastWithdrawTime = now
  ends : now < q.endTime
  unlocked : q.lockUntil ≤ now
  running : w.pause.pausedAt now = false
  awake : w.pause.settle now = w.pause
  cooled : Storage.getWithdrawalCooldown w = 0

theorem CaughtUp.withdraw_again {q : Stream} (h : CaughtUp id env.now w q) (hauth : env.auths q.recipient = true) :
    claimableAt q env.now = some 0 ∧ withdraw id q.recipient env w = .ok () w := by
  have hnone : claimableAt q env.now = some 0 := by
    simp only [claimableAt, VestingMath.computeClaimable, if_lt_eq_min, min_eq_left h.ends.le, h.claimed,
      Nat.sub_self, Nat.cast_zero]
    split
    · rfl
    · rw [checkedMulI128, mul_zero]
      rfl
  have hsame : q.checkpoint 0 env.now = q := by
    have hclaimed := h.claimed
    simp only [Stream.checkpoint, Stream.credit, lt_irrefl, if_false, min_eq_left h.ends.le]
    rw [← hclaimed]
  have hblock : claimBlock noHook (fun _ => notifyRecipient q.recipient) q 0 env (w.awake env.now) =
      .ok (q.credit 0) (w.awake env.now) := by
    rw [claimBlock, if_neg (lt_irrefl 0)]
    rfl
  have hok := withdraw_of_block h.stored ⟨hauth, h.running, h.cooled, h.active, h.unlocked⟩ hnone hblock
    (.running h.ends)
  refine ⟨hnone, ?_⟩
  rw [hok, Withdrawal.result, hsame, pay_nil]
  have hbook : w.book.save q = w.book := by
    rw [Book.save, h.own, Escrow.insert_of_lookup h.stored]
  have hawake : w.awake env.now = w := by rw [World.awake, h.awake]
  rw [hawake, Book.settle, hbook]
  rfl

def Stream.caughtUp (s : Stream) (now m : Nat) : Stream :=
  { s with
    startTime := s.startTime + m * (s.endTime - s.startTime)
    endTime := s.startTime + (m + 1) * (s.endTime - s.startTime)
    lastWithdrawTime := now
    totalWithdrawn := s.flowRate * ((now : Int) - (s.startTime + m * (s.endTime - s.startTime) : Nat)) }

theorem renewed_caughtUp (hlong : s.startTime < s.endTime) (now m : Nat) :
    s.renewed.caughtUp now m = s.caughtUp now (m + 1) := by
  have hlength : s.endTime + (s.endTime - s.startTime) - s.endTime = s.endTime - s.startTime :=
    Nat.add_sub_cancel_left ..
  have hstart : s.endTime + m * (s.endTime - s.startTime) = s.startTime + (m + 1) * (s.endTime - s.startTime) := by
    rw [Nat.succ_mul]
    omega
  have hend : s.endTime + (m + 1) * (s.endTime - s.startTime) =
      s.startTime + (m + 1 + 1) * (s.endTime - s.startTime) := by
    rw [Nat.succ_mul (m + 1)]
    omega
  simp only [Stream.caughtUp, Stream.renewed, hlength, hstart, hend]

theorem Behind.caughtUp {m : Nat} (h : Behind host id now m w s) {v : World} (hpause : v.pause = w.pause.settle now)
    (hconfig : v.config = w.config) (hs : v.book.streams.lookup id = some (s.caughtUp now m)) :
    CaughtUp id now v (s.caughtUp now m) := by
  refine ⟨hs, (h.solvent.accounts id s h.stored).1, h.active, rfl, h.ends, h.unlocked, ?_, ?_, ?_⟩
  · rw [hpause, settle_pausedAt le_rfl]
    exact h.running
  · rw [hpause, settle_settle]
  · rw [Storage.getWithdrawalCooldown, hconfig]
    exact h.cooled

theorem checkpoint_caughtUp (hcounted : s.Unforfeited) (hlong : s.startTime < s.endTime)
    (hmark : s.lastWithdrawTime ≤ now) (hend : now < s.endTime) (hrate : 1 ≤ s.flowRate) :
    s.checkpoint (s.flowRate * ((now : Int) - s.lastWithdrawTime)) now = s.caughtUp now 0 := by
  have hpos : 0 ≤ s.flowRate * ((now : Int) - s.lastWithdrawTime) := Int.mul_nonneg (by omega) (by omega)
  have htotal := checkpoint_total hpos s now
  have hflow : s.totalWithdrawn + s.flowRate * ((now : Int) - s.lastWithdrawTime) =
      s.flowRate * ((now : Int) - s.startTime) := by
    rw [hcounted]
    ring
  rw [hflow] at htotal
  have hstart : s.startTime + 0 * (s.endTime - s.startTime) = s.startTime := by omega
  have hstop : s.startTime + (0 + 1) * (s.endTime - s.startTime) = s.endTime := by omega
  simp only [Stream.caughtUp, hstart, hstop, ← htotal]
  simp only [Stream.checkpoint, Stream.credit, min_eq_left hend.le]

/-- Transfers of a cycle look at nothing that a renewal changes. -/
theorem cycleTransfers_renewed {claims : List Int} (hconfig : v.config = w.config) :
    cycleTransfers host v s.renewed claims = cycleTransfers host w s claims := by
  have hclaimed : ∀ claim, claimedTransfers host v s.renewed claim = claimedTransfers host w s claim :=
    fun claim => (claimedTransfers_config (s := s.renewed) hconfig).trans rfl
  induction claims with
  | nil => rfl
  | cons claim claims ih =>
      cases claims with
      | nil => exact hclaimed claim
      | cons next claims =>
          have hmore : next :: claims ≠ [] := List.cons_ne_nil next claims
          rw [cycleTransfers_cons v _ claim hmore, cycleTransfers_cons w _ claim hmore, ih, hclaimed]
          rfl

/-- The run: every withdrawal but the last renews, and leaves one renewal less to do. -/
theorem Behind.run {m : Nat} (h : Behind host id now m w s) (hcounted : m = 0 → s.Unforfeited)
    (hlength : envs.length = m + 1) (henvs : ∀ env ∈ envs, Signed env now s) (hfunds : Fundable id s.recipient envs w) :
    ∃ w', Withdraws id s.recipient envs w w' ∧ w'.log = w.log ++ cycleTransfers host w s (cycleClaims now m s) ∧
      CaughtUp id now w' (s.caughtUp now m) := by
  induction m generalizing w s envs with
  | zero =>
      obtain ⟨env, rfl⟩ := List.length_eq_one_iff.mp hlength
      obtain ⟨w', hok, -, hconfig, hpause, hstored, hlog⟩ := h.settles (henvs env (List.mem_singleton_self env))
      refine ⟨w', .cons hok (.nil w'), hlog, h.caughtUp hpause hconfig (hstored.trans ?_)⟩
      have hends := h.ends
      have hlong := h.long
      rw [Nat.zero_add, Nat.one_mul] at hends
      rw [checkpoint_caughtUp (hcounted rfl) hlong h.checkpoint_le (by omega) (h.solvent.accounts id s h.stored).2.rate]
  | succ m ih =>
      obtain ⟨env, rest, rfl⟩ := List.exists_cons_of_length_eq_add_one hlength
      have hsigned := henvs env (List.mem_cons_self ..)
      have hnow := hsigned.now_eq
      obtain ⟨hpay, hlater⟩ := hfunds
      obtain ⟨v, hok, hnext, hconfig, hlog⟩ :=
        h.renews hsigned fun claim hclaim => hpay s claim h.stored (hnow ▸ h.ended) hclaim
      rw [hok, Outcome.commit_ok] at hlater
      have hrest : ∀ env ∈ rest, Signed env now s.renewed := by
        intro env henv
        have hboth := henvs env (List.mem_cons_of_mem _ henv)
        exact ⟨hboth.now_eq, hboth.recipient, hboth.sender, hboth.honoured⟩
      have hfresh : s.renewed.Unforfeited := by simp [Stream.Unforfeited, Stream.renewed]
      obtain ⟨w', hwithdraws, hlog', hcaught⟩ := ih hnext (fun _ => hfresh) (Nat.succ.inj hlength) hrest hlater
      rw [renewed_caughtUp h.long] at hcaught
      refine ⟨w', .cons hok hwithdraws, ?_, hcaught⟩
      have hclaims : cycleClaims now m s.renewed ≠ [] := by
        rw [← List.length_pos_iff, cycleClaims_length]
        omega
      rw [hlog', hlog, cycleTransfers_renewed hconfig, cycleClaims, cycleTransfers_cons _ _ _ hclaims]
      simp only [List.append_assoc, List.singleton_append]

/-- An auto-renewing stream that is `m` cycles behind catches up in `m + 1` withdrawals. -/
theorem renewal_catch_up (h : Reached host c) (hs : c.world.book.streams.lookup id = some s)
    (hactive : s.status = .active) (hauto : s.autoRenew = true) (hlong : s.startTime < s.endTime)
    (hnow : c.now ≤ now) (hend : s.endTime ≤ now) (hlock : s.lockUntil ≤ now)
    (hrun : c.world.pause.pausedAt now = false)
    (hcool : Storage.getWithdrawalCooldown c.world = 0) {m : Nat}
    (hm : m = (now - s.startTime) / (s.endTime - s.startTime)) (hlength : envs.length = m + 1)
    (henvs : ∀ env ∈ envs, Signed env now s) (hfunds : Fundable id s.recipient envs c.world)
    (hfits : s.startTime + (m + 1) * (s.endTime - s.startTime) ≤ u64Max)
    (hfees : ∀ claim ∈ cycleClaims now m s, FeeFits c.world s.recipient claim) :
    ∃ w' ts q, Withdraws id s.recipient envs c.world w' ∧ w'.log = c.world.log ++ ts ∧
      ts = cycleTransfers host c.world s (cycleClaims now m s) ∧
      (ts.filter fun t => t.cause = .renewal id).length = m ∧
      (cycleClaims now m s).sum = s.flowRate * ((now : Int) - s.lastWithdrawTime) ∧
      w'.book.streams.lookup id = some q ∧
      q = { s with
        startTime := s.startTime + m * (s.endTime - s.startTime)
        endTime := s.startTime + (m + 1) * (s.endTime - s.startTime)
        lastWithdrawTime := now
        totalWithdrawn := s.flowRate * ((now : Int) - (s.startTime + m * (s.endTime - s.startTime) : Nat)) } ∧
      ∀ env : Env host, env.now = now → env.auths s.recipient = true →
        claimableAt q now = some 0 ∧ withdraw id s.recipient env w' = .ok () w' := by
  have hsolvent := aside_solvent hnow (.refl _) (reached_solvent h)
  obtain ⟨hid, hsound⟩ := hsolvent.accounts id s hs
  have hlength' : 0 < s.endTime - s.startTime := by omega
  have hbegan : m * (s.endTime - s.startTime) ≤ now - s.startTime := hm ▸ Nat.div_mul_le_self _ _
  have hends : now - s.startTime < (m + 1) * (s.endTime - s.startTime) := by
    rw [hm, Nat.mul_comm]
    exact Nat.lt_mul_div_succ _ hlength'
  have hpos : m ≠ 0 := by
    have hone : 1 ≤ m := hm ▸ (Nat.one_le_div_iff hlength').mpr (by omega)
    omega
  have hbehind : Behind host id now m c.world s :=
    ⟨hsolvent, hs, hactive, hauto, hlong, hsound.cliff.trans hend, hlock, hrun, hcool, by omega, by omega, hfits, hfees⟩
  obtain ⟨w', hwithdraws, hlog, hcaught⟩ := hbehind.run (fun hzero => absurd hzero hpos) hlength henvs hfunds
  refine ⟨w', _, _, hwithdraws, hlog, rfl, ?_, cycleClaims_sum now m s, hcaught.stored, rfl, ?_⟩
  · rw [← hid, cycleTransfers_renewals, cycleClaims_length, Nat.add_sub_cancel]
  · rintro env rfl hauth
    exact hcaught.withdraw_again hauth

namespace Sample

def both (time : U64) : Env site := signed [2, 3] time

theorem both_signed (time : U64) (amount : I128) : Signed (both time) time.val (recurringStream amount) :=
  ⟨rfl, rfl, rfl, fun _ _ _ _ _ => rfl⟩

def afterBoth (time : U64) (w : World) : World := (withdraw streamId (party 3) (both time) w).commit w

/-- Holders with more than an i128 product of theirs and the fee rate can hold. -/
def rich : Chain :=
  { genesis with world := { genesis.world with balances := fun _ a => if a.raw ≤ 1 then 0 else 2 ^ 126 } }

theorem rich_fresh : Fresh site rich :=
  ⟨rfl, rfl, rfl, rfl, rfl, by decide, fun _ => by simp [rich, site, party]⟩

def vast : I128 := ⟨4000 * 2 ^ 110, by decide⟩

def overflowing : Chain := rich.after [configure [4] 5 (.setProtocolFee 1000), recurring vast]

end Sample

theorem sample_renewal_catch_up :
    let s := Sample.recurringStream ⟨100000, by decide⟩
    let w := (Sample.recurs ⟨100000, by decide⟩).world
    ∃ w' ts q, Withdraws Sample.streamId s.recipient [Sample.both 8510, Sample.both 8510, Sample.both 8510] w w' ∧
      w'.log = w.log ++ ts ∧ ts = cycleTransfers Sample.site w s (cycleClaims 8510 2 s) ∧
      (ts.filter fun t => t.cause = .renewal Sample.streamId).length = 2 ∧
      (cycleClaims 8510 2 s).sum = s.flowRate * (((8510 : Nat) : Int) - s.lastWithdrawTime) ∧
      w'.book.streams.lookup Sample.streamId = some q ∧
      q = { s with
        startTime := s.startTime + 2 * (s.endTime - s.startTime)
        endTime := s.startTime + (2 + 1) * (s.endTime - s.startTime)
        lastWithdrawTime := 8510
        totalWithdrawn := s.flowRate * (((8510 : Nat) : Int) - (s.startTime + 2 * (s.endTime - s.startTime) : Nat)) } ∧
      ∀ env : Env Sample.site, env.now = 8510 → env.auths s.recipient = true →
        claimableAt q 8510 = some 0 ∧ withdraw Sample.streamId s.recipient env w' = .ok () w' := by
  intro s w
  have hreached : Reached Sample.site (Sample.recurs ⟨100000, by decide⟩) := Sample.recurs_reached _
  have hstored : w.book.streams.lookup Sample.streamId = some s := by decide +kernel
  have hsecond : (Sample.afterBoth 8510 w).book.streams.lookup Sample.streamId = some s.renewed := by decide +kernel
  have hthird : (Sample.afterBoth 8510 (Sample.afterBoth 8510 w)).book.streams.lookup Sample.streamId =
      some s.renewed.renewed := by decide +kernel
  have hfunds : Fundable Sample.streamId (Sample.party 3) [Sample.both 8510, Sample.both 8510, Sample.both 8510] w := by
    refine .cons 100000 hstored (by decide) (fun _ => by decide +kernel) ?_
    change Fundable _ _ _ (Sample.afterBoth 8510 w)
    refine .cons 100000 hsecond (by decide) (fun _ => by decide +kernel) ?_
    change Fundable _ _ _ (Sample.afterBoth 8510 (Sample.afterBoth 8510 w))
    exact .cons 12500 hthird (by decide) (fun h => absurd h (by decide)) trivial
  have hsigned : ∀ env ∈ [Sample.both 8510, Sample.both 8510, Sample.both 8510], Signed env 8510 s := by
    intro env henv
    obtain rfl : env = Sample.both 8510 := by simpa using henv
    exact Sample.both_signed 8510 _
  have hfees : ∀ claim ∈ cycleClaims 8510 2 s, FeeFits w s.recipient claim := by decide +kernel
  have hrun : w.pause.pausedAt 8510 = false := by decide +kernel
  have hcool : Storage.getWithdrawalCooldown w = 0 := by decide +kernel
  have hm : 2 = (8510 - s.startTime) / (s.endTime - s.startTime) := by decide +kernel
  have hfits : s.startTime + (2 + 1) * (s.endTime - s.startTime) ≤ u64Max := by decide +kernel
  exact renewal_catch_up hreached hstored rfl rfl (by decide) (by decide) (by decide) (by decide) hrun hcool hm rfl
    hsigned hfunds hfits hfees

theorem catch_up_stops_at_fee :
    Reached Sample.site Sample.overflowing ∧
    Sample.overflowing.world.book.streams.lookup Sample.streamId = some (Sample.recurringStream Sample.vast) ∧
    (Sample.recurringStream Sample.vast).endTime = 4010 ∧
    Sample.overflowing.world.pause.pausedAt 4010 = false ∧ Storage.getWithdrawalCooldown Sample.overflowing.world = 0 ∧
    Signed (Sample.both 4010) 4010 (Sample.recurringStream Sample.vast) ∧
    Fundable Sample.streamId (Sample.party 3) [Sample.both 4010, Sample.both 4010] Sample.overflowing.world ∧
    (withdraw Sample.streamId (Sample.party 3) (Sample.both 4010) Sample.overflowing.world).value? = none := by
  have hstored : Sample.overflowing.world.book.streams.lookup Sample.streamId =
      some (Sample.recurringStream Sample.vast) := by
    decide +kernel
  have hrefused : (withdraw Sample.streamId (Sample.party 3) (Sample.both 4010) Sample.overflowing.world).value? =
      none := by
    decide +kernel
  refine ⟨reached_after Sample.rich_fresh (by decide), hstored, rfl, by decide +kernel, by decide +kernel,
    Sample.both_signed 4010 Sample.vast, ?_, hrefused⟩
  have hsame : (withdraw Sample.streamId (Sample.party 3) (Sample.both 4010) Sample.overflowing.world).commit
      Sample.overflowing.world = Sample.overflowing.world := Outcome.commit_of_value?_none hrefused _
  have hclaim : claimableAt (Sample.recurringStream Sample.vast) 4010 = some (4000 * 2 ^ 110) := by decide +kernel
  have hpay : Payable (Sample.both 4010) ((Sample.overflowing.world.awake 4010).claimed (Sample.both 4010)
      (Sample.recurringStream Sample.vast) (4000 * 2 ^ 110))
      (renewalTransfer Sample.site (Sample.recurringStream Sample.vast)) := by
    decide +kernel
  refine .cons _ hstored hclaim (fun _ => hpay) ?_
  rw [hsame]
  exact .cons _ hstored hclaim (fun _ => hpay) trivial

end SoroStream
