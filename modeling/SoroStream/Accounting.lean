import SoroStream.Frame
import Mathlib.Tactic.Ring

namespace SoroStream

open Lib Lib.Rollback Lib.Rollback.Prog Lib.Runs Contract

variable {host : Host} {env : Env host} {w w' : World} {id : StreamId} {s : Stream} {now now' : Nat}
  {claim amount : Int} {t : Nat} {made : List Stream}

structure Accounted (now : Nat) (s : Stream) : Prop where
  rate : 1 ≤ s.flowRate
  started : s.startTime ≤ s.lastWithdrawTime
  stopped : s.lastWithdrawTime ≤ s.endTime
  cliff : s.cliffTime ≤ s.endTime
  funded : s.flowRate * ((s.endTime : Int) - s.startTime) ≤ s.deposit
  withdrawn_nonneg : 0 ≤ s.totalWithdrawn
  withdrawn_le : s.totalWithdrawn ≤ s.flowRate * ((s.lastWithdrawTime : Int) - s.startTime)
  active : s.status = .active → s.lastWithdrawTime ≤ now
  paused : s.status = .paused → s.lastWithdrawTime ≤ s.lastPauseTime ∧ s.lastPauseTime ≤ now

structure Sound (now : Nat) (s : Stream) : Prop extends Accounted now s where
  deposit_max : s.deposit ≤ i128Max
  endTime_max : s.endTime ≤ u64Max
  lock_max : s.lockUntil ≤ u64Max

def flowed (s : Stream) (t : Nat) : Int := s.flowRate * ((min t s.endTime - s.lastWithdrawTime : Nat) : Int)

theorem flow_mono (hrate : 1 ≤ s.flowRate) {a b : Int} (h : a ≤ b) : s.flowRate * a ≤ s.flowRate * b :=
  mul_le_mul_of_nonneg_left h (by omega)

theorem if_lt_eq_min (a b : Nat) : (if a < b then a else b) = min a b := by
  by_cases h : a < b
  · rw [if_pos h, min_eq_left h.le]
  · rw [if_neg h, min_eq_right (not_lt.mp h)]

theorem earnedAt_eq (h : earnedAt s t = some amount) : amount = flowed s t := by
  simp only [earnedAt, VestingMath.computeEarned, if_lt_eq_min] at h
  exact (Checked.inRange_eq_some.mp h).2.symm

theorem claimableAt_eq (h : claimableAt s t = some amount) :
    amount = if t < s.cliffTime then 0 else flowed s t := by
  simp only [claimableAt, VestingMath.computeClaimable, if_lt_eq_min] at h
  split at h
  · next hc => rw [if_pos hc]; exact (Option.some.inj h).symm
  · next hc => rw [if_neg hc]; exact (Checked.inRange_eq_some.mp h).2.symm

theorem flowed_nonneg (hrate : 1 ≤ s.flowRate) (t : Nat) : 0 ≤ flowed s t :=
  Int.mul_nonneg (by omega) (Int.natCast_nonneg _)

theorem Accounted.flowed_le (h : Accounted now s) (t : Nat) :
    s.totalWithdrawn + flowed s t ≤ s.flowRate * ((s.endTime : Int) - s.startTime) := by
  have hstop := h.stopped
  have hcap : ((min t s.endTime - s.lastWithdrawTime : Nat) : Int) ≤ s.endTime - s.lastWithdrawTime := by omega
  calc s.totalWithdrawn + flowed s t
      ≤ s.flowRate * ((s.lastWithdrawTime : Int) - s.startTime) +
          s.flowRate * ((s.endTime : Int) - s.lastWithdrawTime) :=
        add_le_add h.withdrawn_le (flow_mono h.rate hcap)
    _ = s.flowRate * ((s.endTime : Int) - s.startTime) := by ring

theorem Accounted.flowed_le_remaining (h : Accounted now s) (t : Nat) : flowed s t ≤ s.remaining := by
  have hflow := h.flowed_le t
  have hfund := h.funded
  simp only [Stream.remaining]
  omega

theorem Accounted.remaining_nonneg (h : Accounted now s) : 0 ≤ s.remaining :=
  (flowed_nonneg h.rate 0).trans (h.flowed_le_remaining 0)

theorem Accounted.deposit_nonneg (h : Accounted now s) : 0 ≤ s.deposit := by
  have hremaining := h.remaining_nonneg
  have hwithdrawn := h.withdrawn_nonneg
  simp only [Stream.remaining] at hremaining
  omega

theorem claim_cases {c : Prop} [Decidable c] (h : amount = if c then 0 else flowed s t) :
    amount = flowed s t ∨ amount = 0 := by
  split at h
  · exact .inr h
  · exact .inl h

theorem share_cases (h : earnedAt s t = some amount ∨ claimableAt s t = some amount) :
    amount = flowed s t ∨ amount = 0 := by
  rcases h with h | h
  · exact .inl (earnedAt_eq h)
  · exact claim_cases (claimableAt_eq h)

theorem claimFor_cases {single : Bool} (h : claimFor single s t = some amount) :
    amount = flowed s t ∨ amount = 0 := by
  cases single with
  | true => exact share_cases (.inr h)
  | false => exact share_cases (.inl h)

theorem handOverClaim_cases (h : handOverClaim s t = some amount) : amount = flowed s t ∨ amount = 0 := by
  unfold handOverClaim at h
  split at h
  · exact share_cases (.inr h)
  · exact .inr (Option.some.inj h).symm

theorem clock_of_active (ha : s.status = .active) (now : Nat) : s.clock now = now := by simp [Stream.clock, ha]

theorem clock_of_paused (hp : s.status = .paused) (now : Nat) : s.clock now = s.lastPauseTime := by
  simp [Stream.clock, hp]

namespace Sound

theorem mono (h : Sound now s) (hnow : now ≤ now') : Sound now' s :=
  { h with
    active := fun ha => (h.active ha).trans hnow
    paused := fun hp => ⟨(h.paused hp).1, (h.paused hp).2.trans hnow⟩ }

/-- The clock of a live stream is between its checkpoint and the ledger time. -/
theorem clock (h : Sound now s) (hlive : s.Live) :
    s.lastWithdrawTime ≤ s.clock now ∧ s.clock now ≤ now := by
  rcases hlive with ha | hp
  · rw [clock_of_active ha]
    exact ⟨h.active ha, le_rfl⟩
  · rw [clock_of_paused hp]
    exact h.paused hp

theorem checkpoint (h : Sound now s) (hbefore : s.lastWithdrawTime ≤ t)
    (hactive : s.status = .active → t ≤ now) (hpaused : s.status = .paused → t ≤ s.lastPauseTime)
    (hclaim : amount = flowed s t ∨ amount = 0) : Sound now (s.checkpoint amount t) := by
  have hstop := h.stopped
  have hmin : s.lastWithdrawTime ≤ min t s.endTime := le_min hbefore hstop
  have hpos : 0 ≤ amount := by
    rcases hclaim with rfl | rfl
    · exact flowed_nonneg h.rate t
    · exact le_rfl
  have hle : amount ≤ s.flowRate * ((min t s.endTime : Nat) - (s.lastWithdrawTime : Int)) := by
    rcases hclaim with rfl | rfl
    · exact flow_mono h.rate (by omega)
    · exact Int.mul_nonneg (by have := h.rate; omega) (by omega)
  have htotal : (s.checkpoint amount t).totalWithdrawn = s.totalWithdrawn + amount := by
    simp only [Stream.checkpoint, Stream.credit]
    split <;> omega
  refine { h with
    started := h.started.trans hmin
    stopped := min_le_right _ _
    withdrawn_nonneg := ?_
    withdrawn_le := ?_
    active := fun ha => (min_le_left _ _).trans (hactive ha)
    paused := fun hp => ⟨(min_le_left _ _).trans (hpaused hp), (h.paused hp).2⟩ }
  · rw [htotal]
    have := h.withdrawn_nonneg
    omega
  · rw [htotal]
    calc s.totalWithdrawn + amount
        ≤ s.flowRate * ((s.lastWithdrawTime : Int) - s.startTime) +
            s.flowRate * ((min t s.endTime : Nat) - (s.lastWithdrawTime : Int)) :=
          add_le_add h.withdrawn_le hle
      _ = s.flowRate * (((min t s.endTime : Nat) : Int) - s.startTime) := by ring

theorem renewed (h : Sound now s) (hend : s.endTime ≤ now) (hstatus : s.status = .active)
    (hnew : s.endTime + (s.endTime - s.startTime) ≤ u64Max) : Sound now s.renewed := by
  have horder := h.started.trans h.stopped
  refine { h with
    started := le_rfl
    stopped := Nat.le_add_right _ _
    cliff := h.cliff.trans (Nat.le_add_right _ _)
    funded := ?_
    withdrawn_nonneg := le_rfl
    withdrawn_le := ?_
    active := fun _ => hend
    paused := fun hp => absurd (hstatus.symm.trans hp) (by simp)
    endTime_max := hnew }
  · have hlen : ((s.endTime + (s.endTime - s.startTime) : Nat) : Int) - s.endTime =
        s.endTime - s.startTime := by omega
    simp only [Stream.renewed, hlen]
    exact h.funded
  · simp [Stream.renewed]

theorem withStatus (h : Sound now s) (status : StreamStatus) (ha : status ≠ .active)
    (hp : status ≠ .paused) : Sound now { s with status := status } :=
  { h with
    active := fun h => absurd h ha
    paused := fun h => absurd h hp }

theorem amended (h : Sound now s) (metadata : List UInt8) (autoRenew : Bool) :
    Sound now { s with metadata, autoRenew } :=
  { h with }

theorem withRecipient (h : Sound now s) (recipient : Address) : Sound now { s with recipient := recipient } :=
  { h with }

theorem paused_at (h : Sound now s) (hactive : s.status = .active) :
    Sound now { s with status := .paused, lastPauseTime := now } :=
  { h with
    active := fun h => absurd h (by simp)
    paused := fun _ => ⟨h.active hactive, le_rfl⟩ }

/-- The checkpoint is not later than the pause, so shifting it does not saturate;
the end may saturate, which only shortens the stream. -/
theorem resumed (h : Sound now s) (hpaused : s.status = .paused) (hnow : now ≤ u64Max) :
    Sound now (resumed s (now - s.lastPauseTime)) := by
  obtain ⟨hbefore, hlast⟩ := h.paused hpaused
  have hstart := h.started
  have hstop := h.stopped
  have hcliff := h.cliff
  have hshift : s.lastWithdrawTime + (now - s.lastPauseTime) ≤ now := by omega
  have hmark : saturatingAddU64 s.lastWithdrawTime (now - s.lastPauseTime) =
      s.lastWithdrawTime + (now - s.lastPauseTime) := Checked.satAddNat_of_le (by omega)
  have hbegin : saturatingAddU64 s.startTime (now - s.lastPauseTime) =
      s.startTime + (now - s.lastPauseTime) := Checked.satAddNat_of_le (by omega)
  refine { h with
    started := ?_
    stopped := ?_
    cliff := ?_
    funded := ?_
    withdrawn_le := ?_
    active := ?_
    paused := fun h => absurd h (by simp [Contract.resumed])
    endTime_max := min_le_right _ _
    lock_max := min_le_right _ _ }
  · simp only [Contract.resumed, hmark, hbegin]
    omega
  · simp only [Contract.resumed, saturatingAddU64, Checked.satAddNat]
    omega
  · simp only [Contract.resumed, saturatingAddU64, Checked.satAddNat]
    omega
  · simp only [Contract.resumed, hbegin]
    refine le_trans (flow_mono h.rate ?_) h.funded
    simp only [saturatingAddU64, Checked.satAddNat]
    omega
  · simp only [Contract.resumed, hbegin, hmark]
    refine h.withdrawn_le.trans (flow_mono h.rate ?_)
    omega
  · intro _
    simp only [Contract.resumed, hmark]
    exact hshift

end Sound

theorem topUpAmount_eq (s : Stream) (amount : Int) :
    topUpAmount s amount = s.flowRate * amount.tdiv s.flowRate := by
  have h := Int.mul_tdiv_add_tmod amount s.flowRate
  simp only [topUpAmount]
  omega

theorem Sound.toppedUp (h : Sound now s) {caller : Address} (ht : TopUp env w id s caller amount) :
    Sound now (s.toppedUp (topUpAmount s amount)) := by
  have hrate := h.rate
  have hextra : (topUpAmount s amount).tdiv s.flowRate = amount.tdiv s.flowRate := by
    rw [topUpAmount_eq, Int.mul_tdiv_cancel_left _ ht.rate]
  have hforward := ht.forward
  have hlater : s.endTime ≤ s.endTime + ((topUpAmount s amount).tdiv s.flowRate).toNat := Nat.le_add_right _ _
  refine { h with
    stopped := h.stopped.trans hlater
    cliff := h.cliff.trans hlater
    funded := ?_
    deposit_max := ht.deposit
    endTime_max := ht.fits }
  have hcast : (((topUpAmount s amount).tdiv s.flowRate).toNat : Int) = amount.tdiv s.flowRate := by
    rw [Int.toNat_of_nonneg hforward, hextra]
  calc s.flowRate * (((s.endTime + ((topUpAmount s amount).tdiv s.flowRate).toNat : Nat) : Int) - s.startTime)
      = s.flowRate * ((s.endTime : Int) - s.startTime) + topUpAmount s amount := by
        rw [Nat.cast_add, hcast, topUpAmount_eq]; ring
    _ ≤ s.deposit + topUpAmount s amount := add_le_add_left h.funded _

theorem tdiv_mul_le_self {a b : Int} (ha : 0 ≤ a) (hb : 0 < b) : b * a.tdiv b ≤ a := by
  rw [Int.tdiv_eq_ediv_of_nonneg ha]
  exact Int.mul_ediv_self_le hb.ne'

theorem Opening.sound {duration : Nat} (h : Opening env s duration) : Sound env.now s := by
  obtain ⟨hmark, -, hzero⟩ := h.untouched
  have hlong := h.long
  have hfunded := h.funded
  have hrate : 1 ≤ s.flowRate := by
    have hne := h.rate.2
    have hnonneg : 0 ≤ s.flowRate := by
      rw [h.rate.1, Int.tdiv_eq_ediv_of_nonneg hfunded.1.le]
      exact Int.ediv_nonneg hfunded.1.le (by omega)
    omega
  refine ⟨⟨hrate, ?_, ?_, h.cliff, ?_, hzero.ge, ?_, fun _ => hmark.le, ?_⟩, hfunded.2, h.fits, h.lock⟩
  · rw [hmark, h.start]
  · rw [hmark, h.stop]
    exact Nat.le_add_right _ _
  · have hlen : (s.endTime : Int) - s.startTime = duration := by rw [h.stop, h.start]; omega
    rw [hlen, h.rate.1, mul_comm]
    exact tdiv_mul_le_self hfunded.1.le (by omega)
  · rw [hzero, hmark, h.start]
    simp
  · intro hp
    exact absurd (h.active.symm.trans hp) (by simp)

theorem Sound.split_sound {earned streamed cancelAmount : Int} (h : Sound env.now s)
    (hsplit : Split env w id s cancelAmount earned streamed) :
    Sound env.now (splitSuccessor host id s (s.clock env.now) (splitDeposit s streamed cancelAmount)) := by
  have hrate := h.rate
  have hleft := hsplit.left
  have hwant := hsplit.wanted
  have hmax : splitDeposit s streamed cancelAmount ≤ i128Max := by
    have hcap : saturatingSubI128 s.deposit streamed ≤ i128Max := by
      simp only [saturatingSubI128, Checked.clamp, i128Max, i128Min]
      omega
    simp only [splitDeposit]
    omega
  have hclock : s.clock env.now ≤ u64Max := (Nat.le_add_right _ _).trans hsplit.fits
  refine ⟨⟨hrate, le_rfl, Nat.le_add_right _ _, Nat.le_add_right _ _, ?_, le_rfl, ?_, ?_, ?_⟩, hmax, hsplit.fits,
    hclock⟩
  · simp only [splitSuccessor, successor]
    rw [Nat.cast_add, add_sub_cancel_left, Int.toNat_of_nonneg hsplit.duration]
    exact tdiv_mul_le_self (by omega) (by omega)
  · simp [splitSuccessor, successor]
  · intro _
    exact (h.clock hsplit.live).2
  · intro hp
    simp [splitSuccessor, successor] at hp

def Accounts (now : Nat) (streams : Streams) : Prop :=
  ∀ id s, streams.lookup id = some s → s.id = id ∧ Sound now s

namespace Accounts

variable {streams : Streams}

theorem mono (h : Accounts now streams) (hnow : now ≤ now') : Accounts now' streams :=
  fun id s hs => ⟨(h id s hs).1, (h id s hs).2.mono hnow⟩

theorem insert (h : Accounts now streams) (hs : Sound now s) : Accounts now (streams.insert s.id s) := by
  intro j r hr
  by_cases hj : j = s.id
  · subst hj
    rw [Finmap.lookup_insert] at hr
    obtain rfl := Option.some.inj hr
    exact ⟨rfl, hs⟩
  · rw [Finmap.lookup_insert_of_ne _ hj] at hr
    exact h j r hr

theorem erase (h : Accounts now streams) (id : StreamId) : Accounts now (streams.erase id) := by
  intro j r hr
  by_cases hj : j = id
  · subst hj
    simp at hr
  · rw [Finmap.lookup_erase_ne hj] at hr
    exact h j r hr

end Accounts

theorem checkpoint_sound {now : Nat} {claim : Int} (h : Sound now s) (hactive : s.status = .active)
    (hclaim : claim = flowed s now ∨ claim = 0) : Sound now (s.checkpoint claim now) :=
  h.checkpoint (h.active hactive) (fun _ => le_rfl) (fun hp => absurd (hactive.symm.trans hp) (by simp)) hclaim

theorem Withdrawal.sound {single : Bool} {w₁ : World} {out : Option Stream} {us : List Transfer}
    (h : Withdrawal env w single id s claim w₁ out us) (hs : Sound env.now s) :
    Sound env.now (s.checkpoint claim env.now) :=
  checkpoint_sound hs h.active (claimFor_cases h.claimed)

theorem Withdrawal.settled_sound {single : Bool} {w₁ : World} {out : Option Stream} {us : List Transfer}
    (h : Withdrawal env w single id s claim w₁ out us) (hs : Sound env.now s) {s' : Stream}
    (hout : out = some s') : s'.id = s.id ∧ Sound env.now s' := by
  have hmark := h.sound hs
  have hstatus : (s.checkpoint claim env.now).status = .active := h.active
  have hset := h.settled
  subst hout
  cases hset with
  | running hend => exact ⟨rfl, hmark⟩
  | renewed hend horder hauto hfunds hauth hpay hnew => exact ⟨rfl, hmark.renewed hend hstatus hnew⟩
  | lapsed hend horder hauto hlooks hfunds hpay => exact ⟨rfl, hmark.withStatus .completed (by simp) (by simp)⟩

theorem HandOver.sound {w₁ : World} {recipient : Address} (h : HandOver env w id s claim w₁ recipient)
    (hs : Sound env.now s) : Sound env.now (s.advance claim (s.clock env.now)) := by
  obtain ⟨hafter, hbefore⟩ := hs.clock h.live
  unfold Stream.advance
  split
  · exact hs.checkpoint hafter (fun _ => hbefore) (fun hp => (clock_of_paused hp env.now).le)
      (handOverClaim_cases h.claimed)
  · exact hs

theorem now_le_u64Max (env : Env host) : env.now ≤ u64Max := Nat.le_of_lt_succ env.timestamp.isLt

theorem action_accounts {b : Book} {ts : List Transfer} (h : Action env w made b ts)
    (hw : Accounts env.now w.book.streams) : Accounts env.now b.streams := by
  cases h with
  | nonceMarked | batchCounted | delegated => exact hw
  | opened s duration fees h => exact hw.insert h.sound
  | withdrawn single id s claim w₁ out us h =>
      obtain ⟨rfl, hs⟩ := hw id s h.stored
      cases out with
      | none => exact hw.erase s.id
      | some s' => exact hw.insert (h.settled_sound hs rfl).2
  | handedOver id s claim w₁ recipient h =>
      exact hw.insert ((h.sound (hw id s h.stored).2).withRecipient recipient)
  | closed id s | archived id s => exact hw.erase id
  | split id s cancelAmount earned streamed h =>
      have hs := (hw id s h.stored).2
      exact (hw.insert (hs.withStatus .cancelled (by simp) (by simp))).insert (hs.split_sound h)
  | toppedUp id s caller amount h => exact hw.insert ((hw id s h.stored).2.toppedUp h)
  | paused id s hs hauth hactive => exact hw.insert ((hw id s hs).2.paused_at hactive)
  | resumed id s hs hauth hpaused => exact hw.insert ((hw id s hs).2.resumed hpaused (now_le_u64Max env))
  | amended id s metadata autoRenew hs => exact hw.insert ((hw id s hs).2.amended metadata autoRenew)

theorem acted_accounts (h : Acted env made w w') (hw : Accounts env.now w.book.streams) :
    Accounts env.now w'.book.streams := by
  obtain ⟨b, ts, w₁, ha, -, rfl⟩ := h
  exact action_accounts ha hw

theorem reached_accounts {c : Chain} (h : Reached host c) : Accounts c.now c.world.book.streams := by
  refine reached_inv (fun now w => Accounts now w.book.streams) ?_ ?_ ?_ h
  · intro c hc id s hs
    simp [hc.book, Book.fresh] at hs
  · intro now now' w w' hnow ha hw
    rw [ha.book]
    exact hw.mono hnow
  · intro env made w w' ha hw
    exact acted_accounts ha hw

/-- Every stored stream keeps its accounts in every state reached. -/
theorem stored_stream_accounted {c : Chain} (h : Reached host c) {id : StreamId} {s : Stream}
    (hs : c.world.book.streams.lookup id = some s) : Accounted c.now s :=
  (reached_accounts h id s hs).2.toAccounted

theorem sample_stream_accounted : ∃ s,
    (Sample.genesis.after [Sample.opening 500 0]).world.book.streams.lookup Sample.streamId = some s ∧
      Accounted 10 s := by
  obtain ⟨s, hs⟩ : ∃ s, (Sample.genesis.after [Sample.opening 500 0]).world.book.streams.lookup
      Sample.streamId = some s := Option.isSome_iff_exists.mp (by decide)
  exact ⟨s, hs, stored_stream_accounted (reached_after Sample.genesis_fresh (by decide)) hs⟩

end SoroStream
