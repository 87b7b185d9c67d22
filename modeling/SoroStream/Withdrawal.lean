import SoroStream.Settlement

namespace SoroStream

open Lib Lib.Rollback Lib.Rollback.Prog Contract

variable {host : Host} {env : Env host} {w w' : World} {u : Unit} {id : StreamId}

abbrev Env.now (env : Env host) : Nat := env.timestamp.val

/-- `withdraw` and an item of `batch_withdraw` differ in three places, all decided by
`single`: the cliff, the deposit call and the look at the sender's funds. -/
def claimFor (single : Bool) (s : Stream) (now : Nat) : Option Int :=
  if single then VestingMath.computeClaimable s.flowRate now s.cliffTime s.endTime s.lastWithdrawTime
  else VestingMath.computeEarned s.flowRate now s.endTime s.lastWithdrawTime

structure Withdrawal (env : Env host) (w : World) (single : Bool) (id : StreamId) (s : Stream)
    (claim : Int) (w₁ : World) (out : Option Stream) (us : List Transfer) : Prop where
  stored : w.book.streams.lookup id = some s
  signed : env.auths s.recipient = true
  active : s.status = .active
  unlocked : s.lockUntil ≤ env.now
  claimed : claimFor single s env.now = some claim
  covered : 0 < claim → s.totalWithdrawn + claim ≤ s.deposit
  paid : Moved host (claimedTransfers host w s claim) w w₁
  cells : single = true → SameCells w w₁
  settled : Settlement env w₁ env.now single (s.checkpoint claim env.now) out us

def Withdrawal.result (w₁ : World) (id : StreamId) (s : Stream) (claim : Int) (now : Nat)
    (out : Option Stream) (us : List Transfer) : World :=
  (w₁.pay us).withBook (w₁.book.settle id (s.checkpoint claim now) out)

namespace Withdrawal

variable {single : Bool} {s : Stream} {claim : Int} {w₁ : World} {out : Option Stream} {us : List Transfer}
  {j : StreamId} {r : Stream}

theorem lookup (h : Withdrawal env w single id s claim w₁ out us) (hid : s.id = id) :
    (result w₁ id s claim env.now out us).book.streams.lookup id = out :=
  h.settled.lookup hid w₁.book

theorem lookup_ne (h : Withdrawal env w single id s claim w₁ out us) (hid : s.id = id) (hne : j ≠ id) :
    (result w₁ id s claim env.now out us).book.streams.lookup j = w.book.streams.lookup j := by
  have hout : ∀ s', out = some s' → s'.id = id := by
    rintro s' rfl
    exact h.settled.id_eq.trans hid
  rw [result, withBook_book, settle_lookup_ne hout hne, h.paid.book]

/-- A record that is there afterwards is what the settlement left, or another one. -/
theorem lookup_cases (h : Withdrawal env w single id s claim w₁ out us) (hid : s.id = id)
    (hr : (result w₁ id s claim env.now out us).book.streams.lookup j = some r) :
    (j = id ∧ out = some r) ∨ w.book.streams.lookup j = some r := by
  by_cases hj : j = id
  · subst hj
    exact .inl ⟨rfl, (h.lookup hid).symm.trans hr⟩
  · exact .inr ((h.lookup_ne hid hj).symm.trans hr)

end Withdrawal

/-- A withdrawal, taken apart into its claim block and its settlement. -/
theorem withdraw_parts {recipient : Address} (h : withdraw id recipient env w = .ok u w') :
    w.pause.pausedAt env.now = false ∧ env.auths recipient = true ∧
      ∃ s claim w₁, w.book.streams.lookup id = some s ∧ s.recipient = recipient ∧ s.status = .active ∧
        s.lockUntil ≤ env.now ∧ claimFor true s env.now = some claim ∧
        claimBlock noHook (fun _ => notifyRecipient recipient) s claim env (w.awake env.now) =
          .ok (s.credit claim) w₁ ∧
        settleStream true id (s.checkpoint claim env.now) env.now env w₁ = .ok () w' := by
  simp only [withdraw, timestamp, ask, bind_ok, requireRunning_ok, requireAuth_ok, read_ok, okOr_ok, failIf_ok,
    not_not, not_lt, and_assoc, exists_and_left, exists_eq_left', exists_const] at h
  obtain ⟨hrun, hauth, s, hs, hr, hactive, hlock, -, claim, hclaim, s', w₁, hblock, hsettle⟩ := h
  obtain ⟨rfl, -, -⟩ := claimBlock_ok noHook_harmless (fun h => notifyRecipient_moved h) hblock
  exact ⟨hrun, hauth, s, claim, w₁, hs, hr, hactive, hlock, hclaim, hblock, hsettle⟩

theorem withdrawal_of_block {s : Stream} {claim : Int} {w₁ : World} {recipient : Address}
    (hs : w.book.streams.lookup id = some s) (hauth : env.auths s.recipient = true) (hactive : s.status = .active)
    (hlock : s.lockUntil ≤ env.now) (hclaim : claimFor true s env.now = some claim)
    (hblock : claimBlock noHook (fun _ => notifyRecipient recipient) s claim env w = .ok (s.credit claim) w₁)
    (hsettle : settleStream true id (s.checkpoint claim env.now) env.now env w₁ = .ok u w') :
    ∃ out us, Withdrawal env w true id s claim w₁ out us ∧ Withdrawal.result w₁ id s claim env.now out us = w' := by
  have hcells := claimBlock_cells (fun _ => notifyRecipient_cells) hblock
  obtain ⟨-, hcover, hpaid⟩ := claimBlock_ok noHook_harmless (fun h => notifyRecipient_moved h) hblock
  obtain ⟨out, us, hout, rfl⟩ := settleStream_ok.mp hsettle
  exact ⟨out, us, ⟨hs, hauth, hactive, hlock, hclaim, hcover, hpaid, fun _ => hcells, hout⟩, rfl⟩

theorem withdraw_ok {recipient : Address} (h : withdraw id recipient env w = .ok u w') :
    w.pause.pausedAt env.now = false ∧ ∃ s claim w₁ out us, s.recipient = recipient ∧
      Withdrawal env (w.awake env.now) true id s claim w₁ out us ∧
      Withdrawal.result w₁ id s claim env.now out us = w' := by
  obtain ⟨hrun, hauth, s, claim, w₁, hs, hr, hactive, hlock, hclaim, hblock, hsettle⟩ := withdraw_parts h
  obtain ⟨out, us, hwd, hresult⟩ := withdrawal_of_block (w := w.awake env.now) hs (hr ▸ hauth) hactive hlock hclaim
    hblock hsettle
  exact ⟨hrun, s, claim, w₁, out, us, hr, hwd, hresult⟩

theorem batchClaim_ok {s s' : Stream} {claim : Int}
    (h : claimBlock depositHook (fun _ => pure ()) s claim env w = .ok s' w') :
    s' = s.credit claim ∧ (0 < claim → s.totalWithdrawn + claim ≤ s.deposit) ∧
      Moved host (claimedTransfers host w s claim) w w' :=
  claimBlock_ok depositHook_harmless (fun h => by obtain ⟨-, rfl⟩ := pure_ok.mp h; exact Moved.refl _) h

theorem batchWithdrawItem_parts {recipient : Address} {claim : Int} :
    batchWithdrawItem recipient id env w = .ok claim w' ↔
      ∃ s w₁, w.book.streams.lookup id = some s ∧ s.recipient = recipient ∧ s.status = .active ∧
        s.lockUntil ≤ env.now ∧ claimFor false s env.now = some claim ∧
        claimBlock depositHook (fun _ => pure ()) s claim env w = .ok (s.credit claim) w₁ ∧
        settleStream false id (s.checkpoint claim env.now) env.now env w₁ = .ok () w' := by
  simp only [batchWithdrawItem, timestamp, ask, bind_ok, read_ok, okOr_ok, failIf_ok, pure_ok, not_not, not_lt,
    and_assoc, exists_and_left, exists_eq_left', exists_const]
  constructor
  · rintro ⟨s, hs, hr, hactive, hlock, claim, hclaim, s', w₁, hblock, _, w₂, hsettle, rfl, rfl⟩
    obtain ⟨rfl, -, -⟩ := batchClaim_ok hblock
    exact ⟨s, hs, hr, hactive, hlock, hclaim, w₁, hblock, hsettle⟩
  · rintro ⟨s, hs, hr, hactive, hlock, hclaim, w₁, hblock, hsettle⟩
    exact ⟨s, hs, hr, hactive, hlock, claim, hclaim, _, w₁, hblock, (), w', hsettle, rfl, rfl⟩

theorem batchWithdrawItem_ok {recipient : Address} {claim : Int} (hauth : env.auths recipient = true)
    (h : batchWithdrawItem recipient id env w = .ok claim w') :
    ∃ s w₁ out us, s.recipient = recipient ∧ Withdrawal env w false id s claim w₁ out us ∧
      Withdrawal.result w₁ id s claim env.now out us = w' := by
  obtain ⟨s, w₁, hs, hr, hactive, hlock, hclaim, hblock, hsettle⟩ := batchWithdrawItem_parts.mp h
  obtain ⟨-, hcover, hpaid⟩ := batchClaim_ok hblock
  obtain ⟨out, us, hout, rfl⟩ := settleStream_ok.mp hsettle
  exact ⟨s, w₁, out, us, hr,
    ⟨hs, hr ▸ hauth, hactive, hlock, hclaim, hcover, hpaid, fun h => Bool.noConfusion h, hout⟩, rfl⟩

theorem batchWithdraw_ok {ids : List StreamId} {recipient : Address} {claims : List Int}
    (h : batchWithdraw ids recipient env w = .ok claims w') :
    w.pause.pausedAt env.now = false ∧ env.auths recipient = true ∧
      each (batchWithdrawItem recipient) ids env (w.awake env.now) = .ok claims w' := by
  simpa only [batchWithdraw, bind_ok, requireRunning_ok, requireAuth_ok, and_assoc, exists_and_left, exists_eq_left',
    exists_const] using h

def handOverClaim (s : Stream) (tau : Nat) : Option Int :=
  if s.lockUntil ≤ tau ∧ s.cliffTime ≤ tau then
    VestingMath.computeClaimable s.flowRate tau s.cliffTime s.endTime s.lastWithdrawTime
  else some 0

def Stream.advance (s : Stream) (claim : Int) (tau : Nat) : Stream :=
  if 0 < claim then s.checkpoint claim tau else s

structure HandOver (env : Env host) (w : World) (id : StreamId) (s : Stream) (claim : Int)
    (w₁ : World) (recipient : Address) : Prop where
  stored : w.book.streams.lookup id = some s
  signed : env.auths s.recipient = true
  live : s.Live
  claimed : handOverClaim s (s.clock env.now) = some claim
  counted : 0 < claim → s.totalWithdrawn + claim ≤ i128Max
  paid : Moved host (claimedTransfers host w s claim) w w₁
  cells : SameCells w w₁
  room : ((Function.update w.book.recipients s.recipient
    (Storage.unindex (w.book.recipients s.recipient) id)) recipient).size + 1 ≤ u32Max

def HandOver.book (b : Book) (id : StreamId) (s : Stream) (claim : Int) (tau : Nat) (recipient : Address) :
    Book :=
  (b.save { s.advance claim tau with recipient := recipient }).handOver id s.recipient recipient

theorem claimForTransfer_ok {s s' : Stream} {tau : Nat}
    (h : claimForTransfer s tau env w = .ok s' w') :
    ∃ claim, handOverClaim s tau = some claim ∧ s' = s.advance claim tau ∧
      (0 < claim → s.totalWithdrawn + claim ≤ i128Max) ∧
      Moved host (claimedTransfers host w s claim) w w' := by
  by_cases hopen : s.lockUntil ≤ tau ∧ s.cliffTime ≤ tau
  · simp only [claimForTransfer, if_pos hopen, okOr_bind_ok] at h
    obtain ⟨claim, hclaim, h⟩ := h
    refine ⟨claim, by simp only [handOverClaim, if_pos hopen, hclaim], ?_⟩
    by_cases hpos : 0 < claim
    · simp only [if_pos hpos, bind_ok, okOr_ok, pure_ok, checkedAddI128, Checked.inRange_eq_some, and_assoc,
        exists_and_left, exists_eq_left'] at h
      obtain ⟨amount, w₁, hpay, -, hle, rfl, rfl⟩ := h
      refine ⟨?_, fun _ => hle, ?_⟩
      · simp [Stream.advance, Stream.checkpoint, Stream.credit, hpos]
      · simpa [claimedTransfers, hpos] using payClaim_moved noHook_harmless hpay
    · simp only [if_neg hpos, pure_ok] at h
      obtain ⟨rfl, rfl⟩ := h
      refine ⟨by simp [Stream.advance, hpos], fun h => absurd h hpos, ?_⟩
      simpa [claimedTransfers, hpos] using Moved.refl w
  · simp only [claimForTransfer, if_neg hopen, pure_ok] at h
    obtain ⟨rfl, rfl⟩ := h
    refine ⟨0, by simp only [handOverClaim, if_neg hopen], by simp [Stream.advance], by simp, ?_⟩
    simpa [claimedTransfers] using Moved.refl w

theorem claimForTransfer_cells {s : Stream} {tau : Nat} : Keeps env SameCells (claimForTransfer s tau) :=
  keeps_ite (keeps_bind keeps_okOr fun _ => keeps_ite (keeps_bind payClaim_cells fun _ =>
    keeps_bind keeps_okOr fun _ => keeps_pure) keeps_pure) keeps_pure

theorem advance_field {α : Type} {s : Stream} {claim : Int} {tau : Nat} (f : Stream → α)
    (h : f (s.checkpoint claim tau) = f s) : f (s.advance claim tau) = f s := by
  rw [Stream.advance]
  split
  · exact h
  · rfl

theorem advance_id (s : Stream) (claim : Int) (tau : Nat) : (s.advance claim tau).id = s.id :=
  advance_field Stream.id rfl

theorem advance_sender (s : Stream) (claim : Int) (tau : Nat) : (s.advance claim tau).sender = s.sender :=
  advance_field Stream.sender rfl

theorem advance_recipient (s : Stream) (claim : Int) (tau : Nat) :
    (s.advance claim tau).recipient = s.recipient :=
  advance_field Stream.recipient rfl

theorem advance_token (s : Stream) (claim : Int) (tau : Nat) : (s.advance claim tau).token = s.token :=
  advance_field Stream.token rfl

theorem advance_status (s : Stream) (claim : Int) (tau : Nat) : (s.advance claim tau).status = s.status :=
  advance_field Stream.status rfl

theorem HandOver.still_live {s : Stream} {claim : Int} {w₁ : World} {recipient : Address}
    (h : HandOver env w id s claim w₁ recipient) (tau : Nat) :
    ({ s.advance claim tau with recipient := recipient } : Stream).Live := by
  rw [Stream.Live, advance_status]
  exact h.live

theorem transferRecipient_ok {current recipient : Address}
    (h : transferRecipient id current recipient env w = .ok u w') :
    w.pause.pausedAt env.now = false ∧ ∃ s claim w₁, s.recipient = current ∧
      HandOver env (w.awake env.now) id s claim w₁ recipient ∧
      w₁.withBook (HandOver.book w₁.book id s claim (s.clock env.now) recipient) = w' := by
  simp only [transferRecipient, timestamp, ask, bind_ok, requireRunning_ok, requireAuth_ok, read_ok, okOr_ok,
    failIf_ok, not_not, saveStream_ok, Storage.unindexByRecipient, Storage.indexByRecipient, setBook, update_ok,
    pushIndex_ok, and_assoc, exists_and_left, exists_eq_left', exists_const] at h
  obtain ⟨hrun, hauth, s, hs, hr, hlive, s', w₁, hclaim, hroom, rfl⟩ := h
  have hcells := claimForTransfer_cells hclaim
  obtain ⟨claim, hc, rfl, hcount, hpaid⟩ := claimForTransfer_ok hclaim
  rw [advance_recipient] at hroom ⊢
  refine ⟨hrun, s, claim, w₁, hr, ⟨hs, hr ▸ hauth, hlive, hc, hcount, hpaid, hcells, ?_⟩, rfl⟩
  simpa only [withBook_book, Book.save, hpaid.book] using hroom

end SoroStream
