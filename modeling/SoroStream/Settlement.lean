import SoroStream.Records

namespace SoroStream

open Lib Lib.Rollback Lib.Rollback.Prog Contract

variable {host : Host} {env : Env host} {w w' : World} {u : Unit}

def feeOf (w : World) (recipient : Address) (claim : Int) : Int :=
  if 0 < Storage.getProtocolFee w ∧ Storage.isFeeExempt recipient w = false then
    (claim * Storage.getProtocolFee w).tdiv 10000
  else 0

def claimTransfer (host : Host) (s : Stream) (amount : Int) : Transfer :=
  ⟨s.token, host.contract, s.recipient, amount, .claim s.id⟩

def feeTransfer (host : Host) (s : Stream) (treasury : Address) (fee : Int) : Transfer :=
  ⟨s.token, host.contract, treasury, fee, .protocolFee s.id⟩

def feeTransfers (host : Host) (s : Stream) (treasury : Option Address) (fee : Int) : List Transfer :=
  match treasury with
  | some t => positive (feeTransfer host s t fee)
  | none => []

def claimTransfers (host : Host) (w : World) (s : Stream) (claim : Int) : List Transfer :=
  let fee := feeOf w s.recipient claim
  positive (claimTransfer host s (claim - fee)) ++ feeTransfers host s (Storage.getTreasury w) fee

theorem feeAmount_ok {recipient : Address} {claim fee : Int} :
    feeAmount recipient claim env w = .ok fee w' ↔
      (0 < Storage.getProtocolFee w ∧ Storage.isFeeExempt recipient w = false →
        (checkedMulI128 claim (Storage.getProtocolFee w)).isSome) ∧
      feeOf w recipient claim = fee ∧ w = w' := by
  simp only [feeAmount, ask, read_bind, ite_ok, okOr_bind_ok, pure_ok, feeOf]
  constructor
  · rintro (⟨hc, p, hp, rfl, rfl⟩ | ⟨hc, rfl, rfl⟩)
    · have hprod := (Checked.inRange_eq_some.mp hp).2
      rw [if_pos hc, hprod]
      exact ⟨fun _ => by rw [hp]; rfl, rfl, rfl⟩
    · rw [if_neg hc]
      exact ⟨fun h => absurd h hc, rfl, rfl⟩
  · rintro ⟨hsome, hfee, rfl⟩
    by_cases hc : 0 < Storage.getProtocolFee w ∧ Storage.isFeeExempt recipient w = false
    · obtain ⟨p, hp⟩ := Option.isSome_iff_exists.mp (hsome hc)
      have hprod := (Checked.inRange_eq_some.mp hp).2
      rw [if_pos hc, hprod] at hfee
      exact .inl ⟨hc, p, hp, hfee, rfl⟩
    · rw [if_neg hc] at hfee
      exact .inr ⟨hc, hfee, rfl⟩

theorem feeAmount_bind_ok {α : Type} {recipient : Address} {claim : Int} {f : Int → Contract host α} {a : α} :
    (feeAmount recipient claim >>= f) env w = .ok a w' ↔
      (0 < Storage.getProtocolFee w ∧ Storage.isFeeExempt recipient w = false →
        (checkedMulI128 claim (Storage.getProtocolFee w)).isSome) ∧
      f (feeOf w recipient claim) env w = .ok a w' := by
  simp only [bind_ok, feeAmount_ok, and_assoc, exists_and_left, exists_eq_left']

/-- The hook adds no transfer to the log and takes nothing from the contract. -/
def Harmless (hook : FeeHook host) : Prop :=
  ∀ {env a token fee w u w'}, hook a token fee env w = .ok u w' → Moved host [] w w'

theorem noHook_harmless : Harmless (noHook : FeeHook host) := by
  intro env a token fee w u w' h
  obtain ⟨-, rfl⟩ := pure_ok.mp h
  exact Moved.refl w

theorem deposit_moved {token : Address} {amount : Int}
    (h : TreasuryContract.deposit token amount env w = .ok u w') : Moved host [] w w' := by
  simp only [TreasuryContract.deposit, TreasuryContract.setBalance, setTreasuryCells, ask, read_bind, bind_ok,
    okOrHalt_ok, update_ok, and_assoc, exists_and_left, exists_eq_left'] at h
  obtain ⟨_, -, rfl⟩ := h
  exact ⟨rfl, rfl, rfl, rfl, rfl, by simp, fun _ => by simp, fun _ => by simp⟩

theorem depositHook_harmless : Harmless (depositHook : FeeHook host) := by
  intro env a token fee w u w' h
  refine tryCall_moved ?_ h
  intro v w' h
  simp only [bind_ok, pure_ok] at h
  obtain ⟨_, _, h, -, rfl⟩ := h
  refine callContract_moved ?_ h
  intro w v w' h
  simp only [bind_ok, pure_ok] at h
  obtain ⟨_, _, h, -, rfl⟩ := h
  exact deposit_moved h

/-- What is called after the payments: the hook, where a fee went to a treasury. -/
def afterFee (hook : FeeHook host) (token : Address) (treasury : Option Address) (fee : Int) : Contract host Unit :=
  match treasury with
  | some a => if 0 < fee then hook a token fee else pure ()
  | none => pure ()

theorem payClaim_ok {hook : FeeHook host} {s : Stream} {claim amount : Int} :
    payClaim hook s claim env w = .ok amount w' ↔
      (0 < Storage.getProtocolFee w ∧ Storage.isFeeExempt s.recipient w = false →
        (checkedMulI128 claim (Storage.getProtocolFee w)).isSome) ∧
      (0 < claim - feeOf w s.recipient claim →
        Payable env w (claimTransfer host s (claim - feeOf w s.recipient claim))) ∧
      (∀ t ∈ feeTransfers host s (Storage.getTreasury w) (feeOf w s.recipient claim),
        Payable env (w.pay (positive (claimTransfer host s (claim - feeOf w s.recipient claim)))) t) ∧
      claim - feeOf w s.recipient claim = amount ∧
      afterFee hook s.token (Storage.getTreasury w) (feeOf w s.recipient claim) env
        (w.pay (claimTransfers host w s claim)) = .ok () w' := by
  have htreasury : ∀ ts, Storage.getTreasury (w.pay ts) = Storage.getTreasury w := fun _ => rfl
  simp only [payClaim, feeAmount_bind_ok, seq_ok, transferPositive_ok, ite_ok, ask, read_bind, htreasury,
    claimTransfers, claimTransfer, ← pay_pay, and_assoc, exists_and_left, exists_eq_left', pure_ok]
  refine and_congr_right fun _ => and_congr_right fun _ => ?_
  generalize feeOf w s.recipient claim = fee
  generalize w.pay _ = v
  by_cases hdue : 0 < fee
  · cases Storage.getTreasury w with
    | none => simp [feeTransfers, afterFee, hdue]
    | some a =>
        simp only [seq_ok, transfer_ok, pure_ok, feeTransfers, positive, feeTransfer, afterFee, hdue, if_true]
        grind
  · cases Storage.getTreasury w with
    | none => simp [feeTransfers, afterFee, hdue]
    | some a => simp [feeTransfers, afterFee, feeTransfer, positive, hdue]

theorem afterFee_noHook {token : Address} {treasury : Option Address} {fee : Int} :
    afterFee noHook token treasury fee env w = .ok () w := by
  cases treasury with
  | none => rfl
  | some a =>
      unfold afterFee
      split <;> rfl

theorem afterFee_harmless {hook : FeeHook host} (hhook : Harmless hook) {token : Address} {treasury : Option Address}
    {fee : Int} (h : afterFee hook token treasury fee env w = .ok u w') : Moved host [] w w' := by
  cases treasury with
  | none => exact (pure_ok.mp h).2 ▸ Moved.refl w
  | some a =>
      rw [afterFee, ite_ok] at h
      obtain ⟨-, h⟩ | ⟨-, h⟩ := h
      · exact hhook h
      · exact (pure_ok.mp h).2 ▸ Moved.refl w

theorem payClaim_moved {hook : FeeHook host} (hhook : Harmless hook) {s : Stream} {claim amount : Int}
    (h : payClaim hook s claim env w = .ok amount w') :
    Moved host (claimTransfers host w s claim) w w' := by
  obtain ⟨-, -, -, -, hafter⟩ := payClaim_ok.mp h
  simpa using (Moved.pay w (claimTransfers host w s claim)).trans (afterFee_harmless hhook hafter)

def SameCells (w w' : World) : Prop := w'.treasury = w.treasury

instance : IsPreorder World SameCells where
  refl _ := rfl
  trans _ _ _ h h' := Eq.trans h' h

theorem transfer_cells {t : Transfer} : Keeps env SameCells (transfer t) := transfer_keeps fun _ _ => rfl

theorem payClaim_cells {s : Stream} {claim : Int} : Keeps env SameCells (payClaim noHook s claim) := by
  have hfee : Keeps env SameCells (feeAmount s.recipient claim) :=
    keeps_bind keeps_read fun _ => keeps_bind keeps_read fun _ =>
      keeps_ite (keeps_bind keeps_okOr fun _ => keeps_pure) keeps_pure
  refine keeps_bind hfee fun fee => keeps_bind (keeps_ite transfer_cells keeps_pure) fun _ =>
    keeps_ite (keeps_bind keeps_read fun treasury => ?_) keeps_pure
  cases treasury with
  | none => exact keeps_pure
  | some a => exact keeps_bind transfer_cells fun _ => keeps_bind keeps_pure fun _ => keeps_pure

theorem claimBlock_cells {after : Int → Contract host Unit} (hafter : ∀ a, Keeps env SameCells (after a)) {s : Stream}
    {claim : Int} : Keeps env SameCells (claimBlock noHook after s claim) :=
  keeps_ite (keeps_bind keeps_okOr fun _ => keeps_bind keeps_failIf fun _ => keeps_bind payClaim_cells fun a =>
    keeps_bind (hafter a) fun _ => keeps_pure) keeps_pure

theorem notifyRecipient_cells {a : Address} : Keeps env SameCells (notifyRecipient a) :=
  keeps_tryCall (keeps_bind (callContract_keeps (fun _ => rfl) keeps_halt) fun _ => keeps_pure)

def Stream.credit (s : Stream) (claim : Int) : Stream :=
  { s with totalWithdrawn := if 0 < claim then s.totalWithdrawn + claim else s.totalWithdrawn }

def Stream.checkpoint (s : Stream) (claim : Int) (now : Nat) : Stream :=
  { s.credit claim with lastWithdrawTime := min now s.endTime }

def claimedTransfers (host : Host) (w : World) (s : Stream) (claim : Int) : List Transfer :=
  if 0 < claim then claimTransfers host w s claim else []

theorem mem_feeTransfers {s : Stream} {treasury : Option Address} {fee : Int} {t : Transfer}
    (h : t ∈ feeTransfers host s treasury fee) : 0 < fee ∧ ∃ a, treasury = some a ∧ t = feeTransfer host s a fee := by
  cases treasury with
  | none => exact absurd h List.not_mem_nil
  | some a =>
      obtain rfl := mem_positive h
      exact ⟨pos_of_mem_positive h, a, rfl, rfl⟩

theorem mem_claimedTransfers {s : Stream} {claim : Int} {t : Transfer} (h : t ∈ claimedTransfers host w s claim) :
    0 < t.amount ∧ (t = claimTransfer host s (claim - feeOf w s.recipient claim) ∨
      ∃ a, t = feeTransfer host s a (feeOf w s.recipient claim)) := by
  unfold claimedTransfers at h
  split at h
  · rcases List.mem_append.mp h with h | h
    · exact ⟨pos_of_mem_positive h, .inl (mem_positive h)⟩
    · obtain ⟨hpos, a, -, rfl⟩ := mem_feeTransfers h
      exact ⟨hpos, .inr ⟨a, rfl⟩⟩
  · exact absurd h List.not_mem_nil

/-- A positive claim is counted and paid, and what follows the payment runs; any other
claim does nothing. -/
theorem claimBlock_cases {hook : FeeHook host} {after : Int → Contract host Unit} {s s' : Stream} {claim : Int}
    (h : claimBlock hook after s claim env w = .ok s' w') :
    s' = s.credit claim ∧
      ((0 < claim ∧ s.totalWithdrawn + claim ≤ s.deposit ∧
        ∃ amount w₁, payClaim hook s claim env w = .ok amount w₁ ∧ after amount env w₁ = .ok () w') ∨
        ¬0 < claim ∧ w' = w) := by
  by_cases hpos : 0 < claim
  · simp only [claimBlock, if_pos hpos, bind_ok, okOr_ok, failIf_ok, pure_ok, not_lt, checkedAddI128,
      Checked.inRange_eq_some, and_assoc, exists_and_left, exists_eq_left', exists_const] at h
    obtain ⟨-, -, hle, amount, w₁, hpay, _, _, hcall, rfl, rfl⟩ := h
    exact ⟨by simp [Stream.credit, hpos], .inl ⟨hpos, hle, amount, w₁, hpay, hcall⟩⟩
  · simp only [claimBlock, if_neg hpos, pure_ok] at h
    exact ⟨by simp [Stream.credit, hpos, h.1], .inr ⟨hpos, h.2.symm⟩⟩

theorem claimBlock_ok {hook : FeeHook host} (hhook : Harmless hook) {after : Int → Contract host Unit}
    (hafter : ∀ {a w u w'}, after a env w = .ok u w' → Moved host [] w w')
    {s s' : Stream} {claim : Int} (h : claimBlock hook after s claim env w = .ok s' w') :
    s' = s.credit claim ∧ (0 < claim → s.totalWithdrawn + claim ≤ s.deposit) ∧
      Moved host (claimedTransfers host w s claim) w w' := by
  obtain ⟨hcredit, ⟨hpos, hle, amount, w₁, hpay, hcall⟩ | ⟨hnone, rfl⟩⟩ := claimBlock_cases h
  · refine ⟨hcredit, fun _ => hle, ?_⟩
    have hmoved := (payClaim_moved hhook hpay).trans (hafter hcall)
    simpa [claimedTransfers, hpos] using hmoved
  · refine ⟨hcredit, fun h => absurd h hnone, ?_⟩
    rw [claimedTransfers, if_neg hnone]
    exact .refl w'

theorem notifyRecipient_moved {a : Address} (h : notifyRecipient a env w = .ok u w') :
    Moved host [] w w' := by
  refine tryCall_moved ?_ h
  intro v w' h
  simp only [bind_ok, pure_ok] at h
  obtain ⟨_, _, h, -, rfl⟩ := h
  exact callContract_moved (fun w v w' h => by simp at h) h

def dustOf (s : Stream) : Int := streamDust s (s.endTime - s.startTime)

def dustTransfer (host : Host) (s : Stream) : Transfer :=
  ⟨s.token, host.contract, s.sender, dustOf s, .dust s.id⟩

def renewalTransfer (host : Host) (s : Stream) : Transfer :=
  ⟨s.token, s.sender, host.contract, s.deposit, .renewal s.id⟩

def Stream.renewed (s : Stream) : Stream :=
  { s with
    startTime := s.endTime
    endTime := s.endTime + (s.endTime - s.startTime)
    lastWithdrawTime := s.endTime
    totalWithdrawn := 0 }

/-- What becomes of a record whose claim has been counted, and what that moves. -/
inductive Settlement (env : Env host) (w : World) (now : Nat) (looks : Bool) (s : Stream) :
    Option Stream → List Transfer → Prop
  | running (hend : now < s.endTime) : Settlement env w now looks s (some s) []
  | renewed (hend : s.endTime ≤ now) (horder : s.startTime ≤ s.endTime) (hauto : s.autoRenew = true)
      (hfunds : looks = true → s.deposit ≤ w.balances s.token s.sender)
      (hauth : env.auths s.sender = true) (hpay : Payable env w (renewalTransfer host s))
      (hnew : s.endTime + (s.endTime - s.startTime) ≤ u64Max) :
      Settlement env w now looks s (some s.renewed) [renewalTransfer host s]
  | lapsed (hend : s.endTime ≤ now) (horder : s.startTime ≤ s.endTime) (hauto : s.autoRenew = true)
      (hlooks : looks = true) (hfunds : w.balances s.token s.sender < s.deposit)
      (hpay : 0 < dustOf s → Payable env w (dustTransfer host s)) :
      Settlement env w now looks s (some { s with status := .completed }) (positive (dustTransfer host s))
  | finished (hend : s.endTime ≤ now) (horder : s.startTime ≤ s.endTime) (hauto : s.autoRenew = false)
      (hpay : 0 < dustOf s → Payable env w (dustTransfer host s)) :
      Settlement env w now looks s none (positive (dustTransfer host s))

theorem subU64_ok {a b n : Nat} : subU64 a b env w = .ok n w' ↔ b ≤ a ∧ a - b = n ∧ w = w' := by
  simp only [subU64, bind_ok, haltIf_ok, pure_ok, not_lt, and_assoc, exists_and_left, exists_eq_left', exists_const]

theorem refundDust_ok {s : Stream} {dust : Int} :
    refundDust s dust env w = .ok u w' ↔
      (0 < dust → Payable env w ⟨s.token, host.contract, s.sender, dust, .dust s.id⟩) ∧
        w.pay (positive ⟨s.token, host.contract, s.sender, dust, .dust s.id⟩) = w' :=
  transferPositive_ok

theorem renewStream_ok {s : Stream} :
    renewStream s (s.endTime - s.startTime) env w = .ok u w' ↔
      env.auths s.sender = true ∧ Payable env w (renewalTransfer host s) ∧
      s.endTime + (s.endTime - s.startTime) ≤ u64Max ∧
      (w.pay [renewalTransfer host s]).withBook (w.book.save s.renewed) = w' := by
  simp only [renewStream, bind_ok, requireAuth_ok, transfer_ok, okOr_ok, saveStream_ok, checkedAddU64,
    Checked.addNat_eq_some, and_assoc, exists_and_left, exists_eq_left', exists_const]
  rfl

theorem settleStream_ok {looks : Bool} {id : StreamId} {s : Stream} {now : Nat} :
    settleStream looks id s now env w = .ok u w' ↔
      ∃ out ts, Settlement env w now looks s out ts ∧
        (w.pay ts).withBook (w.book.settle id s out) = w' := by
  simp only [settleStream, finishStream, balanceOf, ask, ite_ok, bind_ok, read_ok, subU64_ok, refundDust_ok,
    saveStream_ok, closeStream_ok, not_le, and_assoc, exists_and_left, exists_eq_left', exists_const]
  constructor
  · rintro (⟨hend, horder, ⟨hauto, ⟨hlooks, hfunds, hpay, rfl⟩ | ⟨hfunds, hrenew⟩⟩ | ⟨hauto, hpay, rfl⟩⟩ | ⟨hend, rfl⟩)
    · exact ⟨_, _, .lapsed hend horder hauto hlooks hfunds hpay, rfl⟩
    · obtain ⟨ha, hp, hn, rfl⟩ := renewStream_ok.mp hrenew
      have hfunded : looks = true → s.deposit ≤ w.balances s.token s.sender :=
        fun h => not_lt.mp fun hlt => hfunds ⟨h, hlt⟩
      exact ⟨_, _, .renewed hend horder hauto hfunded ha hp hn, rfl⟩
    · exact ⟨_, _, .finished hend horder (by simpa using hauto) hpay, rfl⟩
    · exact ⟨_, _, .running hend, by simp [Book.settle]⟩
  · rintro ⟨out, ts, hs, rfl⟩
    cases hs with
    | running hend => exact .inr ⟨hend, by simp [Book.settle]⟩
    | renewed hend horder hauto hfunds hauth hpay hnew =>
        refine .inl ⟨hend, horder, .inl ⟨hauto, .inr ⟨?_, ?_⟩⟩⟩
        · rintro ⟨hl, hlt⟩
          exact absurd hlt (not_lt.mpr (hfunds hl))
        · exact renewStream_ok.mpr ⟨hauth, hpay, hnew, rfl⟩
    | lapsed hend horder hauto hlooks hfunds hpay =>
        exact .inl ⟨hend, horder, .inl ⟨hauto, .inl ⟨hlooks, hfunds, hpay, rfl⟩⟩⟩
    | finished hend horder hauto hpay =>
        exact .inl ⟨hend, horder, .inr ⟨by simp [hauto], hpay, rfl⟩⟩

theorem Settlement.mem_transfers {now : Nat} {looks : Bool} {s : Stream} {out : Option Stream} {us : List Transfer}
    {t : Transfer} (h : Settlement env w now looks s out us) (ht : t ∈ us) :
    0 ≤ t.amount ∧ (t = dustTransfer host s ∨ t = renewalTransfer host s ∧ env.auths s.sender = true) := by
  cases h with
  | running => exact absurd ht List.not_mem_nil
  | renewed hend horder hauto hfunds hauth hpay =>
      obtain rfl := List.mem_singleton.mp ht
      exact ⟨hpay.1, .inr ⟨rfl, hauth⟩⟩
  | lapsed | finished => exact ⟨amount_nonneg_of_mem_positive ht, .inl (mem_positive ht)⟩

theorem Settlement.id_eq {now : Nat} {looks : Bool} {s s' : Stream} {us : List Transfer}
    (h : Settlement env w now looks s (some s') us) : s'.id = s.id := by
  cases h <;> rfl

theorem settle_lookup_ne {b : Book} {s : Stream} {out : Option Stream} {id j : StreamId}
    (hout : ∀ s', out = some s' → s'.id = j) (hne : id ≠ j) :
    (b.settle j s out).streams.lookup id = b.streams.lookup id := by
  cases out with
  | none => exact Finmap.lookup_erase_ne hne
  | some s' => exact Finmap.lookup_insert_of_ne _ (hout s' rfl ▸ hne)

theorem Settlement.lookup {now : Nat} {looks : Bool} {s : Stream} {out : Option Stream} {us : List Transfer}
    {id : StreamId} (h : Settlement env w now looks s out us) (hid : s.id = id) (b : Book) :
    (b.settle id s out).streams.lookup id = out := by
  cases out with
  | none => exact Finmap.lookup_erase ..
  | some s' => rw [Book.settle, Book.save_streams, h.id_eq.trans hid, Finmap.lookup_insert]

end SoroStream
