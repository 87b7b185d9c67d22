import SoroStream.Vault
import SoroStream.Exit

namespace SoroStream

open Lib Lib.Rollback Lib.Rollback.Prog Lib.Runs Contract

variable {host : Host} {env : Env host} {c c' : Chain} {w w' : World} {id : StreamId} {s : Stream} {u : Unit}
  {claim : Int} {ts : List Transfer} {events : List (Event host)}

theorem signer_ne_treasury {a : Address} (h : env.auths a = true) : a ≠ host.treasury := by
  rintro rfl
  exact Bool.noConfusion (env.treasury_silent.symm.trans h)

theorem contract_ne_treasury : host.contract ≠ host.treasury := host.treasury_ne_contract.symm

structure Plain (host : Host) (t : Transfer) : Prop where
  payer : t.payer ≠ host.treasury
  amount : 0 ≤ t.amount
  cause : t.cause.isFee = false

theorem paid_tallied {v : World} {b : Book} (hcells : v.treasury = w.treasury) (hlog : v.log = w.log)
    (hbalances : v.balances = w.balances) (hts : ∀ t ∈ ts, Plain host t) :
    Tallied host 0 w ((v.pay ts).withBook b) := by
  refine .of_others hcells (by rw [withBook_log, pay_log, hlog]) ?_ (fun t ht => (hts t ht).payer)
    (fun t ht => (hts t ht).amount) fun token => feesReceived_eq_zero fun t ht => (hts t ht).cause
  intro token
  rw [withBook_balances, pay_balances, hbalances]

theorem silent_tallied {v : World} {b : Book} (hcells : v.treasury = w.treasury) (hlog : v.log = w.log)
    (hbalances : v.balances = w.balances) : Tallied host 0 w (v.withBook b) := by
  have hnone : ∀ t ∈ [], Plain host t := by simp
  simpa only [pay_nil] using paid_tallied hcells hlog hbalances hnone

theorem closed_tallied {v : World} {amount : Int} (hcells : v.treasury = w.treasury) (hlog : v.log = w.log)
    (hbalances : v.balances = w.balances) : Tallied host 0 w (closed host v id s amount) := by
  refine paid_tallied hcells hlog hbalances fun t ht => ?_
  rcases List.mem_append.mp ht with ht | ht
  · exact ⟨mem_positive ht ▸ contract_ne_treasury, amount_nonneg_of_mem_positive ht, mem_positive ht ▸ rfl⟩
  · exact ⟨mem_positive ht ▸ contract_ne_treasury, amount_nonneg_of_mem_positive ht, mem_positive ht ▸ rfl⟩

theorem Settlement.plain {now : Nat} {looks : Bool} {out : Option Stream} {us : List Transfer}
    (h : Settlement env w now looks s out us) : ∀ t ∈ us, Plain host t := by
  intro t ht
  obtain ⟨hamount, rfl | ⟨rfl, hauth⟩⟩ := h.mem_transfers ht
  · exact ⟨contract_ne_treasury, hamount, rfl⟩
  · exact ⟨signer_ne_treasury hauth, hamount, rfl⟩

theorem claimedTransfers_payer : ∀ t ∈ claimedTransfers host w s claim, t.payer ≠ host.treasury ∧ 0 ≤ t.amount := by
  intro t ht
  obtain ⟨hpos, rfl | ⟨a, rfl⟩⟩ := mem_claimedTransfers ht
  · exact ⟨contract_ne_treasury, hpos.le⟩
  · exact ⟨contract_ne_treasury, hpos.le⟩

theorem claimed_tallied {w₁ : World} (h : Moved host (claimedTransfers host w s claim) w w₁)
    (hcells : SameCells w w₁) :
    Tallied host (fun token => feesReceived host token (claimedTransfers host w s claim)) w w₁ :=
  .of_transfers hcells h.log h.vault (fun t ht => (claimedTransfers_payer t ht).1) fun t ht =>
    (claimedTransfers_payer t ht).2

theorem feesReceived_claimed (token : Address) : feesReceived host token (claimedTransfers host w s claim) =
    if 0 < claim ∧ Storage.getTreasury w = some host.treasury ∧ s.token = token then
      max (feeOf w s.recipient claim) 0 else 0 := by
  by_cases hpos : 0 < claim
  · have hclaim :
        feesReceived host token (positive (claimTransfer host s (claim - feeOf w s.recipient claim))) = 0 := by
      rw [feesReceived_positive]
      simp [claimTransfer, Cause.isFee]
    rw [claimedTransfers, if_pos hpos, claimTransfers, feesReceived_append, hclaim, zero_add]
    cases ht : Storage.getTreasury w with
    | none => simp [feeTransfers, feesReceived]
    | some a =>
        simp only [feeTransfers, feesReceived_positive]
        simp [feeTransfer, Cause.isFee, hpos, and_comm]
  · simp [claimedTransfers, hpos, feesReceived]

theorem feeOf_pos {recipient : Address} : 0 < feeOf w recipient claim ↔
    Storage.isFeeExempt recipient w = false ∧ 10000 ≤ claim * Storage.getProtocolFee w := by
  have hdiv : ∀ p : Int, 0 < p.tdiv 10000 ↔ 10000 ≤ p := by
    intro p
    rcases le_total 0 p with hp | hp
    · rw [Int.tdiv_eq_ediv_of_nonneg hp]
      omega
    · have hquot : p.tdiv 10000 ≤ 0 := by
        rw [← Int.neg_nonneg, ← Int.neg_tdiv]
        exact Int.tdiv_nonneg (Int.neg_nonneg.mpr hp) (by decide)
      omega
  unfold feeOf
  split
  · next hrate =>
      rw [hdiv]
      exact ⟨fun h => ⟨hrate.2, h⟩, And.right⟩
  · next hrate =>
      constructor
      · intro h
        exact absurd h (lt_irrefl 0)
      · rintro ⟨hexempt, hfee⟩
        have hzero : Storage.getProtocolFee w = 0 := Nat.eq_zero_of_not_pos fun hpos => hrate ⟨hpos, hexempt⟩
        rw [hzero] at hfee
        simp at hfee

/-- Token balances are i128: a token refuses what the payee's balance cannot take. -/
def Fits (env : Env host) : Prop :=
  ∀ (b : Balances) (t : Transfer), env.accepts b t = true → b.move t t.token t.payee ≤ i128Max

theorem booked_tallied {fee : Int} (hfee : 0 ≤ fee) (hroom : tracked w s.token + fee ≤ i128Max) : Tallied host 0 w
    ((w.pay [feeTransfer host s host.treasury fee]).withTracked s.token (some (tracked w s.token + fee))) := by
  intro hw
  have hpaid : ∀ token, spent host.treasury token [feeTransfer host s host.treasury fee] = 0 :=
    fun token => spent_eq_zero fun t ht hp => contract_ne_treasury (List.mem_singleton.mp ht ▸ hp.2)
  have hgot : ∀ token, received host.treasury token [feeTransfer host s host.treasury fee] =
      if s.token = token then fee else 0 := by
    intro token
    simp [received_cons, feeTransfer]
  have hfees : ∀ token, feesReceived host token [feeTransfer host s host.treasury fee] =
      if s.token = token then fee else 0 := by
    intro token
    simp [feesReceived, feeTransfer, Cause.isFee, received_cons]
  let v := w.pay [feeTransfer host s host.treasury fee]
  have hbooks : ∀ token, tracked (v.withTracked s.token (some (tracked w s.token + fee))) token =
      tracked w token + if s.token = token then fee else 0 := by
    intro token
    rw [withTracked_tracked, Option.getD_some]
    by_cases ht : token = s.token
    · subst ht
      rw [if_pos rfl, if_pos rfl]
    · rw [if_neg ht, if_neg (Ne.symm ht), add_zero]
      rfl
  refine ⟨⟨?_, ?_, ?_, hw.share⟩, ?_⟩
  · intro token
    have hold := hw.nonneg token
    rw [hbooks]
    split <;> omega
  · intro token
    have hold := hw.covered token
    rw [hbooks]
    change _ ≤ v.balances token host.treasury
    rw [pay_balances, hpaid, hgot]
    omega
  · intro token
    have hold := hw.bounded token
    rw [hbooks]
    split
    · next heq =>
        rw [heq] at hroom
        exact hroom
    · omega
  · intro token
    change feesReceived host token (w.log ++ _) - spent host.treasury token (w.log ++ _) - tracked _ token =
      feesReceived host token w.log - spent host.treasury token w.log - tracked w token + 0
    rw [feesReceived_append, spent_append, hfees, hpaid, hbooks]
    omega

/-- The deposit call books the fee, unless that would overflow the books. -/
theorem depositHook_cases {token : Address} {fee : Int} (h : depositHook host.treasury token fee env w = .ok u w') :
    tracked w token + fee ≤ i128Max ∧ w.withTracked token (some (tracked w token + fee)) = w' ∨
      ¬(i128Min ≤ tracked w token + fee ∧ tracked w token + fee ≤ i128Max) ∧ w = w' := by
  rw [depositHook, tryCall_ok] at h
  by_cases hrange : i128Min ≤ tracked w token + fee ∧ tracked w token + fee ≤ i128Max
  · have hdeposit : TreasuryContract.deposit token fee env w =
        .ok () (w.withTracked token (some (tracked w token + fee))) := deposit_ok.mpr ⟨hrange, rfl⟩
    have hcall : callContract host.treasury "deposit" (do TreasuryContract.deposit token fee; pure 0) env w =
        .ok 0 (w.withTracked token (some (tracked w token + fee))) := by
      rw [callContract, if_neg host.treasury_ne_contract, if_pos rfl]
      exact bind_apply hdeposit
    rw [bind_apply hcall] at h
    exact .inl ⟨hrange.2, h⟩
  · refine .inr ⟨hrange, ?_⟩
    rw [callContract, if_neg host.treasury_ne_contract, if_pos rfl] at h
    cases hx : (do let _ ← (do TreasuryContract.deposit token fee; pure 0 : Contract host Int) : Contract host Unit)
        env w with
    | ok v t =>
        obtain ⟨_, _, hbody, -⟩ := bind_ok.mp hx
        obtain ⟨_, _, hdeposit, -⟩ := bind_ok.mp hbody
        exact absurd (deposit_ok.mp hdeposit).1 hrange
    | err e t => rwa [hx] at h
    | trap => rwa [hx] at h

/-- The deposit succeeds: what is booked is there, and what is there fits. -/
theorem depositHook_books (hfits : Fits env) {fee : Int} (hfee : 0 < fee) (hw : Backed host w)
    (hpay : Payable env w (feeTransfer host s host.treasury fee))
    (h : depositHook host.treasury s.token fee env (w.pay [feeTransfer host s host.treasury fee]) = .ok u w') :
    tracked w s.token + fee ≤ i128Max ∧
      (w.pay [feeTransfer host s host.treasury fee]).withTracked s.token (some (tracked w s.token + fee)) = w' := by
  have hroom := hfits _ _ hpay.2.2
  have hbalance : (w.balances.move (feeTransfer host s host.treasury fee)) s.token host.treasury =
      w.balances s.token host.treasury + fee := by
    simp [Balances.move, feeTransfer, host.treasury_ne_contract]
  have hold := hw.covered s.token
  have hnonneg := hw.nonneg s.token
  have hrange : i128Min ≤ tracked w s.token + fee ∧ tracked w s.token + fee ≤ i128Max := by
    change (w.balances.move (feeTransfer host s host.treasury fee)) s.token host.treasury ≤ i128Max at hroom
    rw [hbalance] at hroom
    have hmin : i128Min ≤ 0 := by decide
    omega
  rcases depositHook_cases h with ⟨hle, hbooked⟩ | ⟨hover, -⟩
  · exact ⟨hle, hbooked⟩
  · exact absurd hrange hover

theorem depositHook_elsewhere {a token : Address} (ha : a ≠ host.treasury) {fee : Int} :
    Keeps env (Tallied host 0) (depositHook a token fee) := by
  refine keeps_tryCall (keeps_bind ?_ fun _ => keeps_pure)
  have hsame : ∀ body, callContract a "deposit" body = (callContract a "deposit" halt : Contract host Int) := by
    intro body
    simp only [callContract, if_neg ha]
  rw [hsame]
  exact callContract_keeps foreign_tallied keeps_halt

/-- A claim pays the recipient, and then perhaps a treasury, which the hook follows. -/
theorem payClaim_cases {hook : FeeHook host} {amount : Int} (h : payClaim hook s claim env w = .ok amount w') :
    ∃ fee, w.pay (positive (claimTransfer host s (claim - fee))) = w' ∨
      ∃ a, 0 < fee ∧ Payable env (w.pay (positive (claimTransfer host s (claim - fee)))) (feeTransfer host s a fee) ∧
        hook a s.token fee env
          ((w.pay (positive (claimTransfer host s (claim - fee)))).pay [feeTransfer host s a fee]) = .ok () w' := by
  simp only [payClaim, ask, bind_ok, feeAmount_ok, ite_ok, read_ok, pure_ok] at h
  obtain ⟨fee, _, ⟨-, -, rfl⟩, _, w₁, hpay, hrest⟩ := h
  obtain ⟨-, rfl⟩ := transferPositive_ok.mp hpay
  refine ⟨fee, ?_⟩
  rcases hrest with ⟨hpos, treasury, _, ⟨-, rfl⟩, hrest⟩ | ⟨-, -, rfl⟩
  · cases treasury with
    | none => exact .inl (pure_ok.mp hrest).2
    | some a =>
        simp only [bind_ok, transfer_ok, pure_ok, and_assoc, exists_and_left, exists_eq_left', exists_const] at hrest
        obtain ⟨hsend, _, w₂, hhook, -, rfl⟩ := hrest
        exact .inr ⟨a, hpos, hsend, hhook⟩
  · exact .inl rfl

theorem claimTransfer_tallied (w : World) (s : Stream) (amount : Int) :
    Tallied host 0 w (w.pay (positive (claimTransfer host s amount))) := by
  refine .of_others rfl rfl (fun token => (pay_balances _ _ _ _).ge) ?_ ?_ ?_
  · exact fun t ht => mem_positive ht ▸ contract_ne_treasury
  · exact fun t ht => amount_nonneg_of_mem_positive ht
  · exact fun token => feesReceived_eq_zero fun t ht => mem_positive ht ▸ rfl

theorem feeTransfer_tallied {a : Address} {fee : Int} (ha : a ≠ host.treasury) (hfee : 0 ≤ fee) :
    Tallied host 0 w (w.pay [feeTransfer host s a fee]) := by
  refine .of_others rfl rfl (fun token => (pay_balances _ _ _ _).ge) ?_ ?_ ?_
  · exact fun t ht => List.mem_singleton.mp ht ▸ contract_ne_treasury
  · exact fun t ht => List.mem_singleton.mp ht ▸ hfee
  · intro token
    simp [feesReceived, feeTransfer, Cause.isFee, received_cons, ha]

theorem payClaim_deposits (hfits : Fits env) {amount : Int} (h : payClaim depositHook s claim env w = .ok amount w') :
    Tallied host 0 w w' := by
  obtain ⟨fee, rfl | ⟨a, hpos, hsend, hhook⟩⟩ := payClaim_cases h
  · exact claimTransfer_tallied w s _
  · have hclaim : Tallied host 0 w _ := claimTransfer_tallied w s (claim - fee)
    by_cases ha : a = host.treasury
    · subst ha
      intro hw
      obtain ⟨hroom, rfl⟩ := depositHook_books hfits hpos (hclaim hw).1 hsend hhook
      exact hclaim.before (booked_tallied hpos.le hroom) hw
    · exact hclaim.before ((feeTransfer_tallied ha hpos.le).before (depositHook_elsewhere ha hhook))

theorem batchWithdrawItem_tallied {recipient : Address} (hfits : Fits env)
    (h : batchWithdrawItem recipient id env w = .ok claim w') : Tallied host 0 w w' := by
  obtain ⟨s, w₁, -, -, -, -, -, hblock, hsettle⟩ := batchWithdrawItem_parts.mp h
  obtain ⟨out, us, hout, rfl⟩ := settleStream_ok.mp hsettle
  have hclaim : Tallied host 0 w w₁ := by
    obtain ⟨-, ⟨-, -, amount, v, hpay, hrest⟩ | ⟨-, rfl⟩⟩ := claimBlock_cases hblock
    · obtain ⟨-, rfl⟩ := pure_ok.mp hrest
      exact payClaim_deposits hfits hpay
    · exact .refl w₁
  exact hclaim.before (paid_tallied rfl rfl rfl hout.plain)

def StreamCall.silentClaim (env : Env host) (w : World) : StreamCall → Option (Stream × Int)
  | .withdraw id _ => do
      let s ← w.book.streams.lookup id
      let claim ← claimableAt s env.now
      pure (s, claim)
  | .transferRecipient id _ _ => do
      let s ← w.book.streams.lookup id
      let claim ← handOverClaim s (s.clock env.now)
      pure (s, claim)
  | _ => none

def StreamCall.stray (env : Env host) (w : World) (call : StreamCall) (token : Address) : Int :=
  match call.silentClaim env w with
  | some (s, claim) =>
      if 0 < claim ∧ Storage.getTreasury w = some host.treasury ∧ s.token = token then
        max (feeOf w s.recipient claim) 0
      else 0
  | none => 0

theorem StreamCall.stray_eq {call : StreamCall} (h : call.silentClaim env w = some (s, claim)) :
    call.stray env w = fun token => feesReceived host token (claimedTransfers host (w.awake env.now) s claim) := by
  funext token
  rw [StreamCall.stray, h, feesReceived_claimed]
  rfl

/-- The fee reaches the treasury contract without a deposit call. -/
def StreamCall.Strays (env : Env host) (w : World) (call : StreamCall) : Prop :=
  ∃ p ∈ call.silentClaim env w, Storage.getTreasury w = some host.treasury ∧
    Storage.isFeeExempt p.1.recipient w = false ∧ 10000 ≤ p.2 * Storage.getProtocolFee w

instance (env : Env host) (w : World) (call : StreamCall) : Decidable (call.Strays env w) :=
  inferInstanceAs (Decidable (∃ p ∈ _, _))

theorem StreamCall.stray_nonneg (call : StreamCall) (token : Address) : 0 ≤ call.stray env w token := by
  unfold StreamCall.stray
  split
  · split
    · exact le_max_right _ _
    · exact le_rfl
  · exact le_rfl

theorem StreamCall.stray_eq_zero {call : StreamCall} : call.stray env w = 0 ↔ ¬call.Strays env w := by
  unfold StreamCall.stray StreamCall.Strays
  cases call.silentClaim env w with
  | none => simp [funext_iff]
  | some p =>
      obtain ⟨s, claim⟩ := p
      constructor
      · rintro hzero ⟨p, hp, htreasury, hfee⟩
        obtain rfl := Option.mem_some_iff.mp hp
        have hpos : 0 < feeOf w s.recipient claim := feeOf_pos.mpr hfee
        have hclaim : 0 < claim := by
          have hbig := hfee.2
          exact pos_of_mul_pos_left (lt_of_lt_of_le (by decide) hbig) (Int.natCast_nonneg _)
        have hnone := congrFun hzero s.token
        simp only [hclaim, htreasury, and_self, if_true, Pi.zero_apply] at hnone
        exact absurd (le_max_left (feeOf w s.recipient claim) 0) (by rw [hnone]; exact not_le.mpr hpos)
      · intro hnone
        funext token
        simp only [Pi.zero_apply]
        split
        · next hcond =>
            refine max_eq_right (not_lt.mp fun hpos => hnone ⟨_, rfl, hcond.2.1, feeOf_pos.mp hpos⟩)
        · rfl

theorem awake_tallied (w : World) (now : Nat) : Tallied host 0 w (w.awake now) :=
  .of_quiet rfl rfl fun _ => le_rfl

theorem lock_plain (h : env.auths s.sender = true) (hpos : 0 ≤ s.deposit) : Plain host (lockTransfer host s) :=
  ⟨signer_ne_treasury h, hpos, rfl⟩

theorem batchCreateStream_tallied {a : BatchArgs} {ids : List StreamId} (h : batchCreateStream a env w = .ok ids w') :
    Tallied host 0 w w' := by
  obtain ⟨-, hb, hitems⟩ := batchCreateStream_ok h
  have hcount : Tallied host 0 w ((w.awake env.now).withBook (w.book.countBatch a.sender (a.nonce.val + 1))) :=
    silent_tallied rfl rfl rfl
  refine hcount.before (each_rel (Tallied host 0) .refl .before ?_ hitems)
  intro entry hentry v newId v' hitem
  obtain ⟨-, hpay, -, rfl⟩ := batchCreateItem_ok hitem
  refine paid_tallied rfl rfl rfl fun t ht => ?_
  rw [List.mem_singleton.mp ht]
  exact lock_plain hb.signed hpay.1

theorem batchCancelStream_tallied {ids : List StreamId} {sender : Address} {results : List (Except StreamError Unit)}
    (h : batchCancelStream ids sender env w = .ok results w') : Tallied host 0 w w' := by
  refine each_rel (Tallied host 0) .refl .before ?_ (batchCancelStream_ok h).2
  intro j _ v result v' hitem
  rcases batchCancelItem_cases hitem with rfl | ⟨r, amount, -, -, -, -, -, rfl⟩
  · exact .refl v
  · exact closed_tallied rfl rfl rfl

theorem streamCall_tallied {call : StreamCall} {ids : List StreamId}
    (hfits : ∀ ids recipient, call = .batchWithdraw ids recipient → Fits env)
    (h : call.exec env w = .ok ids w') : Tallied host (call.stray env w) w w' := by
  cases call with
  | createStream a =>
      obtain ⟨newId, _, h, -, rfl⟩ := bind_ok.mp h
      obtain ⟨-, -, fees, hc, rfl⟩ := createStream_ok h
      refine paid_tallied rfl rfl rfl fun t ht => ?_
      rcases List.mem_append.mp ht with ht | ht
      · obtain ⟨hpayer, hamount, hcause⟩ := creationFees_payer hc.fees_eq t ht
        exact ⟨hpayer ▸ signer_ne_treasury hc.opening.signed, hamount, by rw [hcause]; rfl⟩
      · rw [List.mem_singleton.mp ht]
        exact lock_plain hc.opening.signed hc.opening.funded.1.le
  | batchCreateStream a => exact batchCreateStream_tallied h
  | withdraw id recipient =>
      obtain ⟨_, _, h, -, rfl⟩ := bind_ok.mp h
      obtain ⟨-, s, claim, w₁, out, us, -, hwd, rfl⟩ := withdraw_ok h
      have hsilent : (StreamCall.withdraw id recipient).silentClaim env w = some (s, claim) := by
        have hstored : w.book.streams.lookup id = some s := hwd.stored
        have hclaimed : claimableAt s env.now = some claim := hwd.claimed
        simp [StreamCall.silentClaim, hstored, hclaimed]
      rw [StreamCall.stray_eq hsilent]
      have hpaid := claimed_tallied hwd.paid (hwd.cells rfl)
      exact ((awake_tallied w env.now).before hpaid).after (paid_tallied rfl rfl rfl hwd.settled.plain)
  | batchWithdraw ids recipient =>
      obtain ⟨_, _, h, -, rfl⟩ := bind_ok.mp h
      obtain ⟨-, hauth, hitems⟩ := batchWithdraw_ok h
      refine (awake_tallied w env.now).before (each_rel (Tallied host 0) .refl .before ?_ hitems)
      exact fun j _ v claim v' hitem => batchWithdrawItem_tallied (hfits ids recipient rfl) hitem
  | cancelStream id caller =>
      obtain ⟨_, _, h, -, rfl⟩ := bind_ok.mp h
      obtain ⟨-, s, amount, -, -, -, -, -, rfl⟩ := cancelStream_ok.mp h
      exact closed_tallied rfl rfl rfl
  | batchCancelStream ids sender =>
      obtain ⟨_, _, h, -, rfl⟩ := bind_ok.mp h
      exact batchCancelStream_tallied h
  | recipientTerminate id recipient =>
      obtain ⟨_, _, h, -, rfl⟩ := bind_ok.mp h
      obtain ⟨-, -, s, amount, -, -, -, -, -, -, rfl⟩ := recipientTerminate_ok.mp h
      exact closed_tallied rfl rfl rfl
  | transferRecipient id current recipient =>
      obtain ⟨_, _, h, -, rfl⟩ := bind_ok.mp h
      obtain ⟨-, s, claim, w₁, -, hh, rfl⟩ := transferRecipient_ok h
      have hsilent : (StreamCall.transferRecipient id current recipient).silentClaim env w = some (s, claim) := by
        have hstored : w.book.streams.lookup id = some s := hh.stored
        simp [StreamCall.silentClaim, hstored, hh.claimed]
      rw [StreamCall.stray_eq hsilent]
      exact ((awake_tallied w env.now).before (claimed_tallied hh.paid hh.cells)).after (silent_tallied rfl rfl rfl)
  | partialCancelStream id caller cancelAmount =>
      obtain ⟨newId, _, h, -, rfl⟩ := bind_ok.mp h
      obtain ⟨-, s, earned, streamed, -, -, hsplit, rfl⟩ := partialCancelStream_ok h
      refine paid_tallied rfl rfl rfl fun t ht => ?_
      rcases List.mem_append.mp ht with ht | ht
      · exact ⟨mem_positive ht ▸ contract_ne_treasury, amount_nonneg_of_mem_positive ht, mem_positive ht ▸ rfl⟩
      · rw [List.mem_singleton.mp ht]
        exact ⟨contract_ne_treasury, hsplit.refund.1, rfl⟩
  | topUp id caller token amount =>
      obtain ⟨_, _, h, -, rfl⟩ := bind_ok.mp h
      obtain ⟨-, s, -, ht, rfl⟩ := topUp_ok h
      refine paid_tallied rfl rfl rfl fun t ht' => ?_
      rw [List.mem_singleton.mp ht']
      exact ⟨signer_ne_treasury ht.signed, ht.payable.1, rfl⟩
  | pauseStream id sender =>
      obtain ⟨_, _, h, -, rfl⟩ := bind_ok.mp h
      obtain ⟨-, s, -, -, -, -, rfl⟩ := pauseStream_ok h
      exact silent_tallied rfl rfl rfl
  | resumeStream id sender =>
      obtain ⟨_, _, h, -, rfl⟩ := bind_ok.mp h
      obtain ⟨-, s, -, -, -, -, rfl⟩ := resumeStream_ok h
      exact silent_tallied rfl rfl rfl
  | archiveStream id caller =>
      obtain ⟨_, _, h, -, rfl⟩ := bind_ok.mp h
      obtain ⟨s, -, rfl⟩ := archiveStream_ok h
      exact silent_tallied rfl rfl rfl
  | delegate sender id operator =>
      obtain ⟨_, _, h, -, rfl⟩ := bind_ok.mp h
      obtain ⟨s, -, -, -, rfl⟩ := delegate_ok h
      exact silent_tallied rfl rfl rfl
  | revokeDelegate sender id =>
      obtain ⟨_, _, h, -, rfl⟩ := bind_ok.mp h
      obtain ⟨s, -, -, -, rfl⟩ := revokeDelegate_ok h
      exact silent_tallied rfl rfl rfl
  | updateMetadata sender id metadata =>
      obtain ⟨_, _, h, -, rfl⟩ := bind_ok.mp h
      obtain ⟨s, -, -, -, -, rfl⟩ := updateMetadata_ok h
      exact silent_tallied rfl rfl rfl
  | cancelAutoRenew sender id =>
      obtain ⟨_, _, h, -, rfl⟩ := bind_ok.mp h
      obtain ⟨s, -, -, -, rfl⟩ := cancelAutoRenew_ok h
      exact silent_tallied rfl rfl rfl

/-- Only the stream contract deposits, and token balances are i128. -/
def Event.Regular : Event host → Prop
  | .call env _ => Fits env
  | .treasury _ c => ∀ token amount, c ≠ .deposit token amount
  | .tokens _ _ => True

def Chain.Strays (c : Chain) : Event host → Prop
  | .call env (.stream call) => (call.exec env c.world).value?.isSome = true ∧ call.Strays env c.world
  | _ => False

instance : ∀ (c : Chain) (e : Event host), Decidable (c.Strays e)
  | _, .call _ (.stream _) => inferInstanceAs (Decidable (_ ∧ _))
  | _, .call _ (.config _) => .isFalse fun h => h
  | _, .call _ (.view _) => .isFalse fun h => h
  | _, .treasury _ _ => .isFalse fun h => h
  | _, .tokens _ _ => .isFalse fun h => h

/-- What one event leaves untracked: nothing, or what its call lets stray. -/
theorem step_tallied {e : Event host} (h : May c e) (hregular : e.Regular) : ∃ stray : Address → Int,
    Tallied host stray c.world (c.step e).world ∧ (∀ token, 0 ≤ stray token) ∧ (stray = 0 ↔ ¬c.Strays e) := by
  have hnothing : ∀ e : Event host, Tallied host 0 c.world (c.step e).world → ¬c.Strays e →
      ∃ stray : Address → Int, Tallied host stray c.world (c.step e).world ∧ (∀ token, 0 ≤ stray token) ∧
        (stray = 0 ↔ ¬c.Strays e) :=
    fun e htally hstay => ⟨0, htally, fun _ => le_rfl, iff_of_true rfl hstay⟩
  cases e with
  | call env call =>
      cases call with
      | stream call =>
          cases hx : call.exec env c.world with
          | ok ids t =>
              have hstep : (c.step (.call env (.stream call))).world = t := by simp [Chain.step, Call.exec, hx]
              have hstrays : c.Strays (.call env (.stream call)) ↔ call.Strays env c.world := by
                simp [Chain.Strays, hx, Outcome.value?]
              refine ⟨call.stray env c.world, ?_, call.stray_nonneg, call.stray_eq_zero.trans (not_congr hstrays.symm)⟩
              rw [hstep]
              exact streamCall_tallied (fun _ _ _ => hregular) hx
          | err e t =>
              refine hnothing _ ?_ fun hstrays => ?_
              · simpa [Chain.step, Call.exec, hx] using Tallied.refl c.world
              · simp [Chain.Strays, hx, Outcome.value?] at hstrays
          | trap =>
              refine hnothing _ ?_ fun hstrays => ?_
              · simpa [Chain.step, Call.exec, hx] using Tallied.refl c.world
              · simp [Chain.Strays, hx, Outcome.value?] at hstrays
      | config call =>
          exact hnothing _ (Keeps.commit (keeps_bind (configCall_tallied call) fun _ => keeps_pure) c.world) id
      | view v =>
          refine hnothing _ (Keeps.commit (keeps_bind ?_ fun _ => keeps_pure) c.world) id
          intro w _ w' hv
          exact view_silent v hv ▸ Tallied.refl w
  | treasury env call => exact hnothing _ (Keeps.commit (treasuryCall_releases hregular) c.world).tallied id
  | tokens time b => exact hnothing _ (.of_quiet rfl rfl fun token => (h.2 token).2) id

structure Vacant (host : Host) (w : World) : Prop where
  log : w.log = []
  books : ∀ token, tracked w token = 0
  vault : ∀ token, 0 ≤ w.balances token host.treasury
  share : TreasuryContract.readTreasurySplitBps w.treasury ≤ 10000

theorem Vacant.backed (h : Vacant host w) : Backed host w := by
  refine ⟨?_, ?_, ?_, h.share⟩
  · intro token
    rw [h.books]
  · intro token
    rw [h.books]
    exact h.vault token
  · intro token
    rw [h.books]
    decide

theorem Vacant.untracked (h : Vacant host w) (token : Address) : untracked host w token = 0 := by
  simp [SoroStream.untracked, h.log, h.books, feesReceived, paidOut]

/-- Along a run the books stay backed, and they are complete until a fee strays. -/
theorem untracked_of_run (hvacant : Vacant host c.world) (hrun : SystemRun host c events c')
    (hregular : ∀ e ∈ events, e.Regular) :
    Backed host c'.world ∧ (∀ token, 0 ≤ untracked host c'.world token) ∧
      ((∀ token, untracked host c'.world token = 0) ↔
        Throughout Chain.step (fun c e => ¬Chain.Strays c e) c events) := by
  have hboth : Run (fun c e => May c e ∧ e.Regular) Chain.step c events c' :=
    hrun.restrict fun es e es' heq hmay => ⟨hmay, hregular e (by simp [heq])⟩
  refine hboth.trace_inv (fun events c' => Backed host c'.world ∧ (∀ token, 0 ≤ untracked host c'.world token) ∧
    ((∀ token, untracked host c'.world token = 0) ↔
      Throughout Chain.step (fun c e => ¬Chain.Strays c e) c events)) ?_ ?_
  · exact ⟨hvacant.backed, fun token => (hvacant.untracked token).ge, iff_of_true hvacant.untracked trivial⟩
  · rintro es s e hr ⟨hbacked, hnonneg, hcomplete⟩ ⟨hmay, hfits⟩
    obtain ⟨stray, htally, hstray, hnone⟩ := step_tallied hmay hfits
    obtain ⟨hbacked', hsum⟩ := htally hbacked
    refine ⟨hbacked', ?_, ?_⟩
    · intro token
      rw [hsum]
      exact add_nonneg (hnonneg token) (hstray token)
    · rw [hr.throughout_snoc, ← hcomplete, ← hnone, funext_iff, ← forall_and]
      refine forall_congr' fun token => ?_
      rw [hsum]
      exact add_eq_zero_iff_of_nonneg (hnonneg token) (hstray token)

def collected (host : Host) (w : World) (token : Address) : Int :=
  feesReceived host token w.log - paidOut host token w.log

/-- The books are complete, and the admin can take out all fees or any part, if the
token moves them. -/
structure FeesTracked (host : Host) (w : World) : Prop where
  books : ∀ token, tracked w token = collected host w token
  all : ∀ (env : Env host) (token destination : Address), AdminCalls env w none →
    env.accepts w.balances (TreasuryContract.payout host token destination (collected host w token)) = true →
    ∃ w', TreasuryContract.withdrawAll none token destination env w = .ok (collected host w token) w' ∧
      w'.log = w.log ++ positive (TreasuryContract.payout host token destination (collected host w token))
  part : ∀ (env : Env host) (token destination : Address) (amount : Int), AdminCalls env w none →
    0 ≤ amount → amount ≤ collected host w token →
    env.accepts w.balances (TreasuryContract.payout host token destination amount) = true →
    ∃ w', TreasuryContract.withdrawTreasury none token amount destination env w = .ok () w' ∧
      w'.log = w.log ++ [TreasuryContract.payout host token destination amount]

theorem Backed.feesTracked (h : Backed host w) (hbooks : ∀ token, untracked host w token = 0) :
    FeesTracked host w := by
  have heq : ∀ token, tracked w token = collected host w token :=
    fun token => (sub_eq_zero.mp (hbooks token)).symm
  refine ⟨heq, ?_, ?_⟩
  · intro env token destination hadmin haccepts
    rw [← heq] at haccepts ⊢
    by_cases hpos : 0 < tracked w token
    · have hpay : Payable env w (TreasuryContract.payout host token destination (tracked w token)) :=
        ⟨hpos.le, h.covered token, haccepts⟩
      refine ⟨_, withdrawAll_ok.mpr ⟨hadmin, rfl, .inl ⟨hpos, hpay, rfl⟩⟩, ?_⟩
      have hmoves : 0 < (TreasuryContract.payout host token destination (tracked w token)).amount := hpos
      rw [positive, if_pos hmoves]
      rfl
    · refine ⟨w, withdrawAll_ok.mpr ⟨hadmin, rfl, .inr ⟨hpos, rfl⟩⟩, ?_⟩
      have hstays : ¬0 < (TreasuryContract.payout host token destination (tracked w token)).amount := hpos
      rw [positive, if_neg hstays, List.append_nil]
  · intro env token destination amount hadmin hnonneg hle haccepts
    rw [← heq] at hle
    have hroom : tracked w token - amount ≤ i128Max := (sub_le_self _ hnonneg).trans (h.bounded token)
    have hpay : Payable env w (TreasuryContract.payout host token destination amount) :=
      ⟨hnonneg, hle.trans (h.covered token), haccepts⟩
    exact ⟨_, withdrawTreasury_ok.mpr ⟨hadmin, hle, hroom, hpay, rfl⟩, rfl⟩

/-- The treasury contract tracks the fees it got, and can release them, exactly as
long as no successful `withdraw` or `transfer_recipient` charged one. -/
theorem fees_tracked_iff (hvacant : Vacant host c.world) (hrun : SystemRun host c events c')
    (hregular : ∀ e ∈ events, e.Regular) :
    FeesTracked host c'.world ↔ Throughout Chain.step (fun c e => ¬Chain.Strays c e) c events := by
  obtain ⟨hbacked, -, hcomplete⟩ := untracked_of_run hvacant hrun hregular
  rw [← hcomplete]
  constructor
  · intro h token
    exact sub_eq_zero.mpr (h.books token).symm
  · exact hbacked.feesTracked

namespace Sample

theorem genesis_vacant : Vacant site genesis.world :=
  ⟨rfl, fun _ => rfl, fun _ => by simp [genesis, site, party], by decide⟩

def sized (parties : List Nat) (time : U64) : Env site :=
  { signed parties time with accepts := fun b t => decide (b.move t t.token t.payee ≤ i128Max) }

theorem sized_fits (parties : List Nat) (time : U64) : Fits (sized parties time) :=
  fun _ _ h => of_decide_eq_true h

def charging : List (Event site) :=
  [.treasury (sized [7] 5) (.initializeTreasury (party 7)), .call (sized [7] 5) (.config (.setProtocolFee 500)),
    .call (sized [7] 5) (.config (.setTreasuryAddress (party 1))),
    .call (sized [2] 10) (.stream (.createStream (terms 0 0)))]

def batchFees : List (Event site) :=
  charging ++ [.call (sized [3] 1010) (.stream (.batchWithdraw [streamId] (party 3)))]

def singleFees : List (Event site) := charging ++ [.call (sized [3] 1010) (.stream (.withdraw streamId (party 3)))]

theorem charging_regular {e : Event site} (h : e ∈ charging) : e.Regular := by
  simp only [charging, List.mem_cons, List.not_mem_nil, or_false] at h
  rcases h with rfl | rfl | rfl | rfl
  · intro token amount heq
    exact TreasuryContract.Call.noConfusion heq
  · exact sized_fits _ _
  · exact sized_fits _ _
  · exact sized_fits _ _

end Sample

theorem sample_fees_tracked : FeesTracked Sample.site (Sample.genesis.after Sample.batchFees).world := by
  refine (fees_tracked_iff Sample.genesis_vacant (run_of_inOrder (by decide)) ?_).mpr (by decide +kernel)
  intro e he
  rcases List.mem_append.mp he with he | he
  · exact Sample.charging_regular he
  · rw [List.mem_singleton.mp he]
    exact Sample.sized_fits _ _

theorem withdraw_strays_fee :
    Vacant Sample.site Sample.genesis.world ∧
    SystemRun Sample.site Sample.genesis Sample.singleFees (Sample.genesis.after Sample.singleFees) ∧
    (∀ e ∈ Sample.singleFees, e.Regular) ∧
    (Sample.genesis.after Sample.singleFees).world.balances (Sample.party 9) (Sample.party 1) = 1250 ∧
    collected Sample.site (Sample.genesis.after Sample.singleFees).world (Sample.party 9) = 1250 ∧
    TreasuryContract.getBalance (Sample.genesis.after Sample.singleFees).world.treasury (Sample.party 9) = 0 ∧
    ¬FeesTracked Sample.site (Sample.genesis.after Sample.singleFees).world := by
  have hcollected : collected Sample.site (Sample.genesis.after Sample.singleFees).world (Sample.party 9) = 1250 := by
    decide +kernel
  have hbooks : tracked (Sample.genesis.after Sample.singleFees).world (Sample.party 9) = 0 := by decide +kernel
  refine ⟨Sample.genesis_vacant, run_of_inOrder (by decide), ?_, by decide +kernel, hcollected, hbooks, ?_⟩
  · intro e he
    rcases List.mem_append.mp he with he | he
    · exact Sample.charging_regular he
    · rw [List.mem_singleton.mp he]
      exact Sample.sized_fits _ _
  · intro h
    have heq := h.books (Sample.party 9)
    rw [hcollected, hbooks] at heq
    exact absurd heq (by decide)

end SoroStream
