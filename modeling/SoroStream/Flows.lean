import SoroStream.Apart
import SoroStream.FeeTracking
import SoroStream.Lib.Holding

namespace SoroStream

open Lib Lib.Rollback Lib.Rollback.Prog Lib.Runs Contract

variable {host : Host} {env : Env host} {w w' v : World} {c : Chain} {id : StreamId} {s q : Stream} {token : Address}
  {t : Transfer} {ts us : List Transfer} {claim amount : Int} {made : List Stream}

def outflow (host : Host) (token : Address) (ts : List Transfer) : Int :=
  spent host.contract token ts - received host.contract token ts

@[simp] theorem outflow_nil : outflow host token [] = 0 := rfl

@[simp] theorem outflow_append : outflow host token (ts ++ us) = outflow host token ts + outflow host token us := by
  simp only [outflow, spent_append, received_append]
  omega

theorem outflow_paid (htoken : t.token = token) (hpayer : t.payer = host.contract) (hpayee : t.payee ≠ host.contract)
    (hamount : 0 ≤ t.amount) : outflow host token (positive t) = t.amount := by
  by_cases hpos : 0 < t.amount
  · simp [outflow, positive, hpos, spent_cons, received_cons, htoken, hpayer, hpayee]
  · have hzero : t.amount = 0 := by omega
    simp [positive, hzero]

theorem outflow_kept (hpayer : t.payer = host.contract) (hpayee : t.payee = host.contract) :
    outflow host token (positive t) = 0 := by
  by_cases hpos : 0 < t.amount
  · simp [outflow, positive, hpos, spent_cons, received_cons, hpayer, hpayee]
  · simp [positive, hpos]

/-- Transfers of the stream's money; the creation fee is not its money. -/
def Cause.onAccount (id : StreamId) (cause : Cause) : Bool := decide (cause.stream? = some id ∧ cause ≠ .creationFee id)

def Cause.paysClaim (id : StreamId) (cause : Cause) : Bool := decide (cause = .claim id ∨ cause = .protocolFee id)

def onAccount (id : StreamId) (ts : List Transfer) : List Transfer := ts.filter fun t => t.cause.onAccount id

def claimPayments (id : StreamId) (ts : List Transfer) : List Transfer := ts.filter fun t => t.cause.paysClaim id

theorem onAccount_append : onAccount id (ts ++ us) = onAccount id ts ++ onAccount id us := List.filter_append ..

theorem onAccount_all (h : ∀ t ∈ ts, t.cause.stream? = some id ∧ t.cause ≠ .creationFee id) : onAccount id ts = ts :=
  List.filter_eq_self.mpr fun t ht => decide_eq_true (h t ht)

theorem onAccount_others (h : ∀ t ∈ ts, t.cause.stream? ≠ some id) : onAccount id ts = [] :=
  List.filter_eq_nil_iff.mpr fun t ht hon => h t ht (of_decide_eq_true hon).1

def retainedFee (host : Host) (w : World) (s : Stream) (claim : Int) : Int :=
  if (Storage.getTreasury w).getD host.contract = host.contract then feeOf w s.recipient claim else 0

theorem feeOf_zero (recipient : Address) : feeOf w recipient 0 = 0 := by
  unfold feeOf
  split
  · rw [zero_mul]
    rfl
  · rfl

theorem feeTransfers_outflow {fee : Int} (hfee : 0 ≤ fee) (treasury : Option Address) :
    outflow host s.token (feeTransfers host s treasury fee) =
      if treasury.getD host.contract = host.contract then 0 else fee := by
  cases treasury with
  | none => simp [feeTransfers]
  | some a =>
      rw [Option.getD_some]
      by_cases ha : a = host.contract
      · rw [if_pos ha]
        exact outflow_kept rfl ha
      · rw [if_neg ha]
        exact outflow_paid rfl rfl ha hfee

theorem claimed_outflow (hfee : FeeBounded w.config) (hclaim : 0 ≤ claim) (hrecipient : s.recipient ≠ host.contract) :
    outflow host s.token (claimedTransfers host w s claim) = claim - retainedFee host w s claim := by
  obtain ⟨hnonneg, hle⟩ := feeOf_bounds hfee hclaim s.recipient
  by_cases hpos : 0 < claim
  · have hshare : outflow host s.token (positive (claimTransfer host s (claim - feeOf w s.recipient claim))) =
        claim - feeOf w s.recipient claim := outflow_paid rfl rfl hrecipient (by simp only [claimTransfer]; omega)
    rw [claimedTransfers, if_pos hpos, claimTransfers, outflow_append, hshare, feeTransfers_outflow hnonneg,
      retainedFee]
    split <;> omega
  · have hzero : claim = 0 := by omega
    rw [claimedTransfers, if_neg hpos, hzero, retainedFee, feeOf_zero]
    simp

theorem claimedTransfers_paysClaim : ∀ t ∈ claimedTransfers host w s claim, t.cause.paysClaim s.id = true := by
  intro t ht
  obtain ⟨-, rfl | ⟨a, rfl⟩⟩ := mem_claimedTransfers ht
  · exact decide_eq_true (.inl rfl)
  · exact decide_eq_true (.inr rfl)

theorem Settlement.notCreationFee {now : Nat} {looks : Bool} {out : Option Stream}
    (h : Settlement env w now looks s out us) : ∀ t ∈ us, ∀ id, t.cause ≠ .creationFee id := by
  rintro t ht id
  obtain ⟨-, rfl | ⟨rfl, -⟩⟩ := h.mem_transfers ht
  · simp [dustTransfer]
  · simp [renewalTransfer]

theorem Settlement.paysNoClaim {now : Nat} {looks : Bool} {out : Option Stream}
    (h : Settlement env w now looks s out us) : ∀ t ∈ us, ∀ id, t.cause.paysClaim id = false := by
  intro t ht id
  obtain ⟨-, rfl | ⟨rfl, -⟩⟩ := h.mem_transfers ht
  · simp [Cause.paysClaim, dustTransfer]
  · simp [Cause.paysClaim, renewalTransfer]

theorem retainedFee_eq_zero_iff (hclaim : 0 ≤ feeOf w s.recipient claim) : retainedFee host w s claim = 0 ↔
    Storage.isFeeExempt s.recipient w = true ∨ claim * Storage.getProtocolFee w < 10000 ∨
      ∃ a, Storage.getTreasury w = some a ∧ a ≠ host.contract := by
  have hfee : feeOf w s.recipient claim = 0 ↔
      Storage.isFeeExempt s.recipient w = true ∨ claim * Storage.getProtocolFee w < 10000 := by
    have hpos := @feeOf_pos w claim s.recipient
    constructor
    · intro hzero
      have hnot := mt hpos.mpr (by omega : ¬0 < feeOf w s.recipient claim)
      rcases Bool.eq_false_or_eq_true (Storage.isFeeExempt s.recipient w) with hexempt | hexempt
      · exact .inl hexempt
      · exact .inr (not_le.mp fun hle => hnot ⟨hexempt, hle⟩)
    · intro hsmall
      by_contra hne
      obtain ⟨hexempt, hle⟩ := hpos.mp (by omega)
      rcases hsmall with hsmall | hsmall
      · exact Bool.noConfusion (hexempt.symm.trans hsmall)
      · omega
  unfold retainedFee
  cases ht : Storage.getTreasury w with
  | none => simp [hfee]
  | some a =>
      by_cases ha : a = host.contract
      · simp [ha, hfee]
      · simp [ha]

theorem retainedFee_nonneg (hfee : FeeBounded w.config) (hclaim : 0 ≤ claim) : 0 ≤ retainedFee host w s claim := by
  unfold retainedFee
  split
  · exact (feeOf_bounds hfee hclaim s.recipient).1
  · exact le_rfl

/-- Where a treasury is set or the fee is 0, a fee is retained only by a treasury that is
the contract itself. -/
theorem retainedFee_eq_zero_iff_self (hfee : FeeBounded w.config) (hclaim : 0 ≤ claim)
    (hset : Storage.getProtocolFee w = 0 ∨ (Storage.getTreasury w).isSome) : retainedFee host w s claim = 0 ↔
      (Storage.getTreasury w = some host.contract →
        Storage.isFeeExempt s.recipient w = true ∨ claim * Storage.getProtocolFee w < 10000) := by
  rw [retainedFee_eq_zero_iff (feeOf_bounds hfee hclaim s.recipient).1]
  constructor
  · rintro (hexempt | hsmall | ⟨a, ha, hne⟩) hself
    · exact .inl hexempt
    · exact .inr hsmall
    · exact absurd (Option.some.inj (ha.symm.trans hself)) hne
  · intro hself
    by_cases htreasury : Storage.getTreasury w = some host.contract
    · rcases hself htreasury with hexempt | hsmall
      · exact .inl hexempt
      · exact .inr (.inl hsmall)
    · rcases hset with hrate | hsome
      · refine .inr (.inl ?_)
        rw [hrate]
        simp
      · obtain ⟨a, ha⟩ := Option.isSome_iff_exists.mp hsome
        exact .inr (.inr ⟨a, ha, fun heq => htreasury (heq ▸ ha)⟩)

def SendersOutside (host : Host) (streams : Streams) : Prop :=
  ∀ id s, streams.lookup id = some s → s.sender ≠ host.contract

theorem Settlement.sender_eq {now : Nat} {looks : Bool} (h : Settlement env w now looks s (some q) us) :
    q.sender = s.sender := by
  cases h <;> rfl

/-- What holds of whoever signs holds of the sender of every record. -/
theorem action_signers {p : Address → Prop} (hsigned : ∀ a, env.auths a = true → p a) {b : Book}
    (h : Action env w made b ts) (hw : Holding (fun s => p s.sender) w.book.streams) :
    Holding (fun s => p s.sender) b.streams := by
  cases h with
  | nonceMarked | batchCounted | delegated => exact hw
  | opened s duration fees h => exact hw.insert (hsigned _ h.signed) s.id
  | withdrawn single id s claim w₁ out us h =>
      cases out with
      | none => exact hw.erase id
      | some q =>
          have hq : p q.sender := h.settled.sender_eq ▸ hw id s h.stored
          exact hw.insert hq q.id
  | handedOver id s claim w₁ recipient h =>
      have hsender : ({ s.advance claim (s.clock env.now) with recipient := recipient } : Stream).sender = s.sender :=
        advance_sender s claim (s.clock env.now)
      have hq : p ({ s.advance claim (s.clock env.now) with recipient := recipient } : Stream).sender :=
        hsender ▸ hw id s h.stored
      exact hw.insert hq _
  | closed id s | archived id s => exact hw.erase id
  | split id s cancelAmount earned streamed h =>
      have hcancelled : Holding (fun s => p s.sender) (w.book.streams.insert s.id { s with status := .cancelled }) :=
        hw.insert (a := { s with status := .cancelled }) (hw id s h.stored) s.id
      exact hcancelled.insert (a := splitSuccessor host id s _ _) (hw id s h.stored) _
  | toppedUp id s caller amount h => exact hw.insert (a := s.toppedUp _) (hw id s h.stored) _
  | paused id s hs => exact hw.insert (a := { s with status := .paused, lastPauseTime := env.now }) (hw id s hs) _
  | resumed id s hs => exact hw.insert (a := resumed s (env.now - s.lastPauseTime)) (hw id s hs) _
  | amended id s metadata autoRenew hs => exact hw.insert (a := { s with metadata, autoRenew }) (hw id s hs) _

theorem reached_signers {p : Address → Prop} (hsigned : ∀ (env : Env host) a, env.auths a = true → p a)
    (h : Reached host c) : Holding (fun s => p s.sender) c.world.book.streams := by
  refine reached_inv (fun _ w => Holding (fun s => p s.sender) w.book.streams) ?_ ?_ ?_ h
  · intro c hc
    rw [hc.book]
    exact .empty
  · intro now now' w w' hnow ha hw
    rwa [ha.book]
  · rintro env made w w' ⟨b, ts, w₁, ha, -, rfl⟩ hw
    exact action_signers (hsigned env) ha hw

theorem acted_senders (h : Acted env made w w') (hw : SendersOutside host w.book.streams) :
    SendersOutside host w'.book.streams := by
  obtain ⟨b, ts, w₁, ha, -, rfl⟩ := h
  exact action_signers (fun _ => signer_ne_contract) ha hw

theorem reached_senders (h : Reached host c) : SendersOutside host c.world.book.streams :=
  reached_signers (fun _ _ => signer_ne_contract) h

theorem acted_config (h : Acted env made w w') : w'.config = w.config := by
  obtain ⟨b, ts, w₁, -, hm, rfl⟩ := h
  exact hm.config

theorem acts_config (h : Acts env made w w') : w'.config = w.config := by
  induction h with
  | refl w => rfl
  | tail _ hlast ih => exact (acted_config hlast).trans ih

inductive Turn (env : Env host) (w : World) (id : StreamId) : World → World → Prop
  | withdraw {w' : World} (recipient : Address) (hok : withdraw id recipient env w = .ok () w') : Turn env w id w w'
  | batchItem {v w' : World} (before : List StreamId) (recipient : Address) (claims : List Int) (claim : Int)
      (hbefore : batchWithdraw before recipient env w = .ok claims v)
      (hok : batchWithdrawItem recipient id env v = .ok claim w') : Turn env w id v w'

structure Turned (env : Env host) (w v w' : World) (id : StreamId) (s : Stream) (claim : Int) (single : Bool)
    (w₁ : World) (out : Option Stream) (us : List Transfer) : Prop where
  stored : v.book.streams.lookup id = some s
  own : s.id = id
  sound : Sound env.now s
  sender : s.sender ≠ host.contract
  recipient : s.recipient ≠ host.contract
  active : s.status = .active
  claimed : claimFor single s env.now = some claim
  settled : Settlement env w₁ env.now single (s.checkpoint claim env.now) out us
  log : w'.log = v.log ++ (claimedTransfers host w s claim ++ us)
  book : w'.book = v.book.settle id (s.checkpoint claim env.now) out

theorem claimedTransfers_config (h : v.config = w.config) :
    claimedTransfers host v s claim = claimedTransfers host w s claim := by
  have hfee : feeOf v s.recipient claim = feeOf w s.recipient claim := by
    unfold feeOf Storage.getProtocolFee Storage.isFeeExempt
    rw [h]
  have htreasury : Storage.getTreasury v = Storage.getTreasury w := congrArg Config.treasury h
  rw [claimedTransfers, claimedTransfers, claimTransfers, claimTransfers, hfee, htreasury]

theorem withdrawal_turned {single : Bool} {w₁ : World} {out : Option Stream} (hw : Accounts env.now v.book.streams)
    (hsenders : SendersOutside host v.book.streams) (hconfig : v.config = w.config)
    (h : Withdrawal env v single id s claim w₁ out us) :
    Turned env w v (Withdrawal.result w₁ id s claim env.now out us) id s claim single w₁ out us := by
  obtain ⟨hid, hsound⟩ := hw id s h.stored
  refine ⟨h.stored, hid, hsound, hsenders id s h.stored, signer_ne_contract h.signed, h.active, h.claimed, h.settled,
    ?_, ?_⟩
  · rw [withdrawal_log h, claimedTransfers_config hconfig]
  · rw [Withdrawal.result, withBook_book, h.paid.book]

theorem withdraw_turned {recipient : Address} (hw : Accounts env.now w.book.streams)
    (hsenders : SendersOutside host w.book.streams) (h : withdraw id recipient env w = .ok () w') :
    ∃ s claim w₁ out us, Turned env w w w' id s claim true w₁ out us := by
  obtain ⟨-, s, claim, w₁, out, us, -, hwd, rfl⟩ := withdraw_ok h
  have hturned := withdrawal_turned (w := w) (v := w.awake env.now) hw hsenders rfl hwd
  exact ⟨s, claim, w₁, out, us, { hturned with }⟩

/-- What a batch keeps, if other streams' items keep it and each turn of this one does. -/
theorem batchWithdraw_turns (id : StreamId) (I : World → Prop) {ids : List StreamId} {recipient : Address}
    {claims : List Int} (hidle : ∀ {v v'}, Idle id v v' → I v → I v')
    (hturn : ∀ {v v' s claim w₁ out us}, Turned env w v v' id s claim false w₁ out us → I v → I v')
    (hw : Accounts env.now w.book.streams) (hsenders : SendersOutside host w.book.streams)
    (hstart : I (w.awake env.now)) (h : batchWithdraw ids recipient env w = .ok claims w') : I w' := by
  obtain ⟨-, hauth, hitems⟩ := batchWithdraw_ok h
  refine (each_inv (fun v => Accounts env.now v.book.streams ∧ SendersOutside host v.book.streams ∧
    v.config = w.config ∧ I v) ?_ ⟨hw, hsenders, rfl, hstart⟩ hitems).2.2.2
  rintro k - v claim v' ⟨haccounts, houtside, hconfig, hv⟩ hitem
  obtain ⟨r, w₁, out, us, -, hwd, rfl⟩ := batchWithdrawItem_ok hauth hitem
  have hacted := withdrawal_acted hwd
  refine ⟨acted_accounts hacted haccounts, acted_senders hacted houtside, (acted_config hacted).trans hconfig, ?_⟩
  by_cases hk : id = k
  · subst hk
    exact hturn (withdrawal_turned haccounts houtside hconfig hwd) hv
  · exact hidle (withdrawal_idle hwd (haccounts k r hwd.stored).1 hk) hv

theorem batchItem_turned {before : List StreamId} {recipient : Address} {claims : List Int}
    (hw : Accounts env.now w.book.streams) (hsenders : SendersOutside host w.book.streams)
    (hbefore : batchWithdraw before recipient env w = .ok claims v)
    (h : batchWithdrawItem recipient id env v = .ok claim w') :
    ∃ s w₁ out us, Turned env w v w' id s claim false w₁ out us := by
  have hacts := batchWithdraw_acts hbefore
  obtain ⟨-, hauth, -⟩ := batchWithdraw_ok hbefore
  obtain ⟨s, w₁, out, us, -, hwd, rfl⟩ := batchWithdrawItem_ok hauth h
  have haccounts : Accounts env.now v.book.streams :=
    hacts.inv (fun w => Accounts env.now w.book.streams) (fun _ _ _ => acted_accounts) hw
  have houtside : SendersOutside host v.book.streams :=
    hacts.inv (fun w => SendersOutside host w.book.streams) (fun _ _ _ => acted_senders) hsenders
  have hconfig : v.config = (w.awake env.now).config := acts_config hacts
  exact ⟨s, w₁, out, us, withdrawal_turned haccounts houtside hconfig hwd⟩

theorem Turn.turned (h : Turn env w id v w') (hw : Accounts env.now w.book.streams)
    (hsenders : SendersOutside host w.book.streams) :
    ∃ s claim single w₁ out us, Turned env w v w' id s claim single w₁ out us := by
  cases h with
  | withdraw recipient hok =>
      obtain ⟨s, claim, w₁, out, us, hturned⟩ := withdraw_turned hw hsenders hok
      exact ⟨s, claim, true, w₁, out, us, hturned⟩
  | batchItem before recipient claims claim hbefore hok =>
      obtain ⟨s, w₁, out, us, hturned⟩ := batchItem_turned hw hsenders hbefore hok
      exact ⟨s, claim, false, w₁, out, us, hturned⟩

section

variable {single : Bool} {w₁ : World} {out : Option Stream}

namespace Turned

theorem lookup (h : Turned env w v w' id s claim single w₁ out us) :
    w'.book.streams.lookup id = out := by
  rw [h.book]
  exact h.settled.lookup h.own v.book

theorem onAccount_eq (h : Turned env w v w' id s claim single w₁ out us) :
    onAccount id (claimedTransfers host w s claim ++ us) = claimedTransfers host w s claim ++ us := by
  have hid := h.own
  subst hid
  refine onAccount_all ?_
  intro t ht
  rcases List.mem_append.mp ht with ht | ht
  · refine ⟨claimedTransfers_cause t ht, ?_⟩
    rintro hcause
    have hclaim := of_decide_eq_true (claimedTransfers_paysClaim t ht)
    simp [hcause] at hclaim
  · exact ⟨h.settled.cause t ht, h.settled.notCreationFee t ht s.id⟩

/-- At the end of the stream a claim is all that has flowed since the checkpoint. -/
theorem claim_due (h : Turned env w v w' id s claim single w₁ out us) (hend : s.endTime ≤ env.now) :
    claim = s.flowRate * ((s.endTime : Int) - s.lastWithdrawTime) := by
  have hflow : flowed s env.now = s.flowRate * ((s.endTime : Int) - s.lastWithdrawTime) := by
    rw [flowed_eq h.sound.toAccounted (h.sound.active h.active), min_eq_right hend]
  have hclaim := h.claimed
  cases single with
  | false => exact (earnedAt_eq hclaim).trans hflow
  | true =>
      have hopen := claimableAt_eq hclaim
      rw [if_neg (not_lt.mpr (h.sound.cliff.trans hend))] at hopen
      exact hopen.trans hflow

theorem claim_nonneg (h : Turned env w v w' id s claim single w₁ out us) : 0 ≤ claim :=
  SoroStream.claim_nonneg h.sound.toAccounted (claimFor_cases h.claimed)

theorem dust_eq (h : Turned env w v w' id s claim single w₁ out us) :
    dustOf (s.checkpoint claim env.now) = s.deposit - s.flowRate * ((s.endTime : Int) - s.startTime) := by
  change dustOf s = _
  exact dustOf_eq h.sound

end Turned

end

end SoroStream
