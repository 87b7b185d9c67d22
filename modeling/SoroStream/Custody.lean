import SoroStream.Apart
import SoroStream.Governance
import SoroStream.Solvency
import SoroStream.Vault

namespace SoroStream

open Lib Lib.Rollback Lib.Rollback.Prog Lib.Runs Contract

variable {host : Host} {env : Env host} {w w' w'' v : World} {c c' : Chain} {id : StreamId} {s : Stream} {t : Transfer}
  {ts us : List Transfer} {claim amount : Int} {e : Event host} {events : List (Event host)}

/-- Who is paid for what: the recipient a claim, the sender a refund or the dust, the treasury
a fee. -/
inductive Entitled (treasury : Option Address) (s : Stream) : Cause → Address → Prop
  | claim : Entitled treasury s (.claim s.id) s.recipient
  | refund : Entitled treasury s (.refund s.id) s.sender
  | dust : Entitled treasury s (.dust s.id) s.sender
  | protocolFee (a : Address) (h : treasury = some a) : Entitled treasury s (.protocolFee s.id) a

/-- What the contract holds for a stream goes to one of its two parties, or as a fee to the
treasury. A batch may come to a stream again once it has renewed, and then has the new deposit
to pay from. -/
structure Owed (host : Host) (w : World) (t : Transfer) (s : Stream) : Prop where
  stored : w.book.streams.lookup s.id = some s
  payer : t.payer = host.contract
  token : t.token = s.token
  entitled : Entitled w.config.treasury s t.cause t.payee
  nonneg : 0 ≤ t.amount
  deposited : t.amount ≤ s.deposit
  left : s.autoRenew = false → t.amount ≤ s.remaining

/-- The treasury contract pays when its admin says so, who may be the stream contract at the
word of its own admin. -/
structure Disbursed (env : Env host) (w : World) (t : Transfer) : Prop where
  payer : t.payer = host.treasury
  ordered : AdminCalls env w none ∨ AdminCalls env w (some host.contract) ∧ SignedByAdmin env w.config

inductive Warranted (env : Env host) (w : World) (t : Transfer) : Prop
  | signed (h : env.auths t.payer = true)
  | owed (s : Stream) (h : Owed host w t s)
  | disbursed (h : Disbursed env w t)

def Due (env : Env host) (w : World) (t : Transfer) : Prop := env.auths t.payer = true ∨ ∃ s, Owed host w t s

theorem Due.warranted (h : Due env w t) : Warranted env w t := by
  rcases h with hsigned | ⟨s, howed⟩
  · exact .signed hsigned
  · exact .owed s howed

def Dues (env : Env host) (w w' : World) : Prop := ∃ ts, w'.log = w.log ++ ts ∧ ∀ t ∈ ts, Due env w t

theorem Dues.of_log (hlog : w'.log = w.log) : Dues env w w' := ⟨[], by simp [hlog], by simp⟩

theorem Stream.remaining_le_deposit {now : Nat} (h : Sound now s) : s.remaining ≤ s.deposit := by
  have hwithdrawn := h.withdrawn_nonneg
  rw [Stream.remaining]
  omega

section

variable (hs : w.book.streams.lookup s.id = some s) (hsound : Sound env.now s)
include hs hsound

theorem owed_due (hpayer : t.payer = host.contract) (htoken : t.token = s.token)
    (hentitled : Entitled w.config.treasury s t.cause t.payee) (hpos : 0 ≤ t.amount) (hle : t.amount ≤ s.remaining) :
    Due env w t :=
  .inr ⟨s, hs, hpayer, htoken, hentitled, hpos, hle.trans (Stream.remaining_le_deposit hsound), fun _ => hle⟩

theorem claimed_due (hfee : FeeBounded w.config) (hpos : 0 ≤ claim) (hle : claim ≤ s.remaining)
    (ht : t ∈ claimedTransfers host w s claim) : Due env w t := by
  obtain ⟨hnonneg, hfeeLe⟩ := feeOf_bounds hfee hpos s.recipient
  unfold claimedTransfers at ht
  split at ht
  · rcases List.mem_append.mp ht with ht | ht
    · obtain rfl := mem_positive ht
      exact owed_due hs hsound rfl rfl .claim (sub_nonneg.mpr hfeeLe) ((sub_le_self claim hnonneg).trans hle)
    · obtain ⟨-, a, htreasury, rfl⟩ := mem_feeTransfers ht
      exact owed_due hs hsound rfl rfl (.protocolFee a htreasury) hnonneg (hfeeLe.trans hle)
  · exact absurd ht List.not_mem_nil

theorem refund_due (hpos : 0 ≤ amount) (hle : amount ≤ s.remaining) : Due env w (refundTransfer host s amount) :=
  owed_due hs hsound rfl rfl .refund hpos hle

theorem share_due (hpos : 0 ≤ amount) (hle : amount ≤ s.remaining) : Due env w (claimTransfer host s amount) :=
  owed_due hs hsound rfl rfl .claim hpos hle

theorem closing_due (hpos : 0 ≤ amount) (hle : amount ≤ s.remaining) (ht : t ∈ closingTransfers host s amount) :
    Due env w t := by
  have hrefund := refundOf_eq hsound hpos hle
  rcases List.mem_append.mp ht with ht | ht
  · rw [mem_positive ht]
    exact share_due hs hsound hpos hle
  · rw [mem_positive ht, hrefund]
    exact refund_due hs hsound (sub_nonneg.mpr hle) (sub_le_self _ hpos)

theorem split_due {earned streamed cancelAmount : Int} (h : Split env w id s cancelAmount earned streamed)
    (ht : t ∈ splitTransfers host s earned cancelAmount) : Due env w t := by
  obtain ⟨hpos, hparts⟩ := h.parts_le hsound
  have hwanted := h.wanted
  have hleft := h.left
  have hrate := hsound.rate
  rcases List.mem_append.mp ht with ht | ht
  · rw [mem_positive ht]
    exact share_due hs hsound hpos (by omega)
  · rw [List.mem_singleton.mp ht]
    exact refund_due hs hsound hwanted.le (by omega)

/-- Dust goes back to the sender; a renewal is at the sender's own word. -/
theorem settled_due {now : Nat} {looks : Bool} {out : Option Stream}
    (h : Settlement env v now looks (s.checkpoint claim now) out us) (ht : t ∈ us) : Due env w t := by
  have hdust : dustOf s ≤ s.remaining := dustOf_eq hsound ▸ hsound.toAccounted.dust_le
  obtain ⟨hpos, rfl | ⟨rfl, hauth⟩⟩ := h.mem_transfers ht
  · exact owed_due hs hsound rfl rfl .dust hpos hdust
  · exact .inl hauth

end

theorem opened_due {duration : Nat} {fees : List Transfer} (h : Opening env s duration)
    (hfees : ∀ t ∈ fees, t.payer = s.sender ∧ 0 ≤ t.amount ∧ t.cause = .creationFee s.id)
    (ht : t ∈ fees ++ [lockTransfer host s]) : Due env w t := by
  rcases List.mem_append.mp ht with ht | ht
  · exact .inl ((hfees t ht).1 ▸ h.signed)
  · rw [List.mem_singleton.mp ht]
    exact .inl h.signed

structure Stream.SameParties (s s' : Stream) : Prop where
  id : s.id = s'.id
  sender : s.sender = s'.sender
  recipient : s.recipient = s'.recipient
  token : s.token = s'.token
  deposit : s.deposit = s'.deposit
  autoRenew : s.autoRenew = s'.autoRenew
  left : s.autoRenew = false → s'.remaining ≤ s.remaining

namespace Stream.SameParties

variable {s' s'' : Stream}

theorem refl (s : Stream) : s.SameParties s := ⟨rfl, rfl, rfl, rfl, rfl, rfl, fun _ => le_rfl⟩

theorem trans (h : s.SameParties s') (h' : s'.SameParties s'') : s.SameParties s'' where
  id := h.id.trans h'.id
  sender := h.sender.trans h'.sender
  recipient := h.recipient.trans h'.recipient
  token := h.token.trans h'.token
  deposit := h.deposit.trans h'.deposit
  autoRenew := h.autoRenew.trans h'.autoRenew
  left hauto := (h'.left (h.autoRenew ▸ hauto)).trans (h.left hauto)

theorem entitled {treasury : Option Address} {cause : Cause} {a : Address} (h : s.SameParties s')
    (hentitled : Entitled treasury s' cause a) : Entitled treasury s cause a := by
  cases hentitled with
  | claim => exact h.id ▸ h.recipient ▸ .claim
  | refund => exact h.id ▸ h.sender ▸ .refund
  | dust => exact h.id ▸ h.sender ▸ .dust
  | protocolFee _ ha => exact h.id ▸ .protocolFee a ha

end Stream.SameParties

structure Continues (env : Env host) (w w' : World) : Prop where
  config : w'.config = w.config
  parties : ∀ id s', w'.book.streams.lookup id = some s' → ∃ s, w.book.streams.lookup id = some s ∧ s.SameParties s'
  dues : Dues env w w'

namespace Continues

theorem refl (w : World) : Continues env w w := ⟨rfl, fun _ s hs => ⟨s, hs, .refl s⟩, .of_log rfl⟩

theorem due (h : Continues env w w') (ht : Due env w' t) : Due env w t := by
  rcases ht with hsigned | ⟨s', howed⟩
  · exact .inl hsigned
  · obtain ⟨s, hs, hsame⟩ := h.parties s'.id s' howed.stored
    refine .inr ⟨s, hsame.id ▸ hs, howed.payer, howed.token.trans hsame.token.symm, ?_, howed.nonneg,
      hsame.deposit ▸ howed.deposited, fun hauto => ?_⟩
    · exact hsame.entitled (h.config ▸ howed.entitled)
    · exact (howed.left (hsame.autoRenew ▸ hauto)).trans (hsame.left hauto)

theorem trans (h : Continues env w w') (h' : Continues env w' w'') : Continues env w w'' := by
  obtain ⟨ts, hts, hdue⟩ := h.dues
  obtain ⟨us, hus, hdue'⟩ := h'.dues
  refine ⟨h'.config.trans h.config, ?_, ts ++ us, by rw [hus, hts, List.append_assoc], ?_⟩
  · intro id s'' hs''
    obtain ⟨s', hs', hsame'⟩ := h'.parties id s'' hs''
    obtain ⟨s, hs, hsame⟩ := h.parties id s' hs'
    exact ⟨s, hs, hsame.trans hsame'⟩
  · intro t ht
    rcases List.mem_append.mp ht with ht | ht
    · exact hdue t ht
    · exact h.due (hdue' t ht)

end Continues

theorem Settlement.sameParties {now : Nat} {looks : Bool} {s' : Stream}
    (h : Settlement env w now looks s (some s') us) : s.SameParties s' := by
  cases h with
  | running => exact .refl s
  | renewed _ _ hauto => exact ⟨rfl, rfl, rfl, rfl, rfl, rfl, fun hnot => Bool.noConfusion (hauto.symm.trans hnot)⟩
  | lapsed => exact ⟨rfl, rfl, rfl, rfl, rfl, rfl, fun _ => le_rfl⟩

theorem checkpoint_sameParties {now : Nat} (hpos : 0 ≤ claim) : s.SameParties (s.checkpoint claim now) := by
  refine ⟨rfl, rfl, rfl, rfl, rfl, rfl, fun _ => ?_⟩
  rw [checkpoint_remaining hpos]
  exact sub_le_self _ hpos

theorem withdrawal_continues {single : Bool} {out : Option Stream} (h : Withdrawal env w single id s claim v out us)
    (hfee : FeeBounded w.config) (hid : s.id = id) (hsound : Sound env.now s) :
    Continues env w (Withdrawal.result v id s claim env.now out us) := by
  have hs : w.book.streams.lookup s.id = some s := hid ▸ h.stored
  have hpos : 0 ≤ claim := claim_nonneg hsound.toAccounted (claimFor_cases h.claimed)
  have hle : claim ≤ s.remaining := by
    rcases claimFor_cases h.claimed with rfl | rfl
    · exact hsound.toAccounted.flowed_le_remaining env.now
    · exact hsound.toAccounted.remaining_nonneg
  refine ⟨?_, ?_, claimedTransfers host w s claim ++ us, withdrawal_log h, ?_⟩
  · rw [Withdrawal.result, withBook_config, pay_config, h.paid.config]
  · intro j r hr
    rcases h.lookup_cases hid hr with ⟨rfl, rfl⟩ | hr
    · exact ⟨s, h.stored, (checkpoint_sameParties hpos).trans h.settled.sameParties⟩
    · exact ⟨r, hr, .refl r⟩
  · intro t ht
    rcases List.mem_append.mp ht with ht | ht
    · exact claimed_due hs hsound hfee hpos hle ht
    · exact settled_due hs hsound h.settled ht

theorem batchWithdraw_continues {ids : List StreamId} {recipient : Address} {claims : List Int}
    (hw : Accounts env.now w.book.streams) (hfee : FeeBounded w.config) (hauth : env.auths recipient = true)
    (h : each (batchWithdrawItem recipient) ids env w = .ok claims w') : Continues env w w' := by
  refine (each_inv (fun v => Accounts env.now v.book.streams ∧ Continues env w v) ?_ ⟨hw, .refl w⟩ h).2
  rintro j - v claim v' ⟨hacc, hv⟩ hitem
  obtain ⟨r, w₁, out, us, -, hwd, rfl⟩ := batchWithdrawItem_ok hauth hitem
  obtain ⟨hid, hsound⟩ := hacc j r hwd.stored
  exact ⟨acted_accounts (withdrawal_acted hwd) hacc,
    hv.trans (withdrawal_continues hwd (hv.config.symm ▸ hfee) hid hsound)⟩

theorem closed_continues (hs : w.book.streams.lookup id = some s) (hid : s.id = id) (hsound : Sound env.now s)
    (hpos : 0 ≤ amount) (hle : amount ≤ s.remaining) : Continues env w (closed host w id s amount) := by
  refine ⟨rfl, ?_, closingTransfers host s amount, rfl, fun t ht => closing_due (hid ▸ hs) hsound hpos hle ht⟩
  intro j r hr
  have hne : j ≠ id := by
    rintro rfl
    have hgone : (closed host w j s amount).book.streams.lookup j = none := Finmap.lookup_erase ..
    exact Option.some_ne_none r (hr.symm.trans hgone)
  exact ⟨r, (Finmap.lookup_erase_ne hne).symm.trans hr, .refl r⟩

theorem batchCancelStream_continues {ids : List StreamId} {sender : Address} {results : List (Except StreamError Unit)}
    (hw : Accounts env.now w.book.streams) (h : batchCancelStream ids sender env w = .ok results w') :
    Continues env w w' := by
  obtain ⟨-, hitems⟩ := batchCancelStream_ok h
  refine (each_inv (fun v => Accounts env.now v.book.streams ∧ Continues env w v) ?_ ⟨hw, .refl w⟩ hitems).2
  rintro j - v result v' ⟨hacc, hv⟩ hitem
  rcases batchCancelItem_cases hitem with rfl | ⟨r, amount, hr, -, -, hearned, -, rfl⟩
  · exact ⟨hacc, hv⟩
  · obtain ⟨hid, hsound⟩ := hacc j r hr
    obtain ⟨hpos, hle⟩ := hsound.closing_share (.inl hearned)
    exact ⟨hacc.erase _, hv.trans (closed_continues hr hid hsound hpos hle)⟩

theorem batchCreateStream_dues {a : BatchArgs} {ids : List StreamId} (h : batchCreateStream a env w = .ok ids w') :
    Dues env w w' := by
  obtain ⟨-, hb, hitems⟩ := batchCreateStream_ok h
  have hsigned : ∃ ts, w'.log = w.log ++ ts ∧ ∀ t ∈ ts, env.auths t.payer = true := by
    refine each_inv (fun v => ∃ ts, v.log = w.log ++ ts ∧ ∀ t ∈ ts, env.auths t.payer = true) ?_
      ⟨[], by simp, by simp⟩ hitems
    rintro entry - v newId v' ⟨ts, hts, hpayers⟩ hitem
    obtain ⟨-, -, -, rfl⟩ := batchCreateItem_ok hitem
    refine ⟨ts ++ [lockTransfer host (batchedStream a env.now entry)], ?_, ?_⟩
    · rw [withBook_log, pay_log, hts, List.append_assoc]
    · intro t ht
      rcases List.mem_append.mp ht with ht | ht
      · exact hpayers t ht
      · rw [List.mem_singleton.mp ht]
        exact hb.signed
  obtain ⟨ts, hts, hpayers⟩ := hsigned
  exact ⟨ts, hts, fun t ht => .inl (hpayers t ht)⟩

theorem Dues.of_awake {now : Nat} (h : Dues env (w.awake now) w') : Dues env w w' := by
  obtain ⟨ts, hts, hdue⟩ := h
  refine ⟨ts, hts, ?_⟩
  intro t ht
  rcases hdue t ht with hsigned | ⟨s, howed⟩
  · exact .inl hsigned
  · exact .inr ⟨s, { howed with }⟩

theorem streamCall_dues {call : StreamCall} {ids : List StreamId} (hw : Accounts env.now w.book.streams)
    (hfee : FeeBounded w.config) (h : call.exec env w = .ok ids w') : Dues env w w' := by
  cases call with
  | createStream a =>
      obtain ⟨newId, _, h, rfl, rfl⟩ := bind_ok.mp h
      obtain ⟨-, -, fees, hc, rfl⟩ := createStream_ok h
      exact ⟨_, rfl, fun t ht => opened_due hc.opening (creationFees_payer hc.fees_eq) ht⟩
  | batchCreateStream a => exact batchCreateStream_dues h
  | withdraw id recipient =>
      obtain ⟨_, _, h, -, rfl⟩ := bind_ok.mp h
      obtain ⟨-, s, claim, w₁, out, us, -, hwd, rfl⟩ := withdraw_ok h
      obtain ⟨hid, hsound⟩ := hw id s hwd.stored
      exact (withdrawal_continues hwd hfee hid hsound).dues.of_awake
  | batchWithdraw ids recipient =>
      obtain ⟨_, _, h, -, rfl⟩ := bind_ok.mp h
      obtain ⟨-, hauth, hitems⟩ := batchWithdraw_ok h
      exact (batchWithdraw_continues (w := w.awake env.now) hw hfee hauth hitems).dues.of_awake
  | cancelStream id caller =>
      obtain ⟨_, _, h, -, rfl⟩ := bind_ok.mp h
      obtain ⟨-, s, amount, hs, -, -, hearned, -, rfl⟩ := cancelStream_ok.mp h
      obtain ⟨hid, hsound⟩ := hw id s hs
      obtain ⟨hpos, hle⟩ := hsound.closing_share (.inl hearned)
      exact (closed_continues hs hid hsound hpos hle).dues
  | batchCancelStream ids sender =>
      obtain ⟨_, _, h, -, rfl⟩ := bind_ok.mp h
      exact (batchCancelStream_continues hw h).dues
  | recipientTerminate id recipient =>
      obtain ⟨_, _, h, -, rfl⟩ := bind_ok.mp h
      obtain ⟨-, -, s, amount, hs, -, -, -, hclaim, -, rfl⟩ := recipientTerminate_ok.mp h
      obtain ⟨hid, hsound⟩ := hw id s hs
      obtain ⟨hpos, hle⟩ := hsound.closing_share (.inr hclaim)
      exact (closed_continues (w := w.awake env.now) hs hid hsound hpos hle).dues.of_awake
  | transferRecipient id current recipient =>
      obtain ⟨_, _, h, -, rfl⟩ := bind_ok.mp h
      obtain ⟨-, s, claim, w₁, -, hh, rfl⟩ := transferRecipient_ok h
      obtain ⟨rfl, hsound⟩ := hw id s hh.stored
      have hpos : 0 ≤ claim := claim_nonneg hsound.toAccounted (handOverClaim_cases hh.claimed)
      have hle : claim ≤ s.remaining := by
        rcases handOverClaim_cases hh.claimed with rfl | rfl
        · exact hsound.toAccounted.flowed_le_remaining _
        · exact hsound.toAccounted.remaining_nonneg
      exact Dues.of_awake ⟨_, hh.paid.log, fun t ht => claimed_due hh.stored hsound hfee hpos hle ht⟩
  | partialCancelStream id caller cancelAmount =>
      obtain ⟨newId, _, h, rfl, rfl⟩ := bind_ok.mp h
      obtain ⟨-, s, earned, streamed, -, -, hsplit, rfl⟩ := partialCancelStream_ok h
      obtain ⟨rfl, hsound⟩ := hw id s hsplit.stored
      exact ⟨_, rfl, fun t ht => split_due hsplit.stored hsound hsplit ht⟩
  | topUp id caller token amount =>
      obtain ⟨_, _, h, -, rfl⟩ := bind_ok.mp h
      obtain ⟨-, s, -, htop, rfl⟩ := topUp_ok h
      refine ⟨_, rfl, ?_⟩
      intro t ht
      rw [List.mem_singleton.mp ht]
      exact .inl htop.signed
  | pauseStream id sender =>
      obtain ⟨_, _, h, -, rfl⟩ := bind_ok.mp h
      obtain ⟨-, s, -, -, -, -, rfl⟩ := pauseStream_ok h
      exact .of_log rfl
  | resumeStream id sender =>
      obtain ⟨_, _, h, -, rfl⟩ := bind_ok.mp h
      obtain ⟨-, s, -, -, -, -, rfl⟩ := resumeStream_ok h
      exact .of_log rfl
  | archiveStream id caller =>
      obtain ⟨_, _, h, -, rfl⟩ := bind_ok.mp h
      obtain ⟨s, -, rfl⟩ := archiveStream_ok h
      exact .of_log rfl
  | delegate sender id operator =>
      obtain ⟨_, _, h, -, rfl⟩ := bind_ok.mp h
      obtain ⟨s, -, -, -, rfl⟩ := delegate_ok h
      exact .of_log rfl
  | revokeDelegate sender id =>
      obtain ⟨_, _, h, -, rfl⟩ := bind_ok.mp h
      obtain ⟨s, -, -, -, rfl⟩ := revokeDelegate_ok h
      exact .of_log rfl
  | updateMetadata sender id metadata =>
      obtain ⟨_, _, h, -, rfl⟩ := bind_ok.mp h
      obtain ⟨s, -, -, -, -, rfl⟩ := updateMetadata_ok h
      exact .of_log rfl
  | cancelAutoRenew sender id =>
      obtain ⟨_, _, h, -, rfl⟩ := bind_ok.mp h
      obtain ⟨s, -, -, -, rfl⟩ := cancelAutoRenew_ok h
      exact .of_log rfl

def SameLog (w w' : World) : Prop := w'.log = w.log

instance : IsPreorder World SameLog where
  refl _ := rfl
  trans _ _ _ h h' := Eq.trans h' h

structure Forwarded (env : Env host) (w w' : World) : Prop where
  admin : w'.treasury.admin = w.treasury.admin
  log : ∃ ts, w'.log = w.log ++ ts ∧ ∀ t ∈ ts, t.payer = host.treasury ∧ AdminCalls env w (some host.contract)

namespace Forwarded

theorem quiet (hadmin : w'.treasury.admin = w.treasury.admin) (hlog : w'.log = w.log) : Forwarded env w w' :=
  ⟨hadmin, [], by simp [hlog], by simp⟩

theorem trans (h : Forwarded env w w') (h' : Forwarded env w' w'') : Forwarded env w w'' := by
  obtain ⟨ts, hts, hpaid⟩ := h.log
  obtain ⟨us, hus, hpaid'⟩ := h'.log
  refine ⟨h'.admin.trans h.admin, ts ++ us, by rw [hus, hts, List.append_assoc], ?_⟩
  intro t ht
  rcases List.mem_append.mp ht with ht | ht
  · exact hpaid t ht
  · obtain ⟨hpayer, a, ha, hcalls⟩ := hpaid' t ht
    exact ⟨hpayer, a, h.admin ▸ ha, hcalls⟩

instance : IsPreorder World (Forwarded env) where
  refl _ := quiet rfl rfl
  trans _ _ _ := trans

end Forwarded

theorem forwarded_beside : KeptBeside env (Forwarded env) where
  audit _ := keeps_update fun _ => .quiet rfl rfl
  wasm _ _ := .quiet rfl rfl
  foreign _ := .quiet rfl rfl
  withdraw token amount destination := by
    intro w _ w' h
    obtain ⟨hadmin, -, -, -, rfl⟩ := withdrawTreasury_ok.mp h
    refine ⟨rfl, _, rfl, ?_⟩
    intro t ht
    rw [List.mem_singleton.mp ht]
    exact ⟨rfl, hadmin⟩
  withdrawAll token destination := by
    intro w _ w' h
    obtain ⟨hadmin, -, ⟨-, -, rfl⟩ | ⟨-, rfl⟩⟩ := withdrawAll_ok.mp h
    · refine ⟨rfl, _, rfl, ?_⟩
      intro t ht
      rw [List.mem_singleton.mp ht]
      exact ⟨rfl, hadmin⟩
    · exact .quiet rfl rfl

def Disburses (env : Env host) (w w' : World) : Prop := ∃ ts, w'.log = w.log ++ ts ∧ ∀ t ∈ ts, Disbursed env w t

theorem SameLog.disburses (h : SameLog w w') : Disburses env w w' := ⟨[], by rw [h, List.append_nil], by simp⟩

/-- A configuration call moves tokens only where it is passed on to the treasury, and those
calls ask for the admin. -/
theorem configCall_disburses {k : ConfigCall} {u : Unit} (h : k.exec env w = .ok u w') : Disburses env w w' := by
  have hforwarded : Forwarded env w w' := configCall_keeps forwarded_beside
    (fun _ _ _ => keeps_update fun _ => .quiet rfl rfl) (fun _ _ => keeps_update fun _ => .quiet rfl rfl)
    (fun _ _ => keeps_update fun _ => .quiet rfl rfl) h
  obtain ⟨hgranted, -⟩ := configCall_ok h
  by_cases hk : k.Forwards
  · obtain ⟨ts, hts, hpaid⟩ := hforwarded.log
    have hsigned : SignedByAdmin env w.config := by
      cases k <;> first | exact hgranted | exact hk.elim
    exact ⟨ts, hts, fun t ht => ⟨(hpaid t ht).1, .inr ⟨(hpaid t ht).2, hsigned⟩⟩⟩
  · have hsame : SameLog w w' := configCall_keeps_of (fun _ _ => rfl) (fun hf => absurd hf hk)
      (fun _ _ => keeps_update fun _ => rfl) (fun _ _ _ => keeps_update fun _ => rfl)
      (fun _ _ => keeps_update fun _ => rfl) (fun _ _ => keeps_update fun _ => rfl) h
    exact hsame.disburses

theorem payout_disbursed {token destination : Address} (hadmin : AdminCalls env w none) :
    Disbursed env w (TreasuryContract.payout host token destination amount) :=
  ⟨rfl, .inl hadmin⟩

/-- So are the payouts of a call made at the treasury contract itself. -/
theorem treasuryCall_disburses {k : TreasuryContract.Call} {u : Unit} (h : k.exec none env w = .ok u w') :
    Disburses env w w' := by
  have hcells (f : TreasuryCells → TreasuryCells) : Keeps env SameLog (setTreasuryCells f) :=
    keeps_update fun _ => rfl
  have hadmin : Keeps env SameLog (TreasuryContract.checkAdmin none) := treasuryAdmin_keeps
  have hquiet {x : Contract host Unit} (hx : Keeps env SameLog x) (h : x env w = .ok u w') : Disburses env w w' :=
    SameLog.disburses (hx h)
  cases k with
  | initializeTreasury a =>
      exact hquiet (keeps_bind keeps_read fun _ => keeps_bind keeps_haltIf fun _ => hcells _) h
  | setAdmin a | setLpPool a => exact hquiet (keeps_bind hadmin fun _ => hcells _) h
  | deposit token amount =>
      exact hquiet (keeps_bind keeps_read fun _ => keeps_bind keeps_okOrHalt fun _ => hcells _) h
  | setTreasurySplit treasuryBps =>
      exact hquiet (keeps_bind hadmin fun _ => keeps_bind keeps_haltIf fun _ => hcells _) h
  | withdrawTreasury token amount destination =>
      obtain ⟨hcalls, -, -, -, rfl⟩ := withdrawTreasury_ok.mp h
      refine ⟨_, rfl, ?_⟩
      intro t ht
      rw [List.mem_singleton.mp ht]
      exact payout_disbursed hcalls
  | withdrawAll token destination =>
      obtain ⟨_, _, h, -, rfl⟩ := bind_ok.mp h
      obtain ⟨hcalls, -, ⟨-, -, rfl⟩ | ⟨-, rfl⟩⟩ := withdrawAll_ok.mp h
      · refine ⟨_, rfl, ?_⟩
        intro t ht
        rw [List.mem_singleton.mp ht]
        exact payout_disbursed hcalls
      · exact SameLog.disburses rfl
  | distribute token destination =>
      obtain ⟨_, _, h, -, rfl⟩ := bind_ok.mp h
      obtain ⟨hcalls, ⟨-, -, rfl⟩ | ⟨-, -, -, -, -, hrest⟩⟩ := distribute_ok.mp h
      · exact SameLog.disburses rfl
      have hshare : Disburses env w (w.shared host token destination) := by
        refine ⟨_, rfl, ?_⟩
        intro t ht
        rw [mem_positive ht]
        exact payout_disbursed hcalls
      rcases hrest with ⟨-, pool, -, -, rfl⟩ | ⟨-, rfl⟩
      · obtain ⟨ts, hts, hall⟩ := hshare
        refine ⟨ts ++ [TreasuryContract.payout host token pool (lpShare w token)], ?_, ?_⟩
        · rw [pay_log, hts, List.append_assoc]
        · intro t ht
          rcases List.mem_append.mp ht with ht | ht
          · exact hall t ht
          · rw [List.mem_singleton.mp ht]
            exact payout_disbursed hcalls
      · exact hshare

def Event.Warrants (w : World) (t : Transfer) : Event host → Prop
  | .call env _ | .treasury env _ => Warranted env w t
  | .tokens _ _ => False

/-- Every transfer that an event adds is warranted on the state before it. -/
def Chain.Warrants (c : Chain) (e : Event host) : Prop :=
  ∃ ts, (c.step e).world.log = c.world.log ++ ts ∧ ∀ t ∈ ts, e.Warrants c.world t

theorem step_warrants (hmay : May c e) (hw : Accounts c.now c.world.book.streams) (hfee : FeeBounded c.world.config) :
    c.Warrants e := by
  have hnothing : (c.step e).world.log = c.world.log → c.Warrants e := fun hlog => ⟨[], by simp [hlog], by simp⟩
  cases e with
  | call env k =>
      cases hx : k.exec env c.world with
      | ok ids w' =>
          have hworld : (c.step (.call env k)).world = w' := by simp [Chain.step, hx]
          cases k with
          | stream k =>
              obtain ⟨ts, hts, hdue⟩ := streamCall_dues (hw.mono hmay.1) hfee hx
              exact ⟨ts, hworld ▸ hts, fun t ht => (hdue t ht).warranted⟩
          | config k =>
              obtain ⟨_, _, hx, -, rfl⟩ := bind_ok.mp hx
              obtain ⟨ts, hts, hall⟩ := configCall_disburses hx
              exact ⟨ts, hworld ▸ hts, fun t ht => .disbursed (hall t ht)⟩
          | view v =>
              obtain ⟨_, _, hx, -, rfl⟩ := bind_ok.mp hx
              exact hnothing (hworld ▸ congrArg World.log (view_silent v hx).symm)
      | err | trap => exact hnothing (by simp [Chain.step, hx])
  | treasury env k =>
      cases hx : k.exec none env c.world with
      | ok u w' =>
          have hworld : (c.step (.treasury env k)).world = w' := by simp [Chain.step, hx]
          obtain ⟨ts, hts, hall⟩ := treasuryCall_disburses hx
          exact ⟨ts, hworld ▸ hts, fun t ht => .disbursed (hall t ht)⟩
      | err | trap => exact hnothing (by simp [Chain.step, hx])
  | tokens => exact hnothing rfl

def Event.SignedBy (a : Address) : Event host → Prop
  | .call env _ | .treasury env _ => env.auths a = true
  | .tokens _ _ => False

instance (a : Address) (e : Event host) : Decidable (e.SignedBy a) :=
  match e with
  | .call env _ | .treasury env _ => inferInstanceAs (Decidable (env.auths a = true))
  | .tokens _ _ => .isFalse fun h => h

theorem Chain.Warrants.unspent (h : c.Warrants e) {a : Address} (hcontract : a ≠ host.contract)
    (htreasury : a ≠ host.treasury) (hsigned : ¬e.SignedBy a) (token : Address) :
    spent a token (c.step e).world.log = spent a token c.world.log := by
  obtain ⟨ts, hts, hall⟩ := h
  have hnone : spent a token ts = 0 := by
    apply spent_eq_zero
    rintro t ht ⟨-, rfl⟩
    have hwarranted := hall t ht
    cases e with
    | call env | treasury env =>
        cases hwarranted with
        | signed h => exact hsigned h
        | owed s h => exact hcontract h.payer
        | disbursed h => exact htreasury h.payer
    | tokens => exact hwarranted
  rw [hts, spent_append, hnone, add_zero]

/-- No token moves without a warrant. In every run from a reached state each transfer is
signed for by whoever pays it, or is paid out of a stream's deposit, in its token: a claim to
its recipient, a refund or dust to its sender, a fee to the treasury; or it is paid by the
treasury contract at its admin's word. So whoever signs nothing pays nothing. -/
theorem transfers_warranted (hreached : Reached host c) (hrun : SystemRun host c events c') :
    Throughout Chain.step Chain.Warrants c events ∧
      ∀ a token, a ≠ host.contract → a ≠ host.treasury → (∀ e ∈ events, ¬e.SignedBy a) →
        spent a token c'.world.log = spent a token c.world.log := by
  induction hrun with
  | nil => exact ⟨trivial, fun _ _ _ _ _ => rfl⟩
  | @snoc es d e hr hm ih =>
      obtain ⟨hbefore, hunspent⟩ := ih
      have hsolvent := reached_solvent (hreached.run hr)
      have hlast := step_warrants hm hsolvent.accounts hsolvent.fees
      refine ⟨(hr.throughout_snoc e).mpr ⟨hbefore, hlast⟩, ?_⟩
      intro a token hcontract htreasury hsigned
      rw [hlast.unspent hcontract htreasury (hsigned e (by simp)) token]
      exact hunspent a token hcontract htreasury fun e he => hsigned e (List.mem_append_left [_] he)

/-- Party 2 streams to party 3, who draws on it; then the stream is split. Party 4 has funds
but no part in it. -/
def Sample.tradedOn : List (Event Sample.site) :=
  [Sample.opening 0 0, Sample.call [3] 1010 (.withdraw Sample.streamId (Sample.party 3)),
    Sample.call [2] 1100 (.partialCancelStream Sample.streamId (Sample.party 2) ⟨30000, by decide⟩)]

theorem sample_transfers_warranted :
    Throughout Chain.step Chain.Warrants Sample.genesis Sample.tradedOn ∧
      spent (Sample.party 4) (Sample.party 9) (Sample.genesis.after Sample.tradedOn).world.log = 0 := by
  have hreached : Reached Sample.site Sample.genesis := ⟨_, [], Sample.genesis_fresh, .nil⟩
  have hrun : SystemRun Sample.site Sample.genesis Sample.tradedOn (Sample.genesis.after Sample.tradedOn) :=
    run_of_inOrder (by decide)
  obtain ⟨hall, hunspent⟩ := transfers_warranted hreached hrun
  exact ⟨hall, hunspent (Sample.party 4) (Sample.party 9) (by decide) (by decide) (by decide)⟩

end SoroStream
