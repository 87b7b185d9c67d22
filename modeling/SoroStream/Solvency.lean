import SoroStream.Accounting
import SoroStream.Lib.Escrow

namespace SoroStream

open Lib Lib.Rollback Lib.Rollback.Prog Lib.Runs Contract

variable {host : Host} {env : Env host} {w w' : World} {id : StreamId} {s : Stream} {now : Nat}
  {claim amount : Int} {streams : Streams} {token : Address} {made : List Stream}

def debt (token : Address) (s : Stream) : Int := if s.Live ∧ s.token = token then s.remaining else 0

def debts (streams : Streams) (token : Address) : Int := Escrow.total (debt token) streams

theorem debt_nonneg (h : Accounted now s) (token : Address) : 0 ≤ debt token s := by
  unfold debt
  split
  · exact h.remaining_nonneg
  · exact le_rfl

theorem debt_of_live (h : s.Live) (token : Address) :
    debt token s = if s.token = token then s.remaining else 0 := by
  simp [debt, h]

theorem debt_of_not_live (h : ¬s.Live) (token : Address) : debt token s = 0 := by
  simp [debt, h]

theorem debt_of_claim {s' : Stream} (hlive : s.Live) (hlive' : s'.Live) (htoken : s'.token = s.token)
    (hrest : s'.remaining = s.remaining - claim) :
    debt token s' = debt token s - if s.token = token then claim else 0 := by
  rw [debt_of_live hlive, debt_of_live hlive', hrest, htoken]
  by_cases ht : s.token = token
  · rw [if_pos ht, if_pos ht, if_pos ht]
  · rw [if_neg ht, if_neg ht, if_neg ht, sub_zero]

theorem debts_insert_le (h : Accounts now streams) (s : Stream) (token : Address) :
    debts (streams.insert s.id s) token ≤ debts streams token + debt token s :=
  Escrow.total_insert_le (fun b hb => debt_nonneg (h s.id b hb).2.toAccounted token) s

theorem debts_replace (h : streams.lookup id = some s) (hid : s.id = id) (s' : Stream) (hid' : s'.id = s.id)
    (token : Address) :
    debts (streams.insert s'.id s') token = debts streams token - debt token s + debt token s' := by
  rw [hid', hid]
  exact Escrow.total_replace h s'

theorem debts_erase (h : streams.lookup id = some s) (token : Address) :
    debts (streams.erase id) token = debts streams token - debt token s :=
  Escrow.total_erase h

theorem FeeBounded.rate_le (h : FeeBounded w.config) : Storage.getProtocolFee w ≤ 10000 := by
  unfold Storage.getProtocolFee
  cases hf : w.config.protocolFee with
  | none => simp
  | some f => exact h.current f hf

theorem feeOf_bounds (hfee : FeeBounded w.config) (hclaim : 0 ≤ claim) (recipient : Address) :
    0 ≤ feeOf w recipient claim ∧ feeOf w recipient claim ≤ claim := by
  have hrate := hfee.rate_le
  unfold feeOf
  split
  · have hprod : 0 ≤ claim * Storage.getProtocolFee w := Int.mul_nonneg hclaim (Int.natCast_nonneg _)
    rw [Int.tdiv_eq_ediv_of_nonneg hprod]
    refine ⟨Int.ediv_nonneg hprod (by omega), ?_⟩
    have hle : claim * Storage.getProtocolFee w ≤ claim * 10000 :=
      mul_le_mul_of_nonneg_left (by exact_mod_cast hrate) hclaim
    exact Int.ediv_le_of_le_mul (by omega) hle
  · exact ⟨le_rfl, hclaim⟩

theorem feeTransfers_spent (host : Host) (s : Stream) (token : Address) (t : Option Address) {fee : Int}
    (hfee : 0 ≤ fee) : spent host.contract token (feeTransfers host s t fee) ≤ if s.token = token then fee else 0 := by
  by_cases ht : s.token = token
  · cases t with
    | none => simpa [feeTransfers, ht] using hfee
    | some a => simp [feeTransfers, feeTransfer, spent_positive, ht, hfee]
  · cases t with
    | none => simp [feeTransfers, ht]
    | some a => simp [feeTransfers, feeTransfer, spent_positive, ht]

theorem claimedTransfers_spent (host : Host) (s : Stream) (token : Address) (hfee : FeeBounded w.config)
    (hclaim : 0 ≤ claim) :
    spent host.contract token (claimedTransfers host w s claim) ≤ if s.token = token then claim else 0 := by
  obtain ⟨hnonneg, hle⟩ := feeOf_bounds hfee hclaim s.recipient
  unfold claimedTransfers
  by_cases hpos : 0 < claim
  · have hfees := feeTransfers_spent host s token (Storage.getTreasury w) hnonneg
    rw [if_pos hpos]
    simp only [claimTransfers, claimTransfer, spent_append, spent_positive, and_true]
    by_cases ht : s.token = token
    · rw [if_pos ht] at hfees ⊢
      rw [if_pos ht]
      omega
    · rw [if_neg ht] at hfees ⊢
      rw [if_neg ht]
      omega
  · rw [if_neg hpos, spent_nil]
    split <;> omega

theorem claimedTransfers_paid : ∀ t ∈ claimedTransfers host w s claim, t.payer = host.contract := by
  intro t ht
  obtain ⟨-, rfl | ⟨a, rfl⟩⟩ := mem_claimedTransfers ht
  · rfl
  · rfl

theorem claimedTransfers_nonneg : ∀ t ∈ claimedTransfers host w s claim, 0 ≤ t.amount :=
  fun _ ht => (mem_claimedTransfers ht).1.le

/-- The new debts are covered by the old ones and by what the transfers bring. -/
def Funded (host : Host) (w : World) (b : Book) (ts : List Transfer) : Prop :=
  ∀ token, debts b.streams token + spent host.contract token ts ≤
    debts w.book.streams token + received host.contract token ts

theorem funded_of_same {b : Book} (h : b.streams = w.book.streams) : Funded host w b [] := by
  intro token
  simp [h]

theorem funded_of_replace {b : Book} (hs : w.book.streams.lookup id = some s) (hid : s.id = id)
    (s' : Stream) (hid' : s'.id = s.id) (hb : b.streams = w.book.streams.insert s'.id s')
    (hdebt : ∀ token, debt token s' = debt token s) : Funded host w b [] := by
  intro token
  rw [hb, debts_replace hs hid s' hid', hdebt]
  simp

theorem opened_funded {duration : Nat} {fees : List Transfer} (h : Opening env s duration)
    (hw : Accounts env.now w.book.streams)
    (hfees : ∀ t ∈ fees, t.payer = s.sender ∧ 0 ≤ t.amount ∧ t.cause = .creationFee s.id) :
    Funded host w (w.book.add s) (fees ++ [lockTransfer host s]) := by
  intro token
  have hne := signer_ne_contract h.signed
  have hspent : spent host.contract token fees = 0 := by
    refine List.sum_eq_zero ?_
    intro x hx
    obtain ⟨t, ht, rfl⟩ := List.mem_map.mp hx
    rw [if_neg]
    rintro ⟨-, hp⟩
    exact hne ((hfees t ht).1.symm.trans hp)
  have hreceived : 0 ≤ received host.contract token fees := received_nonneg fun t ht => (hfees t ht).2.1
  have hins := debts_insert_le hw s token
  have hlive : s.Live := .inl h.active
  rw [debt_of_live hlive, Stream.remaining, h.untouched.2.2] at hins
  simp only [Book.add_streams, spent_append, received_append, hspent, spent_cons, received_cons, spent_nil,
    received_nil, lockTransfer, hne, and_false, if_false, and_true]
  split at hins <;> simp_all <;> omega

theorem dustOf_eq (h : Sound now s) : dustOf s = s.deposit - s.flowRate * ((s.endTime : Int) - s.startTime) := by
  have horder := h.started.trans h.stopped
  have hcast : ((s.endTime - s.startTime : Nat) : Int) = s.endTime - s.startTime := by omega
  have hprod : 0 ≤ s.flowRate * ((s.endTime : Int) - s.startTime) :=
    Int.mul_nonneg (by have := h.rate; omega) (by omega)
  have hfund := h.funded
  have hmax := h.deposit_max
  have hmin : i128Min ≤ 0 := by decide
  have hmul : saturatingMulI128 s.flowRate ((s.endTime - s.startTime : Nat) : Int) =
      s.flowRate * ((s.endTime : Int) - s.startTime) := by
    rw [hcast]
    exact Checked.clamp_of_mem (by omega) (by omega)
  rw [dustOf, streamDust, hmul]
  exact Checked.clamp_of_mem (by omega) (by omega)

theorem Accounted.dust_le (h : Accounted now s) :
    s.deposit - s.flowRate * ((s.endTime : Int) - s.startTime) ≤ s.remaining := by
  have hflow := h.flowed_le 0
  have hnonneg := flowed_nonneg h.rate 0
  simp only [Stream.remaining]
  omega

theorem checkpoint_total (hclaim : 0 ≤ claim) (s : Stream) (t : Nat) :
    (s.checkpoint claim t).totalWithdrawn = s.totalWithdrawn + claim := by
  simp only [Stream.checkpoint, Stream.credit]
  split <;> omega

theorem checkpoint_remaining (hclaim : 0 ≤ claim) (s : Stream) (t : Nat) :
    (s.checkpoint claim t).remaining = s.remaining - claim := by
  simp only [Stream.remaining, Stream.checkpoint, Stream.credit]
  split <;> omega

theorem claim_nonneg (h : Accounted now s) {t : Nat} (hclaim : claim = flowed s t ∨ claim = 0) : 0 ≤ claim := by
  rcases hclaim with rfl | rfl
  · exact flowed_nonneg h.rate t
  · exact le_rfl

theorem dust_spent (host : Host) (h : Sound now s) (token : Address) :
    spent host.contract token (positive (dustTransfer host s)) ≤ if s.token = token then s.remaining else 0 := by
  have hdust := h.toAccounted.dust_le
  have hleft := h.toAccounted.remaining_nonneg
  rw [← dustOf_eq h] at hdust
  simp only [spent_positive, dustTransfer, and_true]
  by_cases ht : s.token = token
  · rw [if_pos ht, if_pos ht]
    exact max_le hdust hleft
  · rw [if_neg ht, if_neg ht]

/-- A settlement costs the contract no more than it takes off the debt. -/
theorem settlement_funded {looks : Bool} {out : Option Stream} {us : List Transfer}
    (h : Settlement env w now looks s out us) (hs : Sound now s) (hlive : s.Live) (token : Address) :
    out.elim 0 (debt token) + spent host.contract token us ≤ debt token s + received host.contract token us := by
  have hold := debt_of_live hlive token
  cases h with
  | running => exact le_rfl
  | renewed hend horder hauto hfunds hauth hpay hlimit =>
      have hnew : debt token s.renewed = if s.token = token then s.deposit - 0 else 0 :=
        debt_of_live (s := s.renewed) hlive token
      have hne : s.sender ≠ host.contract := signer_ne_contract hauth
      have hdebt := debt_nonneg hs.toAccounted token
      rw [Option.elim_some, hnew]
      simp only [spent_cons, received_cons, spent_nil, received_nil, renewalTransfer, hne, and_false, and_true,
        if_false]
      split <;> omega
  | lapsed =>
      have hdone : ¬({ s with status := .completed } : Stream).Live := by simp [Stream.Live]
      have hspent := dust_spent host hs token
      have hback : 0 ≤ received host.contract token (positive (dustTransfer host s)) :=
        received_nonneg fun t ht => amount_nonneg_of_mem_positive ht
      rw [Option.elim_some, debt_of_not_live hdone, hold]
      omega
  | finished =>
      have hspent := dust_spent host hs token
      have hback : 0 ≤ received host.contract token (positive (dustTransfer host s)) :=
        received_nonneg fun t ht => amount_nonneg_of_mem_positive ht
      rw [Option.elim_none, hold]
      omega

theorem debts_settle {b : Book} {q : Stream} {out : Option Stream} (hs : b.streams.lookup id = some s)
    (hid : s.id = id) (hout : ∀ s', out = some s' → s'.id = s.id) (token : Address) :
    debts (b.settle id q out).streams token = debts b.streams token - debt token s + out.elim 0 (debt token) := by
  cases out with
  | none =>
      rw [Book.settle, Book.close_streams, debts_erase hs, Option.elim_none, add_zero]
  | some s' =>
      rw [Book.settle, Book.save_streams, debts_replace hs hid s' (hout s' rfl), Option.elim_some]

theorem withdrawn_funded {single : Bool} {w₁ : World} {out : Option Stream} {us : List Transfer}
    (h : Withdrawal env w single id s claim w₁ out us) (hs : Sound env.now s) (hid : s.id = id)
    (hfee : FeeBounded w.config) :
    Funded host w (w.book.settle id (s.checkpoint claim env.now) out) (claimedTransfers host w s claim ++ us) := by
  intro token
  have hpos := claim_nonneg hs.toAccounted (claimFor_cases h.claimed)
  have hlive : (s.checkpoint claim env.now).Live := .inl h.active
  have hspent := claimedTransfers_spent host s token hfee hpos
  have hreceived : 0 ≤ received host.contract token (claimedTransfers host w s claim) :=
    received_nonneg claimedTransfers_nonneg
  have hsettled := settlement_funded h.settled (h.sound hs) hlive token
  have hclaimed : debt token (s.checkpoint claim env.now) = debt token s - if s.token = token then claim else 0 :=
    debt_of_claim (.inl h.active) hlive rfl (checkpoint_remaining hpos s env.now)
  have hout : ∀ s', out = some s' → s'.id = s.id := by
    rintro s' rfl
    exact h.settled.id_eq
  rw [debts_settle h.stored hid hout, spent_append, received_append]
  omega

theorem advance_remaining (hclaim : 0 ≤ claim) (s : Stream) (tau : Nat) :
    (s.advance claim tau).remaining = s.remaining - claim := by
  rw [Stream.advance]
  split
  · exact checkpoint_remaining hclaim s tau
  · omega

theorem advance_debt (hlive : s.Live) (hclaim : 0 ≤ claim) (tau : Nat) (recipient token : Address) :
    debt token { s.advance claim tau with recipient := recipient } =
      debt token s - if s.token = token then claim else 0 := by
  have hlive' : ({ s.advance claim tau with recipient := recipient } : Stream).Live := by
    rw [Stream.Live, advance_status]
    exact hlive
  have hrest : ({ s.advance claim tau with recipient := recipient } : Stream).remaining = s.remaining - claim :=
    advance_remaining hclaim s tau
  exact debt_of_claim hlive hlive' (advance_token s claim tau) hrest

theorem handedOver_funded {w₁ : World} {recipient : Address} (h : HandOver env w id s claim w₁ recipient)
    (hs : Sound env.now s) (hid : s.id = id) (hfee : FeeBounded w.config) :
    Funded host w (HandOver.book w.book id s claim (s.clock env.now) recipient) (claimedTransfers host w s claim) := by
  intro token
  have hpos := claim_nonneg hs.toAccounted (handOverClaim_cases h.claimed)
  have hspent := claimedTransfers_spent host s token hfee hpos
  have hreceived : 0 ≤ received host.contract token (claimedTransfers host w s claim) :=
    received_nonneg claimedTransfers_nonneg
  have hdebt := advance_debt h.live hpos (s.clock env.now) recipient token
  have hrep := debts_replace h.stored hid
    { s.advance claim (s.clock env.now) with recipient := recipient } (advance_id s claim _) token
  change debts (w.book.streams.insert _ _) token + _ ≤ _
  rw [hrep, hdebt]
  omega

theorem Sound.closing_share (h : Sound now s) (hamount : earnedAt s t = some amount ∨ claimableAt s t = some amount) :
    0 ≤ amount ∧ amount ≤ s.remaining := by
  rcases share_cases hamount with rfl | rfl
  · exact ⟨flowed_nonneg h.rate t, h.flowed_le_remaining t⟩
  · exact ⟨le_rfl, h.remaining_nonneg⟩

theorem refundOf_eq (h : Sound now s) (hpos : 0 ≤ amount) (hle : amount ≤ s.remaining) :
    refundOf s amount = s.remaining - amount := by
  have hmax := h.deposit_max
  have hwithdrawn := h.withdrawn_nonneg
  simp only [Stream.remaining] at hle ⊢
  have hmin : i128Min ≤ 0 := by decide
  have hfirst : saturatingSubI128 s.deposit s.totalWithdrawn = s.deposit - s.totalWithdrawn :=
    Checked.clamp_of_mem (by omega) (by omega)
  rw [refundOf, hfirst]
  exact Checked.clamp_of_mem (by omega) (by omega)

theorem closed_funded (hs : w.book.streams.lookup id = some s) (hlive : s.Live) (hsound : Sound now s)
    (hpos : 0 ≤ amount) (hle : amount ≤ s.remaining) :
    Funded host w (w.book.close id s) (closingTransfers host s amount) := by
  intro token
  have hreceived : 0 ≤ received host.contract token (closingTransfers host s amount) := by
    refine received_nonneg fun t ht => ?_
    rcases List.mem_append.mp ht with ht | ht <;> exact amount_nonneg_of_mem_positive ht
  have hrefund := refundOf_eq hsound hpos hle
  change debts (w.book.streams.erase _) token + _ ≤ _
  rw [debts_erase hs, debt_of_live hlive]
  simp only [closingTransfers, claimTransfer, refundTransfer, spent_append, spent_positive, hrefund, and_true]
    at hreceived ⊢
  by_cases ht : s.token = token
  · rw [if_pos ht, if_pos ht, if_pos ht]
    omega
  · rw [if_neg ht, if_neg ht, if_neg ht]
    omega

/-- What the successor holds, what the recipient and the sender get: together no
more than was left. The uncapped products do no harm here. -/
theorem Split.parts_le {earned streamed cancelAmount : Int} (h : Split env w id s cancelAmount earned streamed)
    (hs : Sound env.now s) :
    0 ≤ earned ∧ splitDeposit s streamed cancelAmount + earned + cancelAmount ≤ s.remaining := by
  obtain ⟨hafter, -⟩ := hs.clock h.live
  have hstart := hs.started
  have hrate := hs.rate
  obtain ⟨⟨-, hmaxE⟩, hearned⟩ := Checked.inRange_eq_some.mp h.earned_eq
  obtain ⟨⟨-, hmaxS⟩, hstreamed⟩ := Checked.inRange_eq_some.mp h.streamed_eq
  have hearned' : earned = s.flowRate * ((s.clock env.now : Int) - s.lastWithdrawTime) := by
    rw [← hearned, Nat.cast_sub hafter]
  have hstreamed' : streamed = s.flowRate * ((s.clock env.now : Int) - s.startTime) := by
    rw [← hstreamed, Nat.cast_sub (hstart.trans hafter)]
  have hsum : streamed = s.flowRate * ((s.lastWithdrawTime : Int) - s.startTime) + earned := by
    rw [hstreamed', hearned']
    ring
  have hpos : 0 ≤ earned := hearned' ▸ Int.mul_nonneg (by omega) (by omega)
  have hwithdrawn := hs.withdrawn_le
  have hnonneg := hs.withdrawn_nonneg
  have hdeposit := hs.toAccounted.deposit_nonneg
  have hmax := hs.deposit_max
  have hbounds : i128Min = -i128Max - 1 := by decide
  have hleft : saturatingSubI128 s.deposit streamed = s.deposit - streamed :=
    Checked.clamp_of_mem (by omega) (by omega)
  refine ⟨hpos, ?_⟩
  simp only [splitDeposit, hleft, Stream.remaining]
  omega

theorem split_funded {earned streamed cancelAmount : Int} (h : Split env w id s cancelAmount earned streamed)
    (hw : Accounts env.now w.book.streams) :
    Funded host w (splitBook host w.book id s (s.clock env.now) (splitDeposit s streamed cancelAmount))
      (splitTransfers host s earned cancelAmount) := by
  intro token
  obtain ⟨hid, hs⟩ := hw id s h.stored
  obtain ⟨hpos, hparts⟩ := h.parts_le hs
  have hwant := h.wanted
  have hdone := hs.withStatus .cancelled (by simp) (by simp)
  have hins := debts_insert_le (hw.insert hdone)
    (splitSuccessor host id s (s.clock env.now) (splitDeposit s streamed cancelAmount)) token
  have hrep := debts_replace h.stored hid { s with status := .cancelled } rfl token
  have hcancelled : ¬({ s with status := .cancelled } : Stream).Live := by simp [Stream.Live]
  rw [debt_of_not_live hcancelled, debt_of_live h.live] at hrep
  rw [debt_of_live (.inl rfl)] at hins
  have hreceived : 0 ≤ received host.contract token (splitTransfers host s earned cancelAmount) := by
    refine received_nonneg fun t ht => ?_
    rcases List.mem_append.mp ht with ht | ht
    · exact amount_nonneg_of_mem_positive ht
    · rw [List.mem_singleton.mp ht]
      exact hwant.le
  have hspent : spent host.contract token (splitTransfers host s earned cancelAmount) =
      if s.token = token then earned + cancelAmount else 0 := by
    simp only [splitTransfers, claimTransfer, refundTransfer, spent_append, spent_positive, spent_cons,
      spent_nil, and_true, max_eq_left hpos, add_zero]
    split <;> omega
  have hkept : (splitSuccessor host id s (s.clock env.now) (splitDeposit s streamed cancelAmount)).remaining =
      splitDeposit s streamed cancelAmount := by
    simp [splitSuccessor, successor, Stream.remaining]
  have htoken : (splitSuccessor host id s (s.clock env.now) (splitDeposit s streamed cancelAmount)).token =
      s.token := rfl
  rw [hkept, htoken] at hins
  change debts ((w.book.streams.insert _ _).insert _ _) token + _ ≤ _
  rw [hspent]
  by_cases ht : s.token = token
  · rw [if_pos ht] at hins hrep ⊢
    omega
  · rw [if_neg ht] at hins hrep ⊢
    omega

theorem toppedUp_funded {caller : Address} (h : TopUp env w id s caller amount) (hid : s.id = id) :
    Funded host w (w.book.save (s.toppedUp (topUpAmount s amount)))
      [topUpTransfer host s caller (topUpAmount s amount)] := by
  intro token
  have hne : caller ≠ host.contract := signer_ne_contract h.signed
  have hlive : (s.toppedUp (topUpAmount s amount)).Live := h.live
  have hrep := debts_replace h.stored hid (s.toppedUp (topUpAmount s amount)) rfl token
  rw [debt_of_live h.live, debt_of_live hlive] at hrep
  have hmore : (s.toppedUp (topUpAmount s amount)).remaining = s.remaining + topUpAmount s amount := by
    simp only [Stream.remaining, Stream.toppedUp]
    omega
  have htoken : (s.toppedUp (topUpAmount s amount)).token = s.token := rfl
  rw [hmore, htoken] at hrep
  change debts (w.book.streams.insert _ _) token + _ ≤ _
  simp only [spent_cons, received_cons, spent_nil, received_nil, topUpTransfer, hne, and_false, and_true, if_false]
  by_cases ht : s.token = token
  · rw [if_pos ht] at hrep ⊢
    rw [if_pos ht] at hrep
    omega
  · rw [if_neg ht] at hrep ⊢
    rw [if_neg ht] at hrep
    omega

theorem archived_funded (h : Archival env w id s) (hs : Accounted now s) :
    Funded host w ((w.book.close id s).setDelegate id none) [] := by
  intro token
  have hold := debt_nonneg hs token
  change debts (w.book.streams.erase _) token + _ ≤ _
  rw [debts_erase h.stored]
  simp only [spent_nil, received_nil]
  omega

theorem action_funded {b : Book} {ts : List Transfer} (h : Action env w made b ts)
    (hw : Accounts env.now w.book.streams) (hfee : FeeBounded w.config) : Funded host w b ts := by
  cases h with
  | nonceMarked | batchCounted | delegated => exact funded_of_same rfl
  | opened s duration fees h hfree hroom hfees => exact opened_funded h hw hfees
  | withdrawn single id s claim w₁ out us h =>
      obtain ⟨hid, hs⟩ := hw id s h.stored
      exact withdrawn_funded h hs hid hfee
  | handedOver id s claim w₁ recipient h =>
      obtain ⟨hid, hs⟩ := hw id s h.stored
      exact handedOver_funded h hs hid hfee
  | closed id s t amount hs hlive hamount hcov =>
      have hsound := (hw id s hs).2
      refine closed_funded hs hlive hsound (claim_nonneg hsound.toAccounted (share_cases hamount)) ?_
      rcases share_cases hamount with rfl | rfl
      · exact hsound.toAccounted.flowed_le_remaining t
      · exact hsound.toAccounted.remaining_nonneg
  | split id s cancelAmount earned streamed h => exact split_funded h hw
  | toppedUp id s caller amount h => exact toppedUp_funded h (hw id s h.stored).1
  | paused id s hs hauth hactive =>
      refine funded_of_replace hs (hw id s hs).1 { s with status := .paused, lastPauseTime := env.now }
        rfl rfl fun token => ?_
      simp [debt, Stream.Live, Stream.remaining, hactive]
  | resumed id s hs hauth hpaused =>
      refine funded_of_replace hs (hw id s hs).1 (resumed s (env.now - s.lastPauseTime)) rfl rfl fun token => ?_
      simp [debt, Stream.Live, Stream.remaining, Contract.resumed, hpaused]
  | amended id s metadata autoRenew hs =>
      exact funded_of_replace hs (hw id s hs).1 { s with metadata, autoRenew } rfl rfl fun token => rfl
  | archived id s h => exact archived_funded h (hw id s h.stored).2.toAccounted

structure Solvent (host : Host) (now : Nat) (w : World) : Prop where
  accounts : Accounts now w.book.streams
  fees : FeeBounded w.config
  covered : ∀ token, debts w.book.streams token ≤ w.balances token host.contract

theorem acted_solvent (h : Acted env made w w') (hw : Solvent host env.now w) : Solvent host env.now w' := by
  refine ⟨acted_accounts h hw.accounts, ?_, ?_⟩
  · obtain ⟨b, ts, w₁, -, hm, rfl⟩ := h
    rw [withBook_config, hm.config]
    exact hw.fees
  · obtain ⟨b, ts, w₁, ha, hm, rfl⟩ := h
    intro token
    have hfund := action_funded ha hw.accounts hw.fees token
    have hheld := hm.held token
    have hcov := hw.covered token
    rw [withBook_book, withBook_balances]
    omega

theorem aside_solvent {now' : Nat} (hnow : now ≤ now') (h : Aside host w w') (hw : Solvent host now w) :
    Solvent host now' w' :=
  ⟨h.book ▸ hw.accounts.mono hnow, h.fees hw.fees, fun token => h.book ▸ (hw.covered token).trans (h.held token)⟩

theorem reached_solvent {c : Chain} (h : Reached host c) : Solvent host c.now c.world := by
  refine reached_inv (Solvent host) ?_ (fun _ _ _ _ => aside_solvent) (fun _ _ _ _ => acted_solvent) h
  intro c hc
  refine ⟨?_, ?_, ?_⟩
  · intro id s hs
    simp [hc.book, Book.fresh] at hs
  · rw [hc.config]
    exact ⟨by simp [Config.fresh], by simp [Config.fresh]⟩
  · intro token
    rw [hc.book]
    exact hc.solvent token

/-- In every state reached the contract holds, of every token, what it owes on
the live streams, and it owes a negative amount on none. -/
theorem contract_solvent {c : Chain} (h : Reached host c) (token : Address) :
    Escrow.total (fun s : Stream => if (s.status = .active ∨ s.status = .paused) ∧ s.token = token
        then s.deposit - s.totalWithdrawn else 0) c.world.book.streams ≤
      c.world.balances token host.contract ∧
    ∀ id s, c.world.book.streams.lookup id = some s → s.status = .active ∨ s.status = .paused →
      0 ≤ s.deposit - s.totalWithdrawn :=
  ⟨(reached_solvent h).covered token, fun id s hs _ =>
    ((reached_solvent h).accounts id s hs).2.toAccounted.remaining_nonneg⟩

theorem sample_contract_solvent :
    Escrow.total (fun s : Stream => if (s.status = .active ∨ s.status = .paused) ∧ s.token = Sample.party 9
        then s.deposit - s.totalWithdrawn else 0)
      (Sample.genesis.after [Sample.opening 500 0]).world.book.streams ≤
    (Sample.genesis.after [Sample.opening 500 0]).world.balances (Sample.party 9) (Sample.party 0) :=
  (contract_solvent (reached_after Sample.genesis_fresh (by decide)) (Sample.party 9)).1

end SoroStream
