import SoroStream.Flows

namespace SoroStream

open Lib Lib.Rollback Lib.Rollback.Prog Lib.Runs Contract

variable {host : Host} {env : Env host} {w w' v : World} {c : Chain} {id : StreamId} {s : Stream} {claim : Int}
  {ts : List Transfer}

/-- The paths that pay a gross claim to the recipient of a stream: between the first
world and the second, in a call that starts in `w`. -/
inductive Claiming (env : Env host) (w : World) (id : StreamId) : World → World → Stream → Int → Prop
  | withdraw {w' : World} {s : Stream} {claim : Int} (recipient : Address) (hs : w.book.streams.lookup id = some s)
      (hclaim : claimableAt s env.now = some claim) (hok : withdraw id recipient env w = .ok () w') :
      Claiming env w id w w' s claim
  | batchItem {v w' : World} {s : Stream} {claim : Int} (before : List StreamId) (recipient : Address)
      (claims : List Int) (hbefore : batchWithdraw before recipient env w = .ok claims v)
      (hs : v.book.streams.lookup id = some s) (hok : batchWithdrawItem recipient id env v = .ok claim w') :
      Claiming env w id v w' s claim
  | transferRecipient {w' : World} {s : Stream} {claim : Int} (current recipient : Address)
      (hs : w.book.streams.lookup id = some s) (hclaim : handOverClaim s (s.clock env.now) = some claim)
      (hok : transferRecipient id current recipient env w = .ok () w') : Claiming env w id w w' s claim

/-- What may become of a record in the call that counted a claim: it stays, completes,
goes into its next cycle or is removed. -/
def Stream.LeftAs (m : Stream) : Option Stream → Prop
  | some q => q = m ∨ q = { m with status := .completed } ∨ q = m.renewed
  | none => True

/-- The claim is counted in full, the fee is what the rate in force says, and the
recipient gets the rest. -/
structure SplitsClaim (w v w' : World) (id : StreamId) (s : Stream) (claim fee : Int) (ts : List Transfer) :
    Prop where
  counted : ∃ m : Stream, m.LeftAs (w'.book.streams.lookup id) ∧ m = { s with
    recipient := m.recipient, lastWithdrawTime := m.lastWithdrawTime, totalWithdrawn := s.totalWithdrawn + claim }
  rate : fee = if Storage.getProtocolFee w = 0 ∨ Storage.isFeeExempt s.recipient w = true then 0
    else claim * Storage.getProtocolFee w / 10000
  nonneg : 0 ≤ fee
  le : fee ≤ claim
  log : w'.log = v.log ++ ts
  share : received s.recipient s.token (ts.filter fun t => t.cause = .claim id) = claim - fee

theorem feeOf_eq (hclaim : 0 ≤ claim) (recipient : Address) : feeOf w recipient claim =
    if Storage.getProtocolFee w = 0 ∨ Storage.isFeeExempt recipient w = true then 0
    else claim * Storage.getProtocolFee w / 10000 := by
  have hprod : 0 ≤ claim * Storage.getProtocolFee w := Int.mul_nonneg hclaim (Int.natCast_nonneg _)
  unfold feeOf
  rw [Int.tdiv_eq_ediv_of_nonneg hprod]
  by_cases hnone : Storage.getProtocolFee w = 0 ∨ Storage.isFeeExempt recipient w = true
  · rw [if_pos hnone, if_neg]
    rintro ⟨hrate, hexempt⟩
    rcases hnone with hzero | hyes
    · omega
    · exact Bool.noConfusion (hexempt.symm.trans hyes)
  · obtain ⟨hrate, hexempt⟩ := not_or.mp hnone
    rw [if_neg hnone, if_pos ⟨Nat.pos_of_ne_zero hrate, Bool.eq_false_iff.mpr hexempt⟩]

/-- The recipient's part, read off the transfers of a claim. -/
theorem claimed_share (hpos : 0 < claim) (hle : feeOf w s.recipient claim ≤ claim) :
    received s.recipient s.token ((claimedTransfers host w s claim).filter fun t => t.cause = .claim s.id) =
      claim - feeOf w s.recipient claim := by
  have hfees : (feeTransfers host s (Storage.getTreasury w) (feeOf w s.recipient claim)).filter
      (fun t => t.cause = .claim s.id) = [] := by
    refine List.filter_eq_nil_iff.mpr ?_
    intro t ht
    obtain ⟨-, a, -, rfl⟩ := mem_feeTransfers ht
    simp [feeTransfer]
  rw [claimedTransfers, if_pos hpos, claimTransfers, List.filter_append, hfees, List.append_nil]
  by_cases hshare : 0 < claim - feeOf w s.recipient claim
  · have hmoves : 0 < (claimTransfer host s (claim - feeOf w s.recipient claim)).amount := hshare
    rw [positive, if_pos hmoves]
    simp [claimTransfer, received_cons]
  · have hnone : claim - feeOf w s.recipient claim = 0 := by omega
    simp [positive, claimTransfer, hnone]

theorem Turned.left {single : Bool} {w₁ : World} {out : Option Stream} {us : List Transfer}
    (h : Turned env w v w' id s claim single w₁ out us) :
    (s.checkpoint claim env.now).LeftAs (w'.book.streams.lookup id) := by
  have hset := h.settled
  rw [h.lookup]
  cases hset with
  | running => exact .inl rfl
  | lapsed => exact .inr (.inl rfl)
  | renewed => exact .inr (.inr rfl)
  | finished => trivial

theorem Turned.claimPayments_eq {single : Bool} {w₁ : World} {out : Option Stream} {us : List Transfer}
    (h : Turned env w v w' id s claim single w₁ out us) {p : Transfer → Bool}
    (hp : ∀ t, p t = true → t.cause.paysClaim id = true) :
    (claimedTransfers host w s claim ++ us).filter p = (claimedTransfers host w s claim).filter p := by
  have hnone : us.filter p = [] := by
    refine List.filter_eq_nil_iff.mpr ?_
    intro t ht hpt
    exact Bool.noConfusion ((h.settled.paysNoClaim t ht id).symm.trans (hp t hpt))
  rw [List.filter_append, hnone, List.append_nil]

theorem Turned.splits {single : Bool} {w₁ : World} {out : Option Stream} {us : List Transfer}
    (h : Turned env w v w' id s claim single w₁ out us) (hfee : FeeBounded w.config) (hpos : 0 < claim) :
    ∃ fee ts, SplitsClaim w v w' id s claim fee ts ∧
      outflow host s.token (claimPayments id ts) = claim - retainedFee host w s claim := by
  obtain ⟨hnonneg, hle⟩ := feeOf_bounds hfee hpos.le s.recipient
  have hid := h.own
  subst hid
  refine ⟨_, _, ⟨⟨_, h.left, ?_⟩, feeOf_eq hpos.le _, hnonneg, hle, h.log, ?_⟩, ?_⟩
  · simp [Stream.checkpoint, Stream.credit, hpos]
  · rw [h.claimPayments_eq fun t ht => decide_eq_true (.inl (of_decide_eq_true ht))]
    exact claimed_share hpos hle
  · have hall : (claimedTransfers host w s claim).filter (fun t => t.cause.paysClaim s.id) =
        claimedTransfers host w s claim := List.filter_eq_self.mpr claimedTransfers_paysClaim
    rw [claimPayments, h.claimPayments_eq fun t ht => ht, hall]
    exact claimed_outflow hfee hpos.le h.recipient

theorem transferRecipient_splits {current recipient : Address} (hw : Accounts env.now w.book.streams)
    (hfee : FeeBounded w.config) (hs : w.book.streams.lookup id = some s)
    (hclaim : handOverClaim s (s.clock env.now) = some claim) (hpos : 0 < claim)
    (h : transferRecipient id current recipient env w = .ok () w') :
    ∃ fee ts, SplitsClaim w w w' id s claim fee ts ∧
      outflow host s.token (claimPayments id ts) = claim - retainedFee host w s claim := by
  obtain ⟨-, r, claim', w₁, -, hh, rfl⟩ := transferRecipient_ok h
  obtain rfl := Option.some.inj (hs.symm.trans hh.stored)
  obtain rfl := Option.some.inj (hclaim.symm.trans hh.claimed)
  obtain ⟨hid, -⟩ := hw id s hs
  obtain ⟨hnonneg, hle⟩ := feeOf_bounds hfee hpos.le s.recipient
  subst hid
  have hadvance : s.advance claim (s.clock env.now) = s.checkpoint claim (s.clock env.now) := if_pos hpos
  have hall : claimPayments s.id (claimedTransfers host w s claim) = claimedTransfers host w s claim :=
    List.filter_eq_self.mpr claimedTransfers_paysClaim
  refine ⟨_, claimedTransfers host w s claim,
    ⟨⟨{ s.checkpoint claim (s.clock env.now) with recipient := recipient }, ?_, ?_⟩, feeOf_eq hpos.le _, hnonneg, hle,
      ?_, claimed_share hpos hle⟩, ?_⟩
  · have hlookup : (HandOver.book w₁.book s.id s claim (s.clock env.now) recipient).streams =
        w₁.book.streams.insert (s.advance claim (s.clock env.now)).id
          { s.advance claim (s.clock env.now) with recipient } := rfl
    rw [withBook_book, hlookup, advance_id, Finmap.lookup_insert, hadvance]
    exact .inl rfl
  · simp [Stream.checkpoint, Stream.credit, hpos]
  · rw [withBook_log, hh.paid.log]
    rfl
  · rw [hall]
    exact claimed_outflow hfee hpos.le (signer_ne_contract hh.signed)

/-- On every path that pays a claim, what goes to the recipient and to the treasury is
the whole claim exactly when no fee is due on it or a treasury outside the contract is
there to take it. The rest of the split is always right. -/
theorem fee_split_exact_iff (env : Env host) (h : Reached host c) (hnow : c.now ≤ env.now)
    (hcall : Claiming env c.world id v w' s claim) (hpos : 0 < claim) :
    ∃ fee ts, SplitsClaim c.world v w' id s claim fee ts ∧
      (outflow host s.token (claimPayments id ts) = claim ↔
        Storage.isFeeExempt s.recipient c.world = true ∨ claim * Storage.getProtocolFee c.world < 10000 ∨
          ∃ a, Storage.getTreasury c.world = some a ∧ a ≠ host.contract) := by
  have hsolvent := aside_solvent hnow (.refl _) (reached_solvent h)
  have hsenders := reached_senders h
  have hsplits : ∃ fee ts, SplitsClaim c.world v w' id s claim fee ts ∧
      outflow host s.token (claimPayments id ts) = claim - retainedFee host c.world s claim := by
    cases hcall with
    | withdraw recipient hs hclaim hok =>
        obtain ⟨r, claim', w₁, out, us, ht⟩ := withdraw_turned hsolvent.accounts hsenders hok
        obtain rfl := Option.some.inj (hs.symm.trans ht.stored)
        obtain rfl := Option.some.inj (hclaim.symm.trans ht.claimed)
        exact ht.splits hsolvent.fees hpos
    | batchItem before recipient claims hbefore hs hok =>
        obtain ⟨r, w₁, out, us, ht⟩ := batchItem_turned hsolvent.accounts hsenders hbefore hok
        obtain rfl := Option.some.inj (hs.symm.trans ht.stored)
        exact ht.splits hsolvent.fees hpos
    | transferRecipient current recipient hs hclaim hok =>
        exact transferRecipient_splits hsolvent.accounts hsolvent.fees hs hclaim hpos hok
  obtain ⟨fee, ts, hsplit, hout⟩ := hsplits
  refine ⟨fee, ts, hsplit, ?_⟩
  rw [hout, ← retainedFee_eq_zero_iff (feeOf_bounds hsolvent.fees hpos.le s.recipient).1]
  omega

namespace Sample

def taxed : Chain := genesis.after [configure [4] 5 (.setProtocolFee 1000), opening 0 0]

def taxedWithdrawal : World := (withdraw streamId (party 3) (signed [3] 2010) taxed.world).commit taxed.world

theorem taxed_reached : Reached site taxed := reached_after genesis_fresh (by decide)

theorem taxed_withdrawal_ok :
    withdraw streamId (party 3) (signed [3] 2010) taxed.world = .ok () taxedWithdrawal :=
  Outcome.ok_commit (by decide +kernel) _

end Sample

theorem sample_fee_split : ∃ fee ts,
    SplitsClaim Sample.taxed.world Sample.taxed.world Sample.taxedWithdrawal Sample.streamId
      (createdStream Sample.site (Sample.terms 0 0) 10) 50000 fee ts ∧
    (outflow Sample.site (Sample.party 9) (claimPayments Sample.streamId ts) = 50000 ↔
      Storage.isFeeExempt (Sample.party 3) Sample.taxed.world = true ∨
        50000 * (Storage.getProtocolFee Sample.taxed.world : Int) < 10000 ∨
        ∃ a, Storage.getTreasury Sample.taxed.world = some a ∧ a ≠ Sample.party 0) := by
  have hstored : Sample.taxed.world.book.streams.lookup Sample.streamId =
      some (createdStream Sample.site (Sample.terms 0 0) 10) := by decide
  exact fee_split_exact_iff (Sample.signed [3] 2010) Sample.taxed_reached (by decide)
    (.withdraw (Sample.party 3) hstored (by decide) Sample.taxed_withdrawal_ok) (by decide)

/-- Of a claim of 50000 the recipient gets 45000, and 5000 go nowhere: they are counted
as withdrawn and stay in the contract. -/
theorem fee_without_treasury :
    Reached Sample.site Sample.taxed ∧
    Storage.getTreasury Sample.taxed.world = none ∧
    (withdraw Sample.streamId (Sample.party 3) (Sample.signed [3] 2010) Sample.taxed.world).value? = some () ∧
    (Sample.taxed.world.book.streams.lookup Sample.streamId).map Stream.totalWithdrawn = some 0 ∧
    (Sample.taxedWithdrawal.book.streams.lookup Sample.streamId).map Stream.totalWithdrawn = some 50000 ∧
    Sample.taxed.world.balances (Sample.party 9) (Sample.party 3) = 1000000 ∧
    Sample.taxedWithdrawal.balances (Sample.party 9) (Sample.party 3) = 1045000 ∧
    Sample.taxed.world.balances (Sample.party 9) (Sample.party 0) = 100000 ∧
    Sample.taxedWithdrawal.balances (Sample.party 9) (Sample.party 0) = 55000 :=
  ⟨Sample.taxed_reached, by decide, by decide +kernel, by decide +kernel, by decide +kernel, by decide +kernel,
    by decide +kernel, by decide +kernel, by decide +kernel⟩

end SoroStream
