import SoroStream.Lib.Tally
import SoroStream.Reporting
import SoroStream.Solvency

namespace SoroStream

open Lib Lib.Runs Contract

variable {host : Host} {env : Env host} {w w' : World} {single : Bool} {id : StreamId} {s : Stream}
  {ts us : List Transfer} {es fs : List Published} {claim amount : Int}

inductive Heading
  | locked (stream : StreamId)
  | added (stream : StreamId)
  | refunded (stream : StreamId)
  | paid (stream : StreamId)
  | fees (stream : StreamId)
  | creationFees
  deriving DecidableEq

def Heading.Exact : Heading → Prop
  | .paid _ | .fees _ => False
  | _ => True

def Published.lines : Published → List (Heading × Int)
  | .streamCreated id _ _ amount _ _ => [(.locked id, amount)]
  | .streamToppedUp id amount _ => [(.added id, amount)]
  | .streamWithdrawn id _ amount _ => [(.paid id, amount)]
  | .streamCancelled id _ refund paid | .streamTerminatedByRecipient id _ paid refund =>
      [(.refunded id, refund), (.paid id, paid)]
  | .feeCollected id fee _ => [(.fees id, fee)]
  | .creationFeeCollected fee _ => [(.creationFees, fee)]
  | _ => []

/-- A protocol fee is part of what is paid out. Renewals, dust and the treasury's own payouts
are told under no heading. -/
def Cause.headings : Cause → List Heading
  | .lock id => [.locked id]
  | .topUp id => [.added id]
  | .refund id => [.refunded id]
  | .claim id => [.paid id]
  | .protocolFee id => [.paid id, .fees id]
  | .creationFee _ => [.creationFees]
  | .dust _ | .renewal _ | .payout => []

def Transfer.lines (t : Transfer) : List (Heading × Int) := t.cause.headings.map fun k => (k, t.amount)

def told (k : Heading) (es : List Published) : Int := tally k (es.flatMap Published.lines)

def moved (k : Heading) (ts : List Transfer) : Int := tally k (ts.flatMap Transfer.lines)

variable {k : Heading}

@[simp] theorem told_nil : told k [] = 0 := rfl

@[simp] theorem told_cons (e : Published) : told k (e :: es) = tally k e.lines + told k es := by
  simp [told]

@[simp] theorem told_append : told k (es ++ fs) = told k es + told k fs := by
  simp [told]

@[simp] theorem moved_nil : moved k [] = 0 := rfl

@[simp] theorem moved_cons (t : Transfer) : moved k (t :: ts) = tally k t.lines + moved k ts := by
  simp [moved]

@[simp] theorem moved_append : moved k (ts ++ us) = moved k ts + moved k us := by
  simp [moved]

theorem moved_positive {t : Transfer} (h : 0 ≤ t.amount) : moved k (positive t) = tally k t.lines := by
  by_cases hpos : 0 < t.amount
  · simp [positive, hpos]
  · have hzero : t.amount = 0 := by omega
    have hlines : tally k t.lines = 0 := by
      rw [Transfer.lines, hzero]
      induction t.cause.headings with
      | nil => rfl
      | cons k' ks ih => simpa using ih
    rw [positive, if_neg hpos, hlines, moved_nil]

theorem moved_eq_zero (h : ∀ t ∈ ts, k ∉ t.cause.headings) : moved k ts = 0 := by
  apply tally_eq_zero
  rintro l hl rfl
  obtain ⟨t, ht, hl⟩ := List.mem_flatMap.mp hl
  obtain ⟨k', hk', rfl⟩ := List.mem_map.mp hl
  exact h t ht hk'

def keptFee (w : World) (s : Stream) (claim : Int) : Int :=
  match Storage.getTreasury w with
  | some _ => 0
  | none => feeOf w s.recipient claim

theorem feeTransfers_moved {treasury : Option Address} {fee : Int} (hfee : 0 ≤ fee) :
    moved k (feeTransfers host s treasury fee) =
      if treasury.isSome then tally k [(.paid s.id, fee), (.fees s.id, fee)] else 0 := by
  cases treasury with
  | none => rfl
  | some a => exact moved_positive (t := feeTransfer host s a fee) hfee

theorem claimed_paid (hclaim : 0 ≤ claim) (hfee : FeeBounded w.config) (j : StreamId) :
    moved (.paid j) (claimedTransfers host w s claim) = if s.id = j then claim - keptFee w s claim else 0 := by
  obtain ⟨hnonneg, hle⟩ := feeOf_bounds hfee hclaim s.recipient
  have hshare : 0 ≤ (claimTransfer host s (claim - feeOf w s.recipient claim)).amount := by
    simp only [claimTransfer]
    omega
  by_cases hpos : 0 < claim
  · rw [claimedTransfers, if_pos hpos, claimTransfers, moved_append, moved_positive hshare, feeTransfers_moved hnonneg]
    cases ht : Storage.getTreasury w <;>
      by_cases hj : s.id = j <;> simp [keptFee, ht, hj, Transfer.lines, claimTransfer, Cause.headings]
  · have hfeeless : keptFee w s claim = 0 := by
      unfold keptFee
      split <;> omega
    rw [claimedTransfers, if_neg hpos, moved_nil, hfeeless]
    split <;> omega

theorem claimed_fees (hclaim : 0 ≤ claim) (hfee : FeeBounded w.config) (j : StreamId) :
    moved (.fees j) (claimedTransfers host w s claim) = told (.fees j) (feeEvents w s.id s claim) := by
  obtain ⟨hnonneg, hle⟩ := feeOf_bounds hfee hclaim s.recipient
  have hshare : 0 ≤ (claimTransfer host s (claim - feeOf w s.recipient claim)).amount := by
    simp only [claimTransfer]
    omega
  by_cases hpos : 0 < claim
  · rw [claimedTransfers, if_pos hpos, claimTransfers, moved_append, moved_positive hshare, feeTransfers_moved hnonneg]
    cases ht : Storage.getTreasury w with
    | none => simp [feeEvents, hookEvents, ht, Transfer.lines, claimTransfer, Cause.headings]
    | some a =>
        by_cases hfeepos : 0 < feeOf w s.recipient claim
        · simp [feeEvents, hookEvents, ht, hpos, hfeepos, Published.lines, Transfer.lines, claimTransfer,
            Cause.headings]
        · have hzero : feeOf w s.recipient claim = 0 := by omega
          simp [feeEvents, hookEvents, hzero, Transfer.lines, claimTransfer, Cause.headings]
  · simp [claimedTransfers, hpos, feeEvents, hookEvents]

theorem claimed_others (hk : k.Exact) : moved k (claimedTransfers host w s claim) = 0 := by
  apply moved_eq_zero
  intro t ht
  obtain ⟨-, rfl | ⟨a, rfl⟩⟩ := mem_claimedTransfers ht
  · cases k <;> simp_all [Heading.Exact, claimTransfer, Cause.headings]
  · cases k <;> simp_all [Heading.Exact, feeTransfer, Cause.headings]

def FeesLeave (c : Config) : Prop := c.protocolFee.getD 0 = 0 ∨ c.treasury.isSome = true

theorem keptFee_nonneg (hclaim : 0 ≤ claim) (hfee : FeeBounded w.config) : 0 ≤ keptFee w s claim := by
  unfold keptFee
  split
  · exact le_rfl
  · exact (feeOf_bounds hfee hclaim s.recipient).1

theorem keptFee_eq_zero (h : FeesLeave w.config) : keptFee w s claim = 0 := by
  unfold keptFee
  cases ht : Storage.getTreasury w with
  | some a => rfl
  | none =>
      have hnone : w.config.treasury = none := ht
      have hrate : Storage.getProtocolFee w = 0 := by
        rcases h with h | h
        · exact h
        · simp [hnone] at h
      simp [feeOf, hrate]

structure Booked (config : Config) (single : Bool) (es : List Published) (ts : List Transfer) : Prop where
  exact_told : ∀ k : Heading, k.Exact → told k es = moved k ts
  paid_le : ∀ id, moved (.paid id) ts ≤ told (.paid id) es
  paid_told : FeesLeave config → ∀ id, told (.paid id) es = moved (.paid id) ts
  fees_told : ∀ id, told (.fees id) es = if single then moved (.fees id) ts else 0

namespace Booked

variable {config : Config}

theorem nil : Booked config single [] [] := ⟨fun _ _ => rfl, fun _ => le_rfl, fun _ _ => rfl, fun _ => by simp⟩

theorem append (h : Booked config single es ts) (h' : Booked config single fs us) :
    Booked config single (es ++ fs) (ts ++ us) where
  exact_told k hk := by rw [told_append, moved_append, h.exact_told k hk, h'.exact_told k hk]
  paid_le id := by
    rw [told_append, moved_append]
    exact add_le_add (h.paid_le id) (h'.paid_le id)
  paid_told hc id := by rw [told_append, moved_append, h.paid_told hc id, h'.paid_told hc id]
  fees_told id := by
    rw [told_append, moved_append, h.fees_told id, h'.fees_told id]
    split <;> simp

theorem of_told (h : Booked config single es ts) (hsame : ∀ k, told k fs = told k es) : Booked config single fs ts where
  exact_told k hk := (hsame k).trans (h.exact_told k hk)
  paid_le id := (h.paid_le id).trans (hsame _).ge
  paid_told hc id := (hsame _).trans (h.paid_told hc id)
  fees_told id := (hsame _).trans (h.fees_told id)

theorem of_lines (h : ∀ k, told k es = moved k ts) (hfees : ∀ id, moved (.fees id) ts = 0) :
    Booked config single es ts where
  exact_told k _ := h k
  paid_le id := (h _).ge
  paid_told _ id := h _
  fees_told id := by
    rw [h, hfees]
    simp

end Booked

theorem feeEvents_told (hk : ∀ j, k ≠ .fees j) : told k (feeEvents w id s claim) = 0 := by
  apply tally_eq_zero
  rintro l hl rfl
  obtain ⟨e, he, hl⟩ := List.mem_flatMap.mp hl
  obtain ⟨a, rfl⟩ := mem_feeEvents he
  rw [List.mem_singleton.mp hl] at hk
  exact hk id rfl

theorem claimed_booked (hclaim : 0 ≤ claim) (hfee : FeeBounded w.config) (recipient : Address) (now : Nat) :
    Booked w.config single
      ((if single then feeEvents w s.id s claim else []) ++ [.streamWithdrawn s.id recipient claim now])
      (claimedTransfers host w s claim) := by
  have hfees (k : Heading) (hk : ∀ j, k ≠ .fees j) : told k (if single then feeEvents w s.id s claim else []) = 0 := by
    split
    · exact feeEvents_told hk
    · rfl
  have hpaid (j : StreamId) : told (.paid j) ((if single then feeEvents w s.id s claim else []) ++
      [.streamWithdrawn s.id recipient claim now]) = if s.id = j then claim else 0 := by
    rw [told_append, hfees _ (by simp)]
    simp [Published.lines]
  have hkept := keptFee_nonneg (s := s) hclaim hfee
  constructor
  · intro k hk
    rw [claimed_others hk, told_append, hfees k (by rintro j rfl; exact hk)]
    cases k <;> simp_all [Heading.Exact, Published.lines]
  · intro j
    rw [claimed_paid hclaim hfee, hpaid]
    split <;> omega
  · intro hc j
    rw [claimed_paid hclaim hfee, hpaid, keptFee_eq_zero hc, sub_zero]
  · intro j
    rw [claimed_fees hclaim hfee, told_append]
    cases single <;> simp [Published.lines]

theorem settlement_booked {config : Config} {w₁ : World} {now : Nat} {looks : Bool} {out : Option Stream} (r : Stream)
    (h : Settlement env w₁ now looks r out us) : Booked config single (settlementEvents id s out) us := by
  have hmoved (k : Heading) : moved k us = 0 := by
    apply moved_eq_zero
    intro t ht
    obtain ⟨-, rfl | ⟨rfl, -⟩⟩ := h.mem_transfers ht
    · simp [dustTransfer, Cause.headings]
    · simp [renewalTransfer, Cause.headings]
  have htold (k : Heading) : told k (settlementEvents id s out) = 0 := by
    apply tally_eq_zero
    intro l hl
    obtain ⟨e, he, hl⟩ := List.mem_flatMap.mp hl
    rcases mem_settlementEvents he with rfl | rfl <;> exact absurd hl List.not_mem_nil
  exact .of_lines (fun k => (htold k).trans (hmoved k).symm) fun id => hmoved _

theorem opened_booked {config : Config} {fees : List Transfer} (hfees : ∀ t ∈ fees, t.cause = .creationFee s.id) :
    Booked config single (creationEvents s fees) (fees ++ [lockTransfer host s]) := by
  have hcreation : Booked config single (fees.map fun t => .creationFeeCollected t.amount t.payee) fees := by
    induction fees with
    | nil => exact .nil
    | cons t fees ih =>
        have hlines : t.lines = [(.creationFees, t.amount)] := by
          rw [Transfer.lines, hfees t (List.mem_cons_self ..)]
          rfl
        have hone : Booked config single [.creationFeeCollected t.amount t.payee] [t] :=
          .of_lines (by simp [hlines, Published.lines]) (by simp [hlines])
        exact hone.append (ih fun t' ht' => hfees t' (List.mem_cons_of_mem t ht'))
  refine hcreation.append (.of_lines ?_ ?_)
  · simp [Published.lines, Transfer.lines, lockTransfer, Cause.headings]
  · simp [Transfer.lines, lockTransfer, Cause.headings]

theorem shares_booked {config : Config} {earned refund : Int} (hearned : 0 ≤ earned) (hrefund : 0 ≤ refund)
    (hlines : ∀ k, told k es = tally k [(.refunded s.id, refund), (.paid s.id, earned)]) :
    Booked config single es (positive (claimTransfer host s earned) ++ positive (refundTransfer host s refund)) := by
  have hmoved (k : Heading) :
      moved k (positive (claimTransfer host s earned) ++ positive (refundTransfer host s refund)) =
      tally k [(.paid s.id, earned), (.refunded s.id, refund)] := by
    rw [moved_append, moved_positive hearned, moved_positive hrefund]
    simp [Transfer.lines, claimTransfer, refundTransfer, Cause.headings]
  refine .of_lines (fun k => ?_) fun id => ?_
  · rw [hlines, hmoved]
    simp [add_comm]
  · rw [hmoved]
    simp

theorem report_booked {made : List Stream} {b : Book} (h : Report env single w made b ts es)
    (hw : Accounts env.now w.book.streams) (hfee : FeeBounded w.config) : Booked w.config single es ts := by
  cases h with
  | nonceMarked | batchCounted | delegated => exact .nil
  | opened s duration fees h hfree hroom hfees => exact opened_booked fun t ht => (hfees t ht).2.2
  | withdrawn id s claim w₁ out us h =>
      obtain ⟨rfl, hs⟩ := hw id s h.stored
      have hclaim : 0 ≤ claim := by
        rcases claimFor_cases h.claimed with rfl | rfl
        · exact flowed_nonneg hs.rate env.now
        · exact le_rfl
      have hclaimed : Booked w.config single _ (claimedTransfers host w s claim) :=
        claimed_booked hclaim hfee s.recipient env.now
      have hsettled : Booked w.config single (settlementEvents s.id s out) us := settlement_booked _ h.settled
      refine (hclaimed.append hsettled).of_told fun k => ?_
      simp only [withdrawalEvents, told_append]
      omega
  | handedOver id s claim w₁ recipient hsingle h =>
      obtain ⟨rfl, hs⟩ := hw id s h.stored
      have hpassed (es : List Published) (k : Heading) :
          told k (es ++ [.recipientTransferred s.id s.recipient recipient]) = told k es := by
        simp [Published.lines]
      rw [handOverEvents]
      by_cases hpos : 0 < claim
      · rw [if_pos hpos]
        have hclaimed : Booked w.config single _ (claimedTransfers host w s claim) :=
          claimed_booked hpos.le hfee s.recipient (s.clock env.now)
        rw [if_pos hsingle] at hclaimed
        exact hclaimed.of_told (hpassed _)
      · rw [if_neg hpos, claimedTransfers, if_neg hpos]
        exact Booked.nil.of_told (hpassed [])
  | closed id s t amount bySender hs hlive hamount hcov =>
      obtain ⟨rfl, hsound⟩ := hw id s hs
      have hshare := hsound.closing_share hamount
      have hrefund := refundOf_eq hsound hshare.1 hshare.2
      refine shares_booked hshare.1 (by omega) fun k => ?_
      cases bySender <;> simp [closingEvents, Published.lines]
  | split id s cancelAmount earned streamed h =>
      obtain ⟨rfl, hsound⟩ := hw id s h.stored
      obtain ⟨hearned, -⟩ := h.parts_le hsound
      have hrefund := h.wanted
      have hpositive : positive (refundTransfer host s cancelAmount) = [refundTransfer host s cancelAmount] :=
        if_pos hrefund
      rw [splitTransfers, ← hpositive]
      exact shares_booked hearned hrefund.le fun k => by simp [splitEvents, Published.lines]
  | toppedUp id s caller amount h =>
      obtain ⟨rfl, -⟩ := hw id s h.stored
      exact .of_lines (by simp [Published.lines, Transfer.lines, topUpTransfer, Cause.headings])
        (by simp [Transfer.lines, topUpTransfer, Cause.headings])
  | paused | resumed | relabelled | renewalCancelled | archived => exact .of_lines (by simp [Published.lines]) (by simp)

end SoroStream
