import SoroStream.Flows
import SoroStream.Splitting
import SoroStream.Terminal

namespace SoroStream

open Lib Lib.Rollback Lib.Rollback.Prog Lib.Runs Contract

variable {host : Host} {env : Env host} {w w' v : World} {c : Chain} {id j : StreamId} {s q : Stream} {token : Address}
  {t : Transfer} {ts us : List Transfer} {claim amount : Int} {now : Nat}

def paidIn (host : Host) (token : Address) (ts : List Transfer) : Int :=
  (ts.map fun t => if t.token = token ∧ t.payee = host.contract ∧ t.payer ≠ host.contract then t.amount else 0).sum

@[simp] theorem paidIn_nil : paidIn host token [] = 0 := rfl

@[simp] theorem paidIn_append : paidIn host token (ts ++ us) = paidIn host token ts + paidIn host token us := by
  simp [paidIn]

theorem paidIn_eq_zero (h : ∀ t ∈ ts, t.payer = host.contract) : paidIn host token ts = 0 := by
  refine List.sum_eq_zero ?_
  intro x hx
  obtain ⟨t, ht, rfl⟩ := List.mem_map.mp hx
  simp [h t ht]

theorem locked_flows (htoken : t.token = token) (hpayer : t.payer ≠ host.contract) (hpayee : t.payee = host.contract) :
    spent host.contract token [t] = 0 ∧ paidIn host token [t] = t.amount := by
  refine ⟨?_, ?_⟩
  · simp [spent_cons, hpayer]
  · simp [paidIn, htoken, hpayer, hpayee]

theorem spent_paid (htoken : t.token = token) (hpayer : t.payer = host.contract) (hamount : 0 ≤ t.amount) :
    spent host.contract token (positive t) = t.amount := by
  rw [spent_positive, if_pos ⟨htoken, hpayer⟩, max_eq_left hamount]

/-- Where a treasury is set or the fee is 0, the whole claim is paid. -/
theorem claimed_spent (hfee : FeeBounded w.config) (hclaim : 0 ≤ claim)
    (hset : Storage.getProtocolFee w = 0 ∨ (Storage.getTreasury w).isSome) :
    spent host.contract s.token (claimedTransfers host w s claim) = claim := by
  obtain ⟨hnonneg, hle⟩ := feeOf_bounds hfee hclaim s.recipient
  by_cases hpos : 0 < claim
  · have hshare : spent host.contract s.token (positive (claimTransfer host s (claim - feeOf w s.recipient claim))) =
        claim - feeOf w s.recipient claim := spent_paid rfl rfl (by simp only [claimTransfer]; omega)
    have hrest : spent host.contract s.token
        (feeTransfers host s (Storage.getTreasury w) (feeOf w s.recipient claim)) = feeOf w s.recipient claim := by
      rcases hset with hzero | hsome
      · have hnone : feeOf w s.recipient claim = 0 := by
          rw [feeOf, if_neg]
          rw [hzero]
          exact fun h => absurd h.1 (lt_irrefl 0)
        rw [hnone]
        cases Storage.getTreasury w with
        | none => rfl
        | some a => rfl
      · obtain ⟨a, ha⟩ := Option.isSome_iff_exists.mp hsome
        rw [ha]
        exact spent_paid rfl rfl hnonneg
    rw [claimedTransfers, if_pos hpos, claimTransfers, spent_append, hshare, hrest]
    omega
  · have hzero : claim = 0 := by omega
    rw [claimedTransfers, if_neg hpos, spent_nil, hzero]

def heldFor (w : World) (id : StreamId) : Int :=
  match w.book.streams.lookup id with
  | some s => if s.Live then s.remaining else 0
  | none => 0

theorem heldFor_live (hs : w.book.streams.lookup id = some s) (hlive : s.Live) : heldFor w id = s.remaining := by
  simp [heldFor, hs, hlive]

theorem heldFor_dead (hs : w.book.streams.lookup id = some s) (hlive : ¬s.Live) : heldFor w id = 0 := by
  simp [heldFor, hs, hlive]

theorem heldFor_none (hs : w.book.streams.lookup id = none) : heldFor w id = 0 := by
  simp [heldFor, hs]

def Balanced (host : Host) (token : Address) (id : StreamId) (w w' : World) : Prop :=
  ∃ ts, w'.log = w.log ++ ts ∧ spent host.contract token (onAccount id ts) + heldFor w' id =
    heldFor w id + paidIn host token (onAccount id ts)

namespace Balanced

theorem refl (w : World) : Balanced host token id w w := ⟨[], by simp, by simp [onAccount]⟩

theorem trans (h : Balanced host token id w v) (h' : Balanced host token id v w') : Balanced host token id w w' := by
  obtain ⟨ts, hts, hsum⟩ := h
  obtain ⟨us, hus, hsum'⟩ := h'
  refine ⟨ts ++ us, by rw [hus, hts, List.append_assoc], ?_⟩
  rw [onAccount_append, spent_append, paidIn_append]
  omega

theorem of_awake {now : Nat} (h : Balanced host token id (w.awake now) w') : Balanced host token id w w' := h

/-- All transfers are the stream's, and the contract pays them. -/
theorem of_paid (hlog : w'.log = w.log ++ ts) (hmine : ∀ t ∈ ts, t.cause.stream? = some id ∧ t.cause ≠ .creationFee id)
    (hpaid : ∀ t ∈ ts, t.payer = host.contract)
    (hheld : spent host.contract token ts + heldFor w' id = heldFor w id) : Balanced host token id w w' := by
  refine ⟨ts, hlog, ?_⟩
  rw [onAccount_all hmine, paidIn_eq_zero hpaid]
  omega

theorem of_saved (hlog : w'.log = w.log) (hheld : heldFor w' id = heldFor w id) : Balanced host token id w w' := by
  refine ⟨[], by simp [hlog], ?_⟩
  rw [hheld]
  simp [onAccount]

end Balanced

theorem Idle.balanced (h : Idle id w w') : Balanced host token id w w' := by
  obtain ⟨ts, hlog, hcause⟩ := h.log
  refine ⟨ts, hlog, ?_⟩
  rw [onAccount_others hcause, heldFor, heldFor, h.record]
  simp

def Stream.ExactCycle (s : Stream) : Prop := s.deposit = s.flowRate * ((s.endTime : Int) - s.startTime)

instance (s : Stream) : Decidable s.ExactCycle := inferInstanceAs (Decidable (_ = _))

def StaysActive (w : World) (id : StreamId) : Prop := ∃ q, w.book.streams.lookup id = some q ∧ q.status = .active

def FeePaid (w : World) : Prop := Storage.getProtocolFee w = 0 ∨ (Storage.getTreasury w).isSome

section

variable {single : Bool} {w₁ : World} {out : Option Stream}

theorem Turned.claim_uncounted (h : Turned env w v w' id s claim single w₁ out us) (hend : s.endTime ≤ env.now)
    (hcounted : s.Unforfeited) : s.totalWithdrawn + claim = s.flowRate * ((s.endTime : Int) - s.startTime) := by
  rw [hcounted, h.claim_due hend]
  ring

theorem Turned.balanced (h : Turned env w v w' id s claim single w₁ out us) (hfee : FeeBounded w.config)
    (hset : FeePaid w) (hcounted : s.Unforfeited)
    (hexact : s.autoRenew = true → s.endTime ≤ env.now → StaysActive w' id → s.ExactCycle) :
    Balanced host s.token id v w' := by
  have hnonneg := h.claim_nonneg
  have hclaim : spent host.contract s.token (claimedTransfers host w s claim) = claim := claimed_spent hfee hnonneg hset
  have hin : paidIn host s.token (claimedTransfers host w s claim) = 0 := paidIn_eq_zero claimedTransfers_paid
  have hheld := heldFor_live h.stored (.inl h.active)
  have hdust := h.dust_eq
  have hfunded := h.sound.funded
  have hback : s.endTime ≤ env.now →
      spent host.contract s.token (positive (dustTransfer host (s.checkpoint claim env.now))) =
      s.remaining - claim := by
    intro hend
    have hdue := h.claim_uncounted hend hcounted
    have hpaid : spent host.contract s.token (positive (dustTransfer host (s.checkpoint claim env.now))) =
        dustOf (s.checkpoint claim env.now) := spent_paid rfl rfl (by simp only [dustTransfer]; omega)
    rw [hpaid, hdust, Stream.remaining]
    omega
  have hlookup := h.lookup
  have hset := h.settled
  refine ⟨_, h.log, ?_⟩
  rw [h.onAccount_eq, spent_append, paidIn_append, hclaim, hin, hheld]
  cases hset with
  | running =>
      rw [heldFor_live hlookup (.inl h.active), checkpoint_remaining hnonneg]
      simp
  | renewed hend _ hauto =>
      have hdue := h.claim_uncounted hend hcounted
      have hlock : s.deposit = s.flowRate * ((s.endTime : Int) - s.startTime) :=
        hexact hauto hend ⟨_, hlookup, h.active⟩
      have hnext : (s.checkpoint claim env.now).renewed.remaining = s.deposit := sub_zero s.deposit
      obtain ⟨hout, hpaid⟩ : spent host.contract s.token [renewalTransfer host (s.checkpoint claim env.now)] = 0 ∧
        paidIn host s.token [renewalTransfer host (s.checkpoint claim env.now)] = s.deposit :=
          locked_flows rfl h.sender rfl
      rw [heldFor_live hlookup (.inl h.active), hnext, hout, hpaid, Stream.remaining]
      omega
  | lapsed hend =>
      rw [heldFor_dead hlookup (by simp [Stream.Live]), hback hend,
        paidIn_eq_zero fun t ht => by rw [mem_positive ht]; rfl]
      omega
  | finished hend =>
      rw [heldFor_none hlookup, hback hend, paidIn_eq_zero fun t ht => by rw [mem_positive ht]; rfl]
      omega

end

theorem closed_balanced (hid : s.id = id) (hs : Sound now s) (hstored : w.book.streams.lookup id = some s)
    (hlive : s.Live) (hpos : 0 ≤ amount) (hle : amount ≤ s.remaining) :
    Balanced host s.token id w (closed host w id s amount) := by
  subst hid
  have hrefund := refundOf_eq hs hpos hle
  have hshare : spent host.contract s.token (positive (claimTransfer host s amount)) = amount := spent_paid rfl rfl hpos
  have hrest : spent host.contract s.token (positive (refundTransfer host s (refundOf s amount))) = refundOf s amount :=
    spent_paid rfl rfl (by simp only [refundTransfer]; omega)
  refine .of_paid rfl ?_ ?_ ?_
  · intro t ht
    rcases List.mem_append.mp ht with ht | ht
    · rw [mem_positive ht]
      exact ⟨rfl, by simp [claimTransfer]⟩
    · rw [mem_positive ht]
      exact ⟨rfl, by simp [refundTransfer]⟩
  · intro t ht
    rcases List.mem_append.mp ht with ht | ht
    · rw [mem_positive ht]
      rfl
    · rw [mem_positive ht]
      rfl
  · rw [closingTransfers, spent_append, hshare, hrest, heldFor_live hstored hlive, hrefund,
      heldFor_none (Finmap.lookup_erase ..)]
    omega

theorem handedOver_balanced {w₁ : World} {recipient : Address} (hid : s.id = id) (hs : Sound env.now s)
    (hfee : FeeBounded w.config) (hset : FeePaid w) (h : HandOver env w id s claim w₁ recipient) :
    Balanced host s.token id w (w₁.withBook (HandOver.book w₁.book id s claim (s.clock env.now) recipient)) := by
  subst hid
  have hpos : 0 ≤ claim := claim_nonneg hs.toAccounted (handOverClaim_cases h.claimed)
  have hclaim : spent host.contract s.token (claimedTransfers host w s claim) = claim := claimed_spent hfee hpos hset
  have hrest : (s.advance claim (s.clock env.now)).remaining = s.remaining - claim := advance_remaining hpos s _
  have hlive : (s.advance claim (s.clock env.now)).Live := h.still_live _
  refine .of_paid h.paid.log ?_ claimedTransfers_paid ?_
  · intro t ht
    refine ⟨claimedTransfers_cause t ht, ?_⟩
    intro hcause
    have hpays := of_decide_eq_true (claimedTransfers_paysClaim t ht)
    simp [hcause] at hpays
  · have hstored : (w₁.withBook (HandOver.book w₁.book s.id s claim (s.clock env.now) recipient)).book.streams.lookup
        s.id = some { s.advance claim (s.clock env.now) with recipient := recipient } := by
      rw [withBook_book, HandOver.book, Book.handOver_streams, Book.save_streams, advance_id, Finmap.lookup_insert]
    rw [hclaim, heldFor_live h.stored h.live, heldFor_live hstored hlive]
    change claim + (s.advance claim (s.clock env.now)).remaining = _
    omega

theorem toppedUp_balanced {caller : Address} (hid : s.id = id) (h : TopUp env w id s caller amount) :
    Balanced host s.token id w ((w.pay [topUpTransfer host s caller (topUpAmount s amount)]).withBook
      (w.book.save (s.toppedUp (topUpAmount s amount)))) := by
  subst hid
  obtain ⟨hout, hin⟩ : spent host.contract s.token [topUpTransfer host s caller (topUpAmount s amount)] = 0 ∧
    paidIn host s.token [topUpTransfer host s caller (topUpAmount s amount)] = topUpAmount s amount :=
    locked_flows rfl (signer_ne_contract h.signed) rfl
  refine ⟨[topUpTransfer host s caller (topUpAmount s amount)], rfl, ?_⟩
  have hlive : (s.toppedUp (topUpAmount s amount)).Live := h.live
  rw [onAccount_all, hout, hin, heldFor_live h.stored h.live, heldFor_live (Finmap.lookup_insert _) hlive]
  · simp only [Stream.remaining, Stream.toppedUp]
    omega
  · intro t ht
    rw [List.mem_singleton.mp ht]
    exact ⟨rfl, by simp [topUpTransfer]⟩

theorem saved_balanced (hid : q.id = id) (hs : w.book.streams.lookup id = some s) (hlive : s.Live) (hlive' : q.Live)
    (hheld : q.remaining = s.remaining) : Balanced host token id w (w.withBook (w.book.save q)) := by
  subst hid
  refine .of_saved rfl ?_
  rw [heldFor_live (Finmap.lookup_insert _) hlive', heldFor_live hs hlive, hheld]

theorem opened_balanced {duration : Nat} {fees : List Transfer} (h : Opening env s duration)
    (hfree : w.book.streams.lookup s.id = none)
    (hfees : ∀ t ∈ fees, t.payer = s.sender ∧ 0 ≤ t.amount ∧ t.cause = .creationFee s.id) :
    Balanced host s.token s.id w ((w.pay (fees ++ [lockTransfer host s])).withBook (w.book.add s)) := by
  obtain ⟨hout, hin⟩ : spent host.contract s.token [lockTransfer host s] = 0 ∧
    paidIn host s.token [lockTransfer host s] = s.deposit := locked_flows rfl (signer_ne_contract h.signed) rfl
  have hflat : onAccount s.id fees = [] := by
    refine List.filter_eq_nil_iff.mpr ?_
    intro t ht hon
    exact (of_decide_eq_true hon).2 (hfees t ht).2.2
  have hlock : onAccount s.id [lockTransfer host s] = [lockTransfer host s] := by
    refine onAccount_all ?_
    intro t ht
    rw [List.mem_singleton.mp ht]
    exact ⟨rfl, by simp [lockTransfer]⟩
  have hheld : heldFor ((w.pay (fees ++ [lockTransfer host s])).withBook (w.book.add s)) s.id = s.deposit := by
    rw [heldFor_live (Finmap.lookup_insert _) (.inl h.active), Stream.remaining, h.untouched.2.2, sub_zero]
  refine ⟨fees ++ [lockTransfer host s], rfl, ?_⟩
  rw [onAccount_append, hflat, hlock, List.nil_append, hout, hin, hheld, heldFor_none hfree]

theorem batchItems_balanced {a : BatchArgs} {entries : List (BatchItem × StreamId)} {ids : List StreamId}
    (hauth : env.auths a.sender = true) (hlong : 0 < a.durationSeconds.val)
    (hfits : env.now + a.durationSeconds.val ≤ u64Max) (hdistinct : (entries.map Prod.snd).Nodup)
    (hitems : ∀ e ∈ entries, Affordable e.1 a.durationSeconds.val) (hmem : id ∈ entries.map Prod.snd)
    (hfree : w.book.streams.lookup id = none)
    (h : each (batchCreateItem a env.now (env.now + a.durationSeconds.val)) entries env w = .ok ids w') :
    ∃ q, w'.book.streams.lookup id = some q ∧ (q.Live ∧ q.totalWithdrawn = 0) ∧ Balanced host q.token id w w' := by
  induction entries generalizing w ids with
  | nil => simp at hmem
  | cons entry entries ih =>
      obtain ⟨_, v, rest, hitem, hrest, -⟩ := each_cons.mp h
      obtain ⟨-, -, -, hv⟩ := batchCreateItem_ok hitem
      obtain ⟨hnew, hdistinct⟩ := List.nodup_cons.mp hdistinct
      have hopen := batchedStream_opening hauth (hitems entry (by simp)) hlong hfits
      have hadded : v.book.streams = w.book.streams.insert entry.2 (batchedStream a env.now entry) := by
        rw [← hv]
        rfl
      by_cases hid : id = entry.2
      · subst hid
        have hfirst : Balanced host (batchedStream a env.now entry).token entry.2 w v :=
          hv ▸ opened_balanced hopen hfree (List.forall_mem_nil _)
        have hothers : Idle entry.2 v w' := by
          refine each_rel (Idle entry.2) .refl .trans ?_ hrest
          intro e he v newId v' hitem
          obtain ⟨-, -, -, rfl⟩ := batchCreateItem_ok hitem
          have hne : entry.2 ≠ e.2 := fun heq => hnew (heq ▸ List.mem_map_of_mem he)
          exact opened_idle (w := v) (List.forall_mem_nil _) hne
        have hrecord : v.book.streams.lookup entry.2 = some (batchedStream a env.now entry) := by
          rw [hadded, Finmap.lookup_insert]
        exact ⟨_, hothers.record.trans hrecord, ⟨.inl rfl, rfl⟩, hfirst.trans hothers.balanced⟩
      · have hidle : Idle id w v :=
          hv ▸ opened_idle (r := batchedStream a env.now entry) (List.forall_mem_nil _) hid
        have hstill := hidle.record.trans hfree
        have hlater : id ∈ entries.map Prod.snd := (List.mem_cons.mp hmem).resolve_left hid
        obtain ⟨q, hq, hfresh, hbalanced⟩ := ih hdistinct (fun e he => hitems e (by simp [he])) hlater hstill hrest
        exact ⟨q, hq, hfresh, hidle.balanced.trans hbalanced⟩

end SoroStream
