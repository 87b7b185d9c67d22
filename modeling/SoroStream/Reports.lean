import SoroStream.Erasure
import SoroStream.Actions

namespace SoroStream

open Lib Lib.Rollback Lib.Rollback.Prog Lib.Runs Contract

variable {host : Host} {env : Env host} {w w' : World} {single : Bool}

def hookEvents (lines : Address → Int → List Published) (w : World) (s : Stream) (claim : Int) : List Published :=
  let fee := feeOf w s.recipient claim
  if 0 < claim ∧ 0 < fee then
    match Storage.getTreasury w with
    | some treasury => lines treasury fee
    | none => []
  else []

def feeEvents (w : World) (id : StreamId) (s : Stream) (claim : Int) : List Published :=
  hookEvents (fun treasury fee => [.feeCollected id fee treasury]) w s claim

/-- A stream that ended is said to be completed, after a renewal that failed if there was one. -/
def settlementEvents (id : StreamId) (s : Stream) : Option Stream → List Published
  | none => [.streamCompleted id]
  | some s' =>
      if s'.status = .completed then [.autoRenewFailed id s.sender s.deposit, .streamCompleted id] else []

def withdrawalEvents (w : World) (single : Bool) (id : StreamId) (s : Stream) (claim : Int) (now : Nat)
    (out : Option Stream) : List Published :=
  (if single then feeEvents w id s claim else []) ++ settlementEvents id s out ++
    [.streamWithdrawn id s.recipient claim now]

def handOverEvents (w : World) (id : StreamId) (s : Stream) (claim : Int) (tau : Nat) (recipient : Address) :
    List Published :=
  (if 0 < claim then feeEvents w id s claim ++ [.streamWithdrawn id s.recipient claim tau] else []) ++
    [.recipientTransferred id s.recipient recipient]

def creationEvents (s : Stream) (fees : List Transfer) : List Published :=
  fees.map (fun t => .creationFeeCollected t.amount t.payee) ++
    [.streamCreated s.id s.sender s.recipient s.deposit s.flowRate s.endTime]

def closingEvents (id : StreamId) (s : Stream) (amount : Int) (bySender : Bool) : List Published :=
  if bySender then [.streamCancelled id s.sender (refundOf s amount) amount]
  else [.streamTerminatedByRecipient id s.recipient amount (refundOf s amount)]

def splitEvents (host : Host) (id : StreamId) (s : Stream) (tau : Nat) (deposit cancelAmount earned : Int) :
    List Published :=
  [.streamCancelled id s.sender cancelAmount earned,
    .streamPartialCancelled id (splitSuccessor host id s tau deposit).id s.sender cancelAmount deposit]

/-- One change of the book with the events that go with it. A batch of withdrawals tells less
of each than a single one. -/
inductive Report (env : Env host) (single : Bool) (w : World) :
    List Stream → Book → List Transfer → List Published → Prop
  | nonceMarked (sender) (nonce) : Report env single w [] (w.book.markNonce sender nonce) [] []
  | batchCounted (sender) (n) : Report env single w [] (w.book.countBatch sender n) [] []
  | opened (s) (duration) (fees) (h : Opening env s duration) (hfree : w.book.streams.lookup s.id = none)
      (hroom : w.book.RoomFor s)
      (hfees : ∀ t ∈ fees, t.payer = s.sender ∧ 0 ≤ t.amount ∧ t.cause = .creationFee s.id) :
      Report env single w [s] (w.book.add s) (fees ++ [lockTransfer host s]) (creationEvents s fees)
  | withdrawn (id) (s) (claim) (w₁) (out) (us) (h : Withdrawal env w single id s claim w₁ out us) :
      Report env single w [] (w.book.settle id (s.checkpoint claim env.now) out) (claimedTransfers host w s claim ++ us)
        (withdrawalEvents w single id s claim env.now out)
  | handedOver (id) (s) (claim) (w₁) (recipient) (hsingle : single = true)
      (h : HandOver env w id s claim w₁ recipient) :
      Report env single w [] (HandOver.book w.book id s claim (s.clock env.now) recipient)
        (claimedTransfers host w s claim) (handOverEvents w id s claim (s.clock env.now) recipient)
  | closed (id) (s) (t) (amount) (bySender) (hs : w.book.streams.lookup id = some s) (hlive : s.Live)
      (hamount : earnedAt s t = some amount ∨ claimableAt s t = some amount) (hcov : Covered env w s amount) :
      Report env single w [] (w.book.close id s) (closingTransfers host s amount) (closingEvents id s amount bySender)
  | split (id) (s) (cancelAmount) (earned) (streamed) (h : Split env w id s cancelAmount earned streamed) :
      Report env single w [splitSuccessor host id s (s.clock env.now) (splitDeposit s streamed cancelAmount)]
        (splitBook host w.book id s (s.clock env.now) (splitDeposit s streamed cancelAmount))
        (splitTransfers host s earned cancelAmount)
        (splitEvents host id s (s.clock env.now) (splitDeposit s streamed cancelAmount) cancelAmount earned)
  | toppedUp (id) (s) (caller) (amount) (h : TopUp env w id s caller amount) :
      Report env single w [] (w.book.save (s.toppedUp (topUpAmount s amount)))
        [topUpTransfer host s caller (topUpAmount s amount)]
        [.streamToppedUp id (topUpAmount s amount) (s.toppedUp (topUpAmount s amount)).endTime]
  | paused (id) (s) (hs : w.book.streams.lookup id = some s) (hauth : env.auths s.sender = true)
      (hactive : s.status = .active) :
      Report env single w [] (w.book.save { s with status := .paused, lastPauseTime := env.now }) []
        [.streamPaused id s.sender]
  | resumed (id) (s) (hs : w.book.streams.lookup id = some s) (hauth : env.auths s.sender = true)
      (hpaused : s.status = .paused) :
      Report env single w [] (w.book.save (resumed s (env.now - s.lastPauseTime))) [] [.streamResumed id s.sender]
  | relabelled (id) (s) (metadata) (hs : w.book.streams.lookup id = some s) (hauth : env.auths s.sender = true) :
      Report env single w [] (w.book.save { s with metadata }) [] [.metadataUpdated id metadata]
  | renewalCancelled (id) (s) (hs : w.book.streams.lookup id = some s) (hauth : env.auths s.sender = true) :
      Report env single w [] (w.book.save { s with autoRenew := false }) [] [.autoRenewCancelled id]
  | delegated (id) (s) (operator) (hs : w.book.streams.lookup id = some s)
      (hauth : env.auths s.sender = true) : Report env single w [] (w.book.setDelegate id operator) [] []
  | archived (id) (s) (h : Archival env w id s) :
      Report env single w [] ((w.book.close id s).setDelegate id none) []
        [.streamArchived id s.sender s.recipient s.deposit]

/-- A change that reports is one of the changes a call can make. -/
theorem Report.action {made : List Stream} {b : Book} {ts : List Transfer} {es : List Published}
    (h : Report env single w made b ts es) : Action env w made b ts := by
  cases h with
  | nonceMarked sender nonce => exact .nonceMarked sender nonce
  | batchCounted sender n => exact .batchCounted sender n
  | opened s duration fees h hfree hroom hfees => exact .opened s duration fees h hfree hroom hfees
  | withdrawn id s claim w₁ out us h => exact .withdrawn single id s claim w₁ out us h
  | handedOver id s claim w₁ recipient hsingle h => exact .handedOver id s claim w₁ recipient h
  | closed id s t amount bySender hs hlive hamount hcov => exact .closed id s t amount hs hlive hamount hcov
  | split id s cancelAmount earned streamed h => exact .split id s cancelAmount earned streamed h
  | toppedUp id s caller amount h => exact .toppedUp id s caller amount h
  | paused id s hs hauth hactive => exact .paused id s hs hauth hactive
  | resumed id s hs hauth hpaused => exact .resumed id s hs hauth hpaused
  | relabelled id s metadata hs hauth => exact .amended id s metadata s.autoRenew hs hauth fun h => h
  | renewalCancelled id s hs hauth => exact .amended id s s.metadata false hs hauth (by simp)
  | delegated id s operator hs hauth => exact .delegated id s operator hs hauth
  | archived id s h => exact .archived id s h

def Reported (env : Env host) (single : Bool) (es : List Published) (w w' : World) : Prop :=
  ∃ made b ts w₁, Report env single w made b ts es ∧ Moved host ts w w₁ ∧ w₁.withBook b = w'

theorem Reported.acted {es : List Published} (h : Reported env single es w w') : ∃ made, Acted env made w w' := by
  obtain ⟨made, b, ts, w₁, hreport, hmoved, rfl⟩ := h
  exact ⟨made, b, ts, w₁, hreport.action, hmoved, rfl⟩

theorem Report.reported {made : List Stream} {b : Book} {ts : List Transfer} {es : List Published}
    (h : Report env single w made b ts es) : Reported env single es w ((w.pay ts).withBook b) :=
  ⟨made, b, ts, _, h, Moved.pay w ts, rfl⟩

theorem Report.silent {made : List Stream} {b : Book} {es : List Published} (h : Report env single w made b [] es) :
    Reported env single es w (w.withBook b) := by
  simpa only [pay_nil] using h.reported

variable {l l' : List Published} {u : Unit} {id : StreamId} {s : Stream}

theorem collectCreationFee_told {sender : Address}
    (h : Emitting.collectCreationFee sender id env (w, l) = .ok u (w', l')) :
    ∃ ts, creationFees w sender id = some ts ∧ l' = l ++ ts.map fun t => .creationFeeCollected t.amount t.payee := by
  simp only [Emitting.collectCreationFee, ask, quietly_bind_ok, quietly_read_bind, ite_ok, okOr_bind_ok, publish_ok,
    pure_ok, Prod.mk.injEq] at h
  rcases h with ⟨hpos, t, ht, x, hx, _, _, -, -, rfl⟩ | ⟨hpos, -, -, rfl⟩
  · refine ⟨[⟨x, sender, t, Storage.getCreationFeeXlm w, .creationFee id⟩], ?_, rfl⟩
    simp only [creationFees, if_pos hpos, ht, hx]
  · exact ⟨[], by simp only [creationFees, if_neg hpos], by simp⟩

theorem createStream_told {a : CreateArgs} {newId : StreamId}
    (h : Emitting.createStream a env (w, l) = .ok newId (w', l')) :
    ∃ fees, creationFees w a.sender (createdStream host a env.now).id = some fees ∧
      l' = l ++ creationEvents (createdStream host a env.now) fees := by
  simp only [Emitting.createStream, timestamp, ask, quietly_bind_ok, quietly_read_bind, requireRunning_ok,
    requireAuth_ok, okOr_bind_ok, failIf_bind_ok, divI128_ok, checkedAddU64, Checked.addNat_eq_some, markNonceUsed_ok,
    and_assoc, exists_and_left, exists_eq_left', exists_const] at h
  obtain ⟨-, -, -, -, -, -, -, -, -, -, -, -, -, -, -, h⟩ := h
  obtain ⟨_, ⟨w₁, l₁⟩, hcollect, h⟩ := bind_ok.mp h
  simp only [quietly_bind_ok, publish_bind, pure_ok, Prod.mk.injEq] at h
  obtain ⟨_, _, -, _, _, -, -, -, rfl⟩ := h
  obtain ⟨fees, hfees, rfl⟩ := collectCreationFee_told hcollect
  exact ⟨fees, hfees, List.append_assoc ..⟩

theorem batchCreateItem_told {a : BatchArgs} {now : Nat} {entry : BatchItem × StreamId} {newId : StreamId}
    (h : Emitting.batchCreateItem a now (now + a.durationSeconds.val) entry env (w, l) = .ok newId (w', l')) :
    l' = l ++ creationEvents (batchedStream a now entry) [] := by
  simp only [Emitting.batchCreateItem, quietly_bind_ok, divI128_ok, publish_bind, pure_ok, Prod.mk.injEq, and_assoc,
    exists_and_left, exists_eq_left'] at h
  obtain ⟨-, _, _, -, _, _, -, -, -, rfl⟩ := h
  rfl

theorem batchCreateStream_told {a : BatchArgs} {ids : List StreamId}
    (h : Emitting.batchCreateStream a env (w, l) = .ok ids (w', l')) :
    each (Emitting.batchCreateItem a env.now (env.now + a.durationSeconds.val)) (batchEntries host a env.now) env
      ((w.awake env.now).withBook (w.book.countBatch a.sender (a.nonce.val + 1)), l) = .ok ids (w', l') := by
  simp only [Emitting.batchCreateStream, timestamp, ask, quietly_bind_ok, quietly_read_bind, requireRunning_ok,
    requireAuth_ok, okOr_bind_ok, okOrHalt_bind_ok, failIf_bind_ok, ne_eq, not_not, checkedAddU64, checkedAddU32,
    Checked.addNat_eq_some, incrementBatchNonce_ok, and_assoc, exists_and_left, exists_eq_left', exists_const] at h
  obtain ⟨-, -, hnonce, -, -, -, -, -, -, out, _, hids, h⟩ := h
  obtain ⟨rfl, rfl, -⟩ := batchIds_ok hids
  rw [← hnonce] at h
  exact h

def Writes (hook : Emitting.FeeHook host) (lines : Address → Int → List Published) : Prop :=
  ∀ ⦃env a token fee w l u w' l'⦄, hook a token fee env (w, l) = .ok u (w', l') → l' = l ++ lines a fee

theorem feeHook_writes (id : StreamId) :
    Writes (Emitting.feeHook id : Emitting.FeeHook host) fun treasury fee => [.feeCollected id fee treasury] := by
  intro env a token fee w l u w' l' h
  exact (Prod.mk.inj (publish_ok.mp h)).2.symm

theorem depositHook_writes : Writes (Emitting.depositHook : Emitting.FeeHook host) fun _ _ => [] := by
  intro env a token fee w l u w' l' h
  rw [List.append_nil]
  exact (quietly_ok.mp h).2.symm

theorem hookEvents_none (w : World) (s : Stream) (claim : Int) : hookEvents (fun _ _ => []) w s claim = [] := by
  cases ht : Storage.getTreasury w <;> simp [hookEvents, ht]

theorem mem_hookEvents {lines : Address → Int → List Published} {claim : Int} {e : Published}
    (h : e ∈ hookEvents lines w s claim) :
    (0 < claim ∧ 0 < feeOf w s.recipient claim) ∧ ∃ a, Storage.getTreasury w = some a ∧
      e ∈ lines a (feeOf w s.recipient claim) := by
  by_cases hpos : 0 < claim ∧ 0 < feeOf w s.recipient claim
  · simp only [hookEvents, if_pos hpos] at h
    cases ht : Storage.getTreasury w with
    | none =>
        rw [ht] at h
        exact absurd h List.not_mem_nil
    | some a =>
        rw [ht] at h
        exact ⟨hpos, a, rfl, h⟩
  · simp only [hookEvents, if_neg hpos] at h
    exact absurd h List.not_mem_nil

theorem mem_settlementEvents {out : Option Stream} {e : Published} (h : e ∈ settlementEvents id s out) :
    e = .autoRenewFailed id s.sender s.deposit ∨ e = .streamCompleted id := by
  cases out with
  | none => exact .inr (List.mem_singleton.mp h)
  | some s' =>
      rw [settlementEvents] at h
      split at h
      · exact List.mem_pair.mp h
      · exact absurd h List.not_mem_nil

theorem mem_feeEvents {claim : Int} {e : Published} (h : e ∈ feeEvents w id s claim) :
    ∃ a, e = .feeCollected id (feeOf w s.recipient claim) a := by
  obtain ⟨-, a, -, he⟩ := mem_hookEvents h
  exact ⟨a, List.mem_singleton.mp he⟩

variable {hook : Emitting.FeeHook host} {lines : Address → Int → List Published} {claim amount : Int}

theorem payClaim_told (hhook : Writes hook lines) (hpos : 0 < claim)
    (h : Emitting.payClaim hook s claim env (w, l) = .ok amount (w', l')) : l' = l ++ hookEvents lines w s claim := by
  simp only [Emitting.payClaim, ask, quietly_bind_ok, feeAmount_ok, ite_ok, quietly_read_bind, and_assoc,
    exists_and_left, exists_eq_left'] at h
  obtain ⟨-, _, w₁, hpay, ⟨hfee, hsent⟩ | ⟨hfee, hkept⟩⟩ := h
  · have htreasury : Storage.getTreasury w₁ = Storage.getTreasury w := by
      simp only [Storage.getTreasury, (transferPositive_moved hpay).config]
    rw [htreasury] at hsent
    simp only [hookEvents, if_pos (And.intro hpos hfee)]
    cases ht : Storage.getTreasury w with
    | none =>
        simp only [ht, pure_ok, Prod.mk.injEq] at hsent
        simpa using hsent.2.2.symm
    | some a =>
        simp only [ht, quietly_bind_ok] at hsent
        obtain ⟨_, w₂, -, hsent⟩ := hsent
        obtain ⟨_, ⟨w₃, l₃⟩, hcall, hdone⟩ := bind_ok.mp hsent
        obtain ⟨-, -, rfl⟩ := by simpa only [pure_ok, Prod.mk.injEq] using hdone
        exact hhook hcall
  · have hnone : ¬(0 < claim ∧ 0 < feeOf w s.recipient claim) := fun h => hfee h.2
    obtain ⟨-, -, rfl⟩ := by simpa only [pure_ok, Prod.mk.injEq] using hkept
    simp only [hookEvents, if_neg hnone, List.append_nil]

theorem claimBlock_told (hhook : Writes hook lines) {after : Int → Contract host Unit} {s' : Stream}
    (h : Emitting.claimBlock hook after s claim env (w, l) = .ok s' (w', l')) :
    l' = l ++ hookEvents lines w s claim := by
  by_cases hpos : 0 < claim
  · simp only [Emitting.claimBlock, if_pos hpos, okOr_bind_ok, failIf_bind_ok] at h
    obtain ⟨_, -, -, h⟩ := h
    obtain ⟨amount, ⟨w₁, l₁⟩, hpay, h⟩ := bind_ok.mp h
    simp only [quietly_bind_ok, pure_ok, Prod.mk.injEq] at h
    obtain ⟨_, _, -, -, -, rfl⟩ := h
    exact payClaim_told hhook hpos hpay
  · have hnone : ¬(0 < claim ∧ 0 < feeOf w s.recipient claim) := fun h => hpos h.1
    simp only [Emitting.claimBlock, if_neg hpos, pure_ok, Prod.mk.injEq] at h
    obtain ⟨-, -, rfl⟩ := h
    simp only [hookEvents, if_neg hnone, List.append_nil]

theorem settleStream_told {looks : Bool} {now : Nat} {out : Option Stream} {us : List Transfer}
    (hactive : s.status = .active) (hset : Settlement env w now looks s out us)
    (h : Emitting.settleStream looks id s now env (w, l) = .ok u (w', l')) : l' = l ++ settlementEvents id s out := by
  cases hset with
  | running hend =>
      simp only [Emitting.settleStream, if_neg (not_le.mpr hend), quietly_ok] at h
      obtain rfl : l = l' := h.2
      simp [settlementEvents, hactive]
  | renewed hend horder hauto hfunds =>
      have hfunded : ¬(looks = true ∧ w.balances s.token s.sender < s.deposit) := fun h =>
        absurd h.2 (not_lt.mpr (hfunds h.1))
      simp only [Emitting.settleStream, if_pos hend, if_pos hauto, balanceOf, ask, quietly_bind_ok, quietly_read_bind,
        subU64_ok, if_neg hfunded, quietly_ok, and_assoc, exists_and_left, exists_eq_left'] at h
      obtain ⟨-, -, rfl⟩ := h
      simp [settlementEvents, Stream.renewed, hactive]
  | lapsed hend horder hauto hlooks hfunds =>
      simp only [Emitting.settleStream, if_pos hend, if_pos hauto, balanceOf, ask, quietly_bind_ok, quietly_read_bind,
        subU64_ok, if_pos (And.intro hlooks hfunds), publish_bind, quietly_ok, and_assoc, exists_and_left,
        exists_eq_left'] at h
      obtain ⟨-, _, _, -, -, rfl⟩ := h
      simp [settlementEvents]
  | finished hend horder hauto =>
      have hplain : ¬s.autoRenew = true := Bool.not_eq_true _ ▸ hauto
      simp only [Emitting.settleStream, Emitting.finishStream, if_pos hend, if_neg hplain, quietly_bind_ok, subU64_ok,
        publish_bind, quietly_ok, and_assoc, exists_and_left, exists_eq_left'] at h
      obtain ⟨-, _, _, -, -, rfl⟩ := h
      rfl

theorem withdrawal_reported {w₁ : World} {out : Option Stream} {us : List Transfer}
    (h : Withdrawal env w single id s claim w₁ out us) :
    Reported env single (withdrawalEvents w single id s claim env.now out) w
      (Withdrawal.result w₁ id s claim env.now out us) := by
  refine ⟨_, _, _, _, .withdrawn id s claim w₁ out us h, h.paid.trans (Moved.pay w₁ us), ?_⟩
  simp only [Withdrawal.result, h.paid.book]

theorem withdraw_reported {recipient : Address} (h : Emitting.withdraw id recipient env (w, l) = .ok u (w', l')) :
    ∃ es, l' = l ++ es ∧ Reported env true es (w.awake env.now) w' := by
  simp only [Emitting.withdraw, timestamp, ask, quietly_bind_ok, quietly_read_bind, requireRunning_ok, requireAuth_ok,
    okOr_bind_ok, failIf_bind_ok, not_not, not_lt, and_assoc, exists_and_left, exists_eq_left', exists_const] at h
  obtain ⟨-, hauth, s, hs, hr, hactive, hlock, -, claim, hclaim, h⟩ := h
  obtain ⟨s', ⟨w₁, l₁⟩, hblock, h⟩ := bind_ok.mp h
  obtain ⟨_, ⟨_, l₂⟩, hsettle, h⟩ := bind_ok.mp h
  obtain ⟨rfl, rfl⟩ := Prod.mk.inj (publish_ok.mp h)
  have hplain := Erases.ok (y := Contract.claimBlock noHook (fun _ => notifyRecipient recipient) s claim) hblock
  obtain ⟨rfl, -, -⟩ := claimBlock_ok noHook_harmless (fun h => notifyRecipient_moved h) hplain
  subst hr
  change Emitting.settleStream true id (s.checkpoint claim env.now) env.now env (w₁, l₁) = _ at hsettle
  obtain ⟨out, us, hw, rfl⟩ := withdrawal_of_block (w := w.awake env.now) hs hauth hactive hlock hclaim hplain
    (Erases.ok (y := Contract.settleStream true id (s.checkpoint claim env.now) env.now) hsettle)
  have hfee : l₁ = l ++ feeEvents (w.awake env.now) id s claim := claimBlock_told (feeHook_writes id) hblock
  have hend : l₂ = l₁ ++ settlementEvents id (s.checkpoint claim env.now) out :=
    settleStream_told (hactive : (s.checkpoint claim env.now).status = .active) hw.settled hsettle
  refine ⟨_, ?_, withdrawal_reported hw⟩
  rw [hend, hfee, withdrawalEvents, if_pos rfl, List.append_assoc, List.append_assoc, List.append_assoc]
  rfl

theorem batchWithdrawItem_reported {recipient : Address} (hauth : env.auths recipient = true)
    (h : Emitting.batchWithdrawItem recipient id env (w, l) = .ok claim (w', l')) :
    ∃ s w₁ out us, Withdrawal env w false id s claim w₁ out us ∧ Withdrawal.result w₁ id s claim env.now out us = w' ∧
      l' = l ++ withdrawalEvents w false id s claim env.now out := by
  simp only [Emitting.batchWithdrawItem, timestamp, ask, quietly_read_bind, okOr_bind_ok, failIf_bind_ok, not_not,
    not_lt] at h
  obtain ⟨s, hs, hr, hactive, hlock, claim', hclaim, h⟩ := h
  obtain ⟨s', ⟨w₁, l₁⟩, hblock, h⟩ := bind_ok.mp h
  obtain ⟨_, ⟨_, l₂⟩, hsettle, h⟩ := bind_ok.mp h
  simp only [publish_bind, pure_ok, Prod.mk.injEq] at h
  obtain ⟨hsame, rfl, rfl⟩ := h
  subst claim'
  obtain ⟨rfl, hcover, hpaid⟩ :=
    batchClaim_ok (Erases.ok (y := Contract.claimBlock Contract.depositHook (fun _ => pure ()) s claim) hblock)
  subst hr
  change Emitting.settleStream false id (s.checkpoint claim env.now) env.now env (w₁, l₁) = _ at hsettle
  obtain ⟨out, us, hset, rfl⟩ :=
    settleStream_ok.mp (Erases.ok (y := Contract.settleStream false id (s.checkpoint claim env.now) env.now) hsettle)
  refine ⟨s, w₁, out, us, ⟨hs, hauth, hactive, hlock, hclaim, hcover, hpaid, fun h => Bool.noConfusion h, hset⟩,
    rfl, ?_⟩
  have hfee : l₁ = l ++ hookEvents (fun _ _ => []) w s claim := claimBlock_told depositHook_writes hblock
  have hend : l₂ = l₁ ++ settlementEvents id (s.checkpoint claim env.now) out :=
    settleStream_told (hactive : (s.checkpoint claim env.now).status = .active) hset hsettle
  rw [hend, hfee, hookEvents_none, List.append_nil, withdrawalEvents, if_neg Bool.false_ne_true, List.nil_append,
    List.append_assoc]
  rfl

theorem claimForTransfer_told {tau : Nat} {s' : Stream}
    (h : Emitting.claimForTransfer id s tau env (w, l) = .ok s' (w', l')) :
    ∃ claim, handOverClaim s tau = some claim ∧
      l' = l ++ if 0 < claim then feeEvents w id s claim ++ [.streamWithdrawn id s.recipient claim tau] else [] := by
  by_cases hopen : s.lockUntil ≤ tau ∧ s.cliffTime ≤ tau
  · simp only [Emitting.claimForTransfer, if_pos hopen, okOr_bind_ok] at h
    obtain ⟨claim, hclaim, h⟩ := h
    refine ⟨claim, by simp only [handOverClaim, if_pos hopen, hclaim], ?_⟩
    by_cases hpos : 0 < claim
    · rw [if_pos hpos] at h ⊢
      obtain ⟨_, ⟨w₁, l₁⟩, hpay, h⟩ := bind_ok.mp h
      simp only [okOr_bind_ok, publish_bind, pure_ok, Prod.mk.injEq] at h
      obtain ⟨_, -, -, -, rfl⟩ := h
      rw [payClaim_told (feeHook_writes id) hpos hpay, List.append_assoc]
      rfl
    · rw [if_neg hpos, List.append_nil]
      simp only [if_neg hpos, pure_ok, Prod.mk.injEq] at h
      exact h.2.2.symm
  · simp only [Emitting.claimForTransfer, if_neg hopen, pure_ok, Prod.mk.injEq] at h
    exact ⟨0, by simp only [handOverClaim, if_neg hopen], by simp [h.2.2]⟩

theorem transferRecipient_reported {current recipient : Address}
    (h : Emitting.transferRecipient id current recipient env (w, l) = .ok u (w', l')) :
    ∃ es, l' = l ++ es ∧ Reported env true es (w.awake env.now) w' := by
  obtain ⟨-, s, claim, w₁, -, hh, hw'⟩ :=
    transferRecipient_ok (w := w) (Erases.ok (y := Contract.transferRecipient id current recipient) h)
  have hs : w.book.streams.lookup id = some s := hh.stored
  simp only [Emitting.transferRecipient, timestamp, ask, quietly_bind_ok, quietly_read_bind, requireRunning_ok,
    requireAuth_ok, Storage.loadStream, awake_book, hs, okOr_bind_ok, failIf_bind_ok, Option.some.injEq, and_assoc,
    exists_and_left, exists_eq_left', exists_const] at h
  obtain ⟨-, -, -, -, h⟩ := h
  obtain ⟨s', ⟨w₂, l₂⟩, hclaim, h⟩ := bind_ok.mp h
  simp only [quietly_bind_ok, publish_ok, Prod.mk.injEq] at h
  obtain ⟨_, _, -, _, _, -, _, _, -, -, rfl⟩ := h
  obtain ⟨claim', hclaim', rfl⟩ := claimForTransfer_told hclaim
  obtain rfl := Option.some.inj (hclaim'.symm.trans hh.claimed)
  obtain ⟨_, -, hs', -, -⟩ :=
    claimForTransfer_ok (Erases.ok (y := Contract.claimForTransfer s (s.clock env.now)) hclaim)
  refine ⟨_, ?_, _, _, _, w₁, .handedOver id _ _ w₁ recipient rfl hh, hh.paid, ?_⟩
  · rw [handOverEvents, List.append_assoc, hs', advance_recipient]
  · rw [← hh.paid.book]
    exact hw'

end SoroStream
