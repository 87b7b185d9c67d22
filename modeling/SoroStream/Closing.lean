import SoroStream.Withdrawal

namespace SoroStream

open Lib Lib.Rollback Lib.Rollback.Prog Contract

variable {host : Host} {env : Env host} {w w' : World} {u : Unit} {id : StreamId} {s : Stream}

def refundTransfer (host : Host) (s : Stream) (amount : Int) : Transfer :=
  ⟨s.token, host.contract, s.sender, amount, .refund s.id⟩

def refundOf (s : Stream) (amount : Int) : Int :=
  saturatingSubI128 (saturatingSubI128 s.deposit s.totalWithdrawn) amount

def closingTransfers (host : Host) (s : Stream) (amount : Int) : List Transfer :=
  positive (claimTransfer host s amount) ++ positive (refundTransfer host s (refundOf s amount))

structure Covered (env : Env host) (w : World) (s : Stream) (amount : Int) : Prop where
  share : 0 < amount → Payable env w (claimTransfer host s amount)
  refund : 0 < refundOf s amount →
    Payable env (w.pay (positive (claimTransfer host s amount))) (refundTransfer host s (refundOf s amount))

def closed (host : Host) (w : World) (id : StreamId) (s : Stream) (amount : Int) : World :=
  (w.pay (closingTransfers host s amount)).withBook (w.book.close id s)

theorem payOutAndClose_ok {amount : Int} :
    payOutAndClose id s amount env w = .ok u w' ↔
      Covered env w s amount ∧ closed host w id s amount = w' := by
  simp only [payOutAndClose, bind_ok, transferPositive_ok, closeStream_ok, and_assoc, exists_and_left,
    exists_eq_left', exists_const]
  constructor
  · rintro ⟨hshare, hrefund, rfl⟩
    exact ⟨⟨hshare, hrefund⟩, by rw [pay_pay]; rfl⟩
  · rintro ⟨⟨hshare, hrefund⟩, rfl⟩
    exact ⟨hshare, hrefund, by rw [pay_pay]; rfl⟩

theorem requireSenderOrDelegate_ok {caller : Address} :
    requireSenderOrDelegate id s caller env w = .ok u w' ↔
      (s.sender = caller ∨ w.book.delegates id = some caller) ∧ w = w' := by
  simp only [requireSenderOrDelegate, ask, read_bind, failIf_ok, Storage.getDelegate, ne_eq, not_and, not_not,
    or_iff_not_imp_left, eq_comm (a := some caller)]

def earnedAt (s : Stream) (t : Nat) : Option Int :=
  VestingMath.computeEarned s.flowRate t s.endTime s.lastWithdrawTime

def claimableAt (s : Stream) (t : Nat) : Option Int :=
  VestingMath.computeClaimable s.flowRate t s.cliffTime s.endTime s.lastWithdrawTime

theorem cancelStream_ok {caller : Address} :
    cancelStream id caller env w = .ok u w' ↔
      env.auths caller = true ∧ ∃ s amount, w.book.streams.lookup id = some s ∧
        (s.sender = caller ∨ w.book.delegates id = some caller) ∧ s.Live ∧
        earnedAt s (s.clock env.now) = some amount ∧ Covered env w s amount ∧
        closed host w id s amount = w' := by
  simp only [cancelStream, timestamp, ask, seq_ok, requireAuth_ok, read_bind, Storage.loadStream, okOr_bind_ok,
    requireSenderOrDelegate_ok, failIf_ok, not_not, payOutAndClose_ok, earnedAt, and_assoc, exists_and_left,
    exists_eq_left']

theorem recipientTerminate_ok {recipient : Address} :
    recipientTerminate id recipient env w = .ok u w' ↔
      w.pause.pausedAt env.now = false ∧ env.auths recipient = true ∧
        ∃ s amount, w.book.streams.lookup id = some s ∧ s.recipient = recipient ∧
        s.allowRecipientTermination = true ∧ s.Live ∧
        claimableAt s (s.clock env.now) = some amount ∧ Covered env (w.awake env.now) s amount ∧
        closed host (w.awake env.now) id s amount = w' := by
  simp only [recipientTerminate, timestamp, ask, seq_ok, requireRunning_ok, requireAuth_ok, read_bind,
    Storage.loadStream, okOr_bind_ok, failIf_ok, not_not, Bool.not_eq_false, payOutAndClose_ok, claimableAt, and_assoc,
    exists_and_left, exists_eq_left']
  rfl

theorem batchCancelItem_ok {sender : Address} :
    batchCancelItem sender id env w = .ok u w' ↔
      ∃ s amount, w.book.streams.lookup id = some s ∧ s.sender = sender ∧ s.Live ∧
        earnedAt s env.now = some amount ∧ Covered env w s amount ∧ closed host w id s amount = w' := by
  simp only [batchCancelItem, timestamp, ask, seq_ok, read_bind, Storage.loadStream, okOr_bind_ok, failIf_ok, not_not,
    payOutAndClose_ok, earnedAt, and_assoc, exists_and_left, exists_eq_left']

theorem payOutAndClose_err {amount : Int} {e : StreamError} :
    ¬payOutAndClose id s amount env w = .err e w' := by
  have hsend : ∀ t (v v' : World), ¬transferPositive t env v = .err e v' := by
    intro t v v' h
    unfold transferPositive at h
    split at h <;> simp [transfer, bind_eq_err, read_err, haltIf_err, update_err] at h
  simp [payOutAndClose, bind_eq_err, hsend, closeStream, Storage.removeStream, Storage.unindexBySender,
    Storage.unindexByRecipient, setBook, update_err]

/-- An item is refused before it writes, and a live stream of the sender only where the
arithmetic fails. -/
theorem batchCancelItem_refuses {sender : Address} {e : StreamError}
    (h : batchCancelItem sender id env w = .err e w') :
    w = w' ∧ ∀ s, w.book.streams.lookup id = some s → s.sender = sender → s.Live → earnedAt s env.now = none := by
  simp only [batchCancelItem, timestamp, ask, read_bind, Storage.loadStream, okOr_bind_err, failIf_bind_err,
    payOutAndClose_err, and_false, exists_false, or_false] at h
  rcases h with ⟨hnone, -, rfl⟩ | ⟨s, hs, ⟨hsender, -, rfl⟩ | ⟨-, ⟨hlive, -, rfl⟩ | ⟨-, hearned, -, rfl⟩⟩⟩
  · exact ⟨rfl, fun s hs => absurd (hs.symm.trans hnone) (Option.some_ne_none s)⟩
  · exact ⟨rfl, fun r hr hown => absurd (Option.some.inj (hs.symm.trans hr) ▸ hown) hsender⟩
  · exact ⟨rfl, fun r hr _ => (absurd · (Option.some.inj (hs.symm.trans hr) ▸ hlive))⟩
  · exact ⟨rfl, fun r hr _ _ => Option.some.inj (hs.symm.trans hr) ▸ hearned⟩

theorem batchCancelItem_err {sender : Address} {e : StreamError}
    (h : batchCancelItem sender id env w = .err e w') : w = w' := (batchCancelItem_refuses h).1

/-- What one pass of the batch can do: nothing, or close a live stream of the sender. -/
theorem batchCancelItem_cases {sender : Address} {result : Except StreamError Unit}
    (h : attempt (batchCancelItem sender id) env w = .ok result w') :
    w = w' ∨ ∃ s amount, w.book.streams.lookup id = some s ∧ s.sender = sender ∧ s.Live ∧
      earnedAt s env.now = some amount ∧ Covered env w s amount ∧ closed host w id s amount = w' := by
  rcases attempt_ok.mp h with ⟨u, h, -⟩ | ⟨e, h, -⟩
  · exact .inr (batchCancelItem_ok.mp h)
  · exact .inl (batchCancelItem_err h)

theorem batchCancelStream_ok {ids : List StreamId} {sender : Address}
    {results : List (Except StreamError Unit)} (h : batchCancelStream ids sender env w = .ok results w') :
    env.auths sender = true ∧
      each (fun id => attempt (batchCancelItem sender id)) ids env w = .ok results w' := by
  simp only [batchCancelStream, bind_ok, requireAuth_ok, failIf_ok, and_assoc, exists_and_left, exists_eq_left',
    exists_const] at h
  obtain ⟨hauth, -, hitems⟩ := h
  exact ⟨hauth, hitems⟩

def splitDeposit (s : Stream) (streamed cancelAmount : Int) : Int :=
  saturatingSubI128 s.deposit streamed - cancelAmount

def splitSuccessor (host : Host) (id : StreamId) (s : Stream) (tau : Nat) (deposit : Int) : Stream :=
  successor s (Storage.deriveStreamId host s.sender s.recipient tau id) tau
    (tau + (deposit.tdiv s.flowRate).toNat) deposit

def splitTransfers (host : Host) (s : Stream) (earned cancelAmount : Int) : List Transfer :=
  positive (claimTransfer host s earned) ++ [refundTransfer host s cancelAmount]

def splitBook (host : Host) (b : Book) (id : StreamId) (s : Stream) (tau : Nat) (deposit : Int) : Book :=
  (b.save { s with status := .cancelled }).add (splitSuccessor host id s tau deposit)

structure Split (env : Env host) (w : World) (id : StreamId) (s : Stream)
    (cancelAmount earned streamed : Int) : Prop where
  stored : w.book.streams.lookup id = some s
  live : s.Live
  wanted : 0 < cancelAmount
  earned_eq : checkedMulI128 s.flowRate ↑(s.clock env.now - s.lastWithdrawTime) = some earned
  streamed_eq : checkedMulI128 s.flowRate ↑(s.clock env.now - s.startTime) = some streamed
  left : s.flowRate ≤ splitDeposit s streamed cancelAmount
  rate : s.flowRate ≠ 0
  duration : 0 ≤ (splitDeposit s streamed cancelAmount).tdiv s.flowRate
  fits : s.clock env.now + ((splitDeposit s streamed cancelAmount).tdiv s.flowRate).toNat ≤ u64Max
  share : 0 < earned → Payable env w (claimTransfer host s earned)
  refund : Payable env (w.pay (positive (claimTransfer host s earned))) (refundTransfer host s cancelAmount)
  room : (w.book.save { s with status := .cancelled }).RoomFor
    (splitSuccessor host id s (s.clock env.now) (splitDeposit s streamed cancelAmount))

theorem checkedFlowAmount_ok {flowRate amount : Int} {elapsed : Nat} :
    checkedFlowAmount flowRate elapsed env w = .ok amount w' ↔
      checkedMulI128 flowRate elapsed = some amount ∧ w = w' := by
  simp only [checkedFlowAmount, okOr_ok]

theorem divI128_ok {a b q : Int} : divI128 a b env w = .ok q w' ↔ b ≠ 0 ∧ a.tdiv b = q ∧ w = w' := by
  simp only [divI128, seq_ok, haltIf_ok, pure_ok, ne_eq, and_assoc, exists_and_left, exists_eq_left']

theorem divI128_bind_ok {α : Type} {a b : Int} {f : Int → Contract host α} {v : α} :
    (divI128 a b >>= f) env w = .ok v w' ↔ b ≠ 0 ∧ f (a.tdiv b) env w = .ok v w' := by
  simp only [bind_ok, divI128_ok, and_assoc, exists_and_left, exists_eq_left']

theorem partialCancelStream_ok {caller : Address} {cancelAmount : Int} {newId : StreamId}
    (h : partialCancelStream id caller cancelAmount env w = .ok newId w') :
    env.auths caller = true ∧ ∃ s earned streamed, (s.sender = caller ∨ w.book.delegates id = some caller) ∧
      newId = Storage.deriveStreamId host s.sender s.recipient (s.clock env.now) id ∧
      Split env w id s cancelAmount earned streamed ∧
      (w.pay (splitTransfers host s earned cancelAmount)).withBook
        (splitBook host w.book id s (s.clock env.now) (splitDeposit s streamed cancelAmount)) = w' := by
  simp only [partialCancelStream, timestamp, ask, seq_ok, requireAuth_ok, read_bind, okOr_bind_ok, failIf_ok,
    not_not, not_or, not_le, not_lt, requireSenderOrDelegate_ok, checkedFlowAmount, divI128_bind_ok, checkedAddU64,
    Checked.addNat_eq_some, transferPositive_ok, transfer_ok, saveStream_ok, addStream_ok, pure_ok, and_assoc,
    exists_and_left, exists_eq_left'] at h
  obtain ⟨hauth, s, hs, hcaller, hlive, hwant, earned, hearned, streamed, hstreamed, -, hleft, hrate, h⟩ := h
  obtain ⟨hdur, -, hfits, hshare, hrefund, hroom, rfl, rfl⟩ := h
  refine ⟨hauth, s, earned, streamed, hcaller, rfl,
    ⟨hs, hlive, hwant, hearned, hstreamed, hleft, hrate, hdur, hfits, hshare, hrefund, hroom⟩, ?_⟩
  rw [pay_pay]
  rfl

theorem partialCancelStream_available {caller : Address} {cancelAmount earned streamed : Int} {s : Stream}
    (hauth : env.auths caller = true) (hcaller : s.sender = caller ∨ w.book.delegates id = some caller)
    (hrate : 0 < s.flowRate) (h : Split env w id s cancelAmount earned streamed) :
    partialCancelStream id caller cancelAmount env w =
      .ok (Storage.deriveStreamId host s.sender s.recipient (s.clock env.now) id)
        ((w.pay (splitTransfers host s earned cancelAmount)).withBook
          (splitBook host w.book id s (s.clock env.now) (splitDeposit s streamed cancelAmount))) := by
  have hleft := h.left
  have hfits := h.fits
  have hdur := h.duration
  simp only [partialCancelStream, timestamp, ask, bind_ok, requireAuth_ok, read_ok, okOr_ok, failIf_ok, not_not, not_or,
    not_le, not_lt, requireSenderOrDelegate_ok, checkedFlowAmount_ok, divI128_ok, checkedAddU64,
    Checked.addNat_eq_some, transferPositive_ok, transfer_ok, saveStream_ok, addStream_ok, pure_ok, and_assoc,
    exists_and_left, exists_eq_left', exists_const]
  refine ⟨hauth, s, h.stored, hcaller, h.live, h.wanted, earned, h.earned_eq, streamed, h.streamed_eq, ?_, hleft, ?_⟩
  · simp only [splitDeposit] at hleft
    omega
  refine ⟨h.rate, hdur, ?_, hfits, h.share, h.refund, h.room, rfl, ?_⟩
  · simp only [splitDeposit] at hdur hfits ⊢
    omega
  rw [pay_pay]
  rfl

structure Archival (env : Env host) (w : World) (id : StreamId) (s : Stream) : Prop where
  stored : w.book.streams.lookup id = some s
  signed : env.auths s.sender = true ∨ env.auths s.recipient = true
  paidOut : s.deposit ≤ saturatingAddI128 s.totalWithdrawn (dustOf s)

theorem archiveStream_ok {caller : Address} (h : archiveStream id caller env w = .ok u w') :
    ∃ s, Archival env w id s ∧ w.withBook ((w.book.close id s).setDelegate id none) = w' := by
  simp only [archiveStream, ask, seq_ok, requireAuth_ok, read_bind, okOr_bind_ok, failIf_ok, not_and, not_not, not_lt,
    closeStream_ok, ite_ok, pure_ok, Storage.removeDelegate, setBook, update_ok, and_assoc, exists_and_left,
    exists_eq_left'] at h
  obtain ⟨hauth, s, hs, hcaller, hpaid, hrest⟩ := h
  refine ⟨s, ⟨hs, ?_, hpaid⟩, ?_⟩
  · by_cases hc : s.sender = caller
    · exact .inl (hc ▸ hauth)
    · exact .inr (hcaller hc ▸ hauth)
  · rcases hrest with ⟨-, rfl⟩ | ⟨hnone, -, rfl⟩
    · rfl
    · have hdel : w.book.delegates id = none := by simpa [Storage.getDelegate, Book.close] using hnone
      have hsame : Function.update w.book.delegates id none = w.book.delegates :=
        Function.update_eq_self_iff.mpr hdel.symm
      simp only [Book.setDelegate, Book.close, hsame]

end SoroStream
