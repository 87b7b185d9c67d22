import SoroStream.Contract.Withdraw

namespace SoroStream.Contract

open Lib.Rollback Lib.Rollback.Prog Storage VestingMath

variable {host : Host}

/-- Pay the recipient its share and the sender the rest of what is still held for
the stream, then remove the record. -/
def payOutAndClose (streamId : StreamId) (stream : Stream) (recipientAmount : Int) :
    Contract host Unit := do
  let refundAmount :=
    saturatingSubI128 (saturatingSubI128 stream.deposit stream.totalWithdrawn) recipientAmount
  transferPositive ⟨stream.token, host.contract, stream.recipient, recipientAmount, .claim stream.id⟩
  transferPositive ⟨stream.token, host.contract, stream.sender, refundAmount, .refund stream.id⟩
  closeStream streamId stream

def requireSenderOrDelegate (streamId : StreamId) (stream : Stream) (caller : Address) :
    Contract host Unit := do
  let delegate ← ask (getDelegate streamId)
  failIf (stream.sender ≠ caller ∧ some caller ≠ delegate) .notAuthorized

def cancelStream (streamId : StreamId) (caller : Address) : Contract host Unit := do
  requireAuth caller
  let stream ← ask (loadStream streamId)
  let stream ← okOr .streamNotFound stream
  requireSenderOrDelegate streamId stream caller
  failIf (¬stream.Live) .streamNotActive
  let ledgerTime ← timestamp
  let recipientAmount ← okOr .overflow (computeEarned stream.flowRate (stream.clock ledgerTime)
    stream.endTime stream.lastWithdrawTime)
  payOutAndClose streamId stream recipientAmount

def recipientTerminate (streamId : StreamId) (recipient : Address) : Contract host Unit := do
  requireRunning
  requireAuth recipient
  let stream ← ask (loadStream streamId)
  let stream ← okOr .streamNotFound stream
  failIf (stream.recipient ≠ recipient) .notRecipient
  failIf (stream.allowRecipientTermination = false) .notAuthorized
  failIf (¬stream.Live) .streamNotActive
  let ledgerTime ← timestamp
  let recipientAmount ← okOr .overflow (computeClaimable stream.flowRate (stream.clock ledgerTime)
    stream.cliffTime stream.endTime stream.lastWithdrawTime)
  payOutAndClose streamId stream recipientAmount

/-- One pass of the batch: the ledger time is used also for a paused stream. -/
def batchCancelItem (sender : Address) (streamId : StreamId) : Contract host Unit := do
  let stream ← ask (loadStream streamId)
  let stream ← okOr .streamNotFound stream
  failIf (stream.sender ≠ sender) .notSender
  failIf (¬stream.Live) .streamNotActive
  let now ← timestamp
  let recipientAmount ← okOr .overflow (computeEarned stream.flowRate now
    stream.endTime stream.lastWithdrawTime)
  payOutAndClose streamId stream recipientAmount

def batchCancelStream (streamIds : List StreamId) (sender : Address) :
    Contract host (List (Except StreamError Unit)) := do
  requireAuth sender
  failIf (streamIds = [] ∨ 20 < streamIds.length) .batchLengthMismatch
  each (fun streamId => attempt (batchCancelItem sender streamId)) streamIds

def checkedFlowAmount (flowRate : Int) (elapsed : Nat) : Contract host Int :=
  okOr .overflow (checkedMulI128 flowRate elapsed)

/-- The record a partial cancellation leaves in place of the old one. -/
def successor (stream : Stream) (newStreamId : StreamId) (now newEndTime : Nat) (newDeposit : Int) :
    Stream :=
  { stream with
    id := newStreamId
    deposit := newDeposit
    startTime := now
    cliffTime := now
    lockUntil := now
    endTime := newEndTime
    lastWithdrawTime := now
    status := .active
    lastPauseTime := 0
    totalWithdrawn := 0 }

def partialCancelStream (streamId : StreamId) (caller : Address) (cancelAmount : Int) :
    Contract host StreamId := do
  requireAuth caller
  let stream ← ask (loadStream streamId)
  let stream ← okOr .streamNotFound stream
  requireSenderOrDelegate streamId stream caller
  failIf (¬stream.Live) .streamNotActive
  failIf (cancelAmount ≤ 0) .zeroAmount
  let ledgerTime ← timestamp
  let now := stream.clock ledgerTime
  -- neither product is capped at the end time
  let earned ← checkedFlowAmount stream.flowRate (now - stream.lastWithdrawTime)
  let totalStreamed ← checkedFlowAmount stream.flowRate (now - stream.startTime)
  let remaining := saturatingSubI128 stream.deposit totalStreamed
  failIf (remaining ≤ cancelAmount ∨ remaining - cancelAmount < stream.flowRate) .invalidPartialCancel
  let newDeposit := remaining - cancelAmount
  let newDuration ← divI128 newDeposit stream.flowRate
  failIf (newDuration < 0 ∨ (u64Max : Int) < newDuration) .overflow
  let newEndTime ← okOr .overflow (checkedAddU64 now newDuration.toNat)
  transferPositive ⟨stream.token, host.contract, stream.recipient, earned, .claim stream.id⟩
  transfer ⟨stream.token, host.contract, stream.sender, cancelAmount, .refund stream.id⟩
  saveStream { stream with status := .cancelled }
  let newStreamId := deriveStreamId host stream.sender stream.recipient now streamId
  addStream (successor stream newStreamId now newEndTime newDeposit)
  pure newStreamId

def archiveStream (streamId : StreamId) (caller : Address) : Contract host Unit := do
  requireAuth caller
  let stream ← ask (loadStream streamId)
  let stream ← okOr .streamNotFound stream
  failIf (stream.sender ≠ caller ∧ stream.recipient ≠ caller) .notAuthorized
  let duration := stream.endTime - stream.startTime
  let dust := streamDust stream duration
  failIf (saturatingAddI128 stream.totalWithdrawn dust < stream.deposit) .streamNotSettled
  closeStream streamId stream
  let delegate ← ask (getDelegate streamId)
  if delegate.isSome then removeDelegate streamId else pure ()

end SoroStream.Contract
