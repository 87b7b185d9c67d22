import SoroStream.Contract.Events
import SoroStream.Contract.Manage

namespace SoroStream.Emitting

open Lib.Rollback Lib.Rollback.Prog Storage VestingMath Contract

variable {host : Host}

def collectCreationFee (sender : Address) (streamId : StreamId) : Traced host Unit := do
  let creationFee ← quietly (ask getCreationFeeXlm)
  if 0 < creationFee then do
    let treasury ← quietly (ask getTreasury)
    let treasury ← okOr .notInitialized treasury
    let xlmToken ← quietly (ask getXlmToken)
    let xlmToken ← okOr .notInitialized xlmToken
    quietly (transfer ⟨xlmToken, sender, treasury, creationFee, .creationFee streamId⟩)
    Events.creationFeeCollected creationFee treasury
  else pure ()

def createStream (a : CreateArgs) : Traced host StreamId := do
  quietly (requireAuth a.sender)
  quietly requireRunning
  let used ← quietly (ask (nonceUsed a.sender a.nonce.val))
  failIf (used = true) .duplicateStream
  failIf (a.amount.val ≤ 0) .zeroAmount
  failIf (a.durationSeconds.val ≤ a.cliffSeconds.val) .invalidCliff
  failIf (64 < a.metadata.length) .metadataTooLong
  let whitelistEnabled ← quietly (ask isWhitelistEnabled)
  let whitelisted ← quietly (ask (isWhitelisted a.recipient))
  failIf (whitelistEnabled = true ∧ whitelisted = false) .recipientNotWhitelisted
  let minDur ← quietly (ask readMinDuration)
  failIf (a.durationSeconds.val < minDur) .streamDurationTooShort
  let flowRate ← quietly (divI128 a.amount.val a.durationSeconds.val)
  failIf (flowRate = 0) .zeroFlowRate
  let senderCount ← quietly (ask (getSenderStreamCount a.sender))
  let limit ← quietly (ask (effectiveSenderLimit a.sender))
  failIf (limit ≤ senderCount) .senderStreamLimitExceeded
  quietly (markNonceUsed a.sender a.nonce.val)
  let now ← quietly timestamp
  let endTime ← okOr .overflow (checkedAddU64 now a.durationSeconds.val)
  failIf (endTime ≤ now) .invalidEndTime
  let cliffTime ← okOr .overflow (checkedAddU64 now a.cliffSeconds.val)
  let streamId := deriveStreamId host a.sender a.recipient now a.nonce.val
  let conflict ← quietly (ask (streamExists streamId))
  failIf (conflict = true) .streamIdConflict
  collectCreationFee a.sender streamId
  quietly (transfer ⟨a.token, a.sender, host.contract, a.amount.val, .lock streamId⟩)
  quietly <| addStream
    { id := streamId
      sender := a.sender
      recipient := a.recipient
      token := a.token
      deposit := a.amount.val
      flowRate
      startTime := now
      cliffTime
      lockUntil := a.lockUntil.val
      endTime
      lastWithdrawTime := now
      status := .active
      autoRenew := a.autoRenew
      allowRecipientTermination := a.allowRecipientTermination
      lastPauseTime := 0
      totalWithdrawn := 0
      metadata := a.metadata }
  Events.streamCreated streamId a.sender a.recipient a.amount.val flowRate endTime
  pure streamId

def batchCreateItem (a : BatchArgs) (now endTime : Nat) (entry : BatchItem × StreamId) : Traced host StreamId := do
  let (item, streamId) := entry
  let flowRate ← quietly (divI128 item.amount.val a.durationSeconds.val)
  quietly (transfer ⟨item.token, a.sender, host.contract, item.amount.val, .lock streamId⟩)
  quietly (addStream (batchStream a now endTime item streamId flowRate))
  Events.streamCreated streamId a.sender item.recipient item.amount.val flowRate endTime
  pure streamId

def batchCreateStream (a : BatchArgs) : Traced host (List StreamId) := do
  quietly requireRunning
  quietly (requireAuth a.sender)
  let expectedNonce ← quietly (ask (getBatchNonce a.sender))
  failIf (a.nonce.val ≠ expectedNonce) .invalidNonce
  quietly (incrementBatchNonce a.sender)
  failIf (a.recipients.length ≠ a.amounts.length ∨ a.recipients.length ≠ a.lockUntils.length ∨
    a.recipients.length ≠ a.tokens.length) .batchLengthMismatch
  let now ← quietly timestamp
  let endTime ← okOr .overflow (checkedAddU64 now a.durationSeconds.val)
  failIf (endTime ≤ now) .invalidDuration
  let senderCount ← quietly (ask (getSenderStreamCount a.sender))
  let limit ← quietly (ask (effectiveSenderLimit a.sender))
  let newCount ← okOrHalt (checkedAddU32 senderCount a.recipients.length)
  failIf (limit < newCount) .senderStreamLimitExceeded
  let items := batchItems a.recipients a.amounts a.tokens a.lockUntils
  let ids ← quietly (batchIds a.sender now a.durationSeconds.val items 0 [])
  each (batchCreateItem a now endTime) (items.zip ids)

/-- What follows a fee transfer: the event in `withdraw` and `transfer_recipient`, the
treasury's bookkeeping and no event in `batch_withdraw`. -/
abbrev FeeHook (host : Host) := Address → Address → Int → Traced host Unit

def feeHook (streamId : StreamId) : FeeHook host := fun treasury _ fee => Events.feeCollected streamId fee treasury

def depositHook : FeeHook host := fun treasury token fee => quietly (Contract.depositHook treasury token fee)

def payClaim (hook : FeeHook host) (stream : Stream) (claimable : Int) : Traced host Int := do
  let fee ← quietly (feeAmount stream.recipient claimable)
  let recipientAmount := claimable - fee
  quietly (transferPositive ⟨stream.token, host.contract, stream.recipient, recipientAmount, .claim stream.id⟩)
  if 0 < fee then do
    let treasury ← quietly (ask getTreasury)
    match treasury with
    | some treasury => do
        quietly (transfer ⟨stream.token, host.contract, treasury, fee, .protocolFee stream.id⟩)
        hook treasury stream.token fee
        pure recipientAmount
    | none => pure recipientAmount
  else pure recipientAmount

def claimBlock (hook : FeeHook host) (after : Int → Contract host Unit) (stream : Stream) (claimable : Int) :
    Traced host Stream :=
  if 0 < claimable then do
    let total ← okOr .overflow (checkedAddI128 stream.totalWithdrawn claimable)
    failIf (stream.deposit < total) .overflow
    let recipientAmount ← payClaim hook stream claimable
    quietly (after recipientAmount)
    pure { stream with totalWithdrawn := total }
  else pure stream

def finishStream (streamId : StreamId) (stream : Stream) (dust : Int) : Traced host Unit := do
  quietly (refundDust stream dust)
  Events.streamCompleted streamId
  quietly (closeStream streamId stream)

def settleStream (looks : Bool) (streamId : StreamId) (stream : Stream) (now : Nat) : Traced host Unit :=
  if stream.endTime ≤ now then do
    let duration ← quietly (subU64 stream.endTime stream.startTime)
    let dust := streamDust stream duration
    if stream.autoRenew = true then do
      let senderBalance ← quietly (balanceOf stream.token stream.sender)
      if looks = true ∧ senderBalance < stream.deposit then do
        Events.autoRenewFailed streamId stream.sender stream.deposit
        quietly (refundDust stream dust)
        Events.streamCompleted streamId
        quietly (saveStream { stream with status := .completed })
      else quietly (renewStream stream duration)
    else finishStream streamId stream dust
  else quietly (saveStream stream)

def withdraw (streamId : StreamId) (recipient : Address) : Traced host Unit := do
  quietly requireRunning
  quietly (requireAuth recipient)
  let stream ← quietly (ask (loadStream streamId))
  let stream ← okOr .streamNotFound stream
  failIf (stream.recipient ≠ recipient) .notRecipient
  failIf (stream.status ≠ .active) .streamNotActive
  let now ← quietly timestamp
  failIf (now < stream.lockUntil) .streamLocked
  let cooldown ← quietly (ask getWithdrawalCooldown)
  failIf (0 < cooldown ∧ now < saturatingAddU64 stream.lastWithdrawTime cooldown)
    .withdrawalCooldownActive
  let effectiveNow := min now stream.endTime
  let claimable ← okOr .overflow (computeClaimable stream.flowRate now stream.cliffTime
    stream.endTime stream.lastWithdrawTime)
  let stream ← claimBlock (feeHook streamId) (fun _ => notifyRecipient recipient) stream claimable
  settleStream true streamId { stream with lastWithdrawTime := effectiveNow } now
  Events.streamWithdrawn streamId recipient claimable now

def batchWithdrawItem (recipient : Address) (streamId : StreamId) : Traced host Int := do
  let stream ← quietly (ask (loadStream streamId))
  let stream ← okOr .streamNotFound stream
  failIf (stream.recipient ≠ recipient) .notRecipient
  failIf (stream.status ≠ .active) .streamNotActive
  let now ← quietly timestamp
  failIf (now < stream.lockUntil) .streamLocked
  let effectiveNow := min now stream.endTime
  let claimable ← okOr .overflow (computeEarned stream.flowRate now stream.endTime
    stream.lastWithdrawTime)
  let stream ← claimBlock depositHook (fun _ => pure ()) stream claimable
  settleStream false streamId { stream with lastWithdrawTime := effectiveNow } now
  Events.streamWithdrawn streamId recipient claimable now
  pure claimable

def batchWithdraw (streamIds : List StreamId) (recipient : Address) : Traced host (List Int) := do
  quietly requireRunning
  quietly (requireAuth recipient)
  each (batchWithdrawItem recipient) streamIds

def claimForTransfer (streamId : StreamId) (stream : Stream) (now : Nat) : Traced host Stream :=
  if stream.lockUntil ≤ now ∧ stream.cliffTime ≤ now then do
    let claimable ← okOr .overflow (computeClaimable stream.flowRate now stream.cliffTime
      stream.endTime stream.lastWithdrawTime)
    if 0 < claimable then do
      let _ ← payClaim (feeHook streamId) stream claimable
      let total ← okOr .overflow (checkedAddI128 stream.totalWithdrawn claimable)
      Events.streamWithdrawn streamId stream.recipient claimable now
      pure { stream with totalWithdrawn := total, lastWithdrawTime := min now stream.endTime }
    else pure stream
  else pure stream

def transferRecipient (streamId : StreamId) (currentRecipient newRecipient : Address) : Traced host Unit := do
  quietly requireRunning
  quietly (requireAuth currentRecipient)
  let stream ← quietly (ask (loadStream streamId))
  let stream ← okOr .streamNotFound stream
  failIf (stream.recipient ≠ currentRecipient) .notRecipient
  failIf (¬stream.Live) .streamNotActive
  let ledgerTime ← quietly timestamp
  let now := stream.clock ledgerTime
  let stream ← claimForTransfer streamId stream now
  let oldRecipient := stream.recipient
  quietly (saveStream { stream with recipient := newRecipient })
  quietly (unindexByRecipient oldRecipient streamId)
  quietly (indexByRecipient newRecipient streamId)
  Events.recipientTransferred streamId oldRecipient newRecipient

def refundAmount (stream : Stream) (recipientAmount : Int) : Int :=
  saturatingSubI128 (saturatingSubI128 stream.deposit stream.totalWithdrawn) recipientAmount

def cancelStream (streamId : StreamId) (caller : Address) : Traced host Unit := do
  quietly (requireAuth caller)
  let stream ← quietly (ask (loadStream streamId))
  let stream ← okOr .streamNotFound stream
  quietly (requireSenderOrDelegate streamId stream caller)
  failIf (¬stream.Live) .streamNotActive
  let ledgerTime ← quietly timestamp
  let recipientAmount ← okOr .overflow (computeEarned stream.flowRate (stream.clock ledgerTime)
    stream.endTime stream.lastWithdrawTime)
  quietly (payOutAndClose streamId stream recipientAmount)
  Events.streamCancelled streamId stream.sender (refundAmount stream recipientAmount) recipientAmount

def recipientTerminate (streamId : StreamId) (recipient : Address) : Traced host Unit := do
  quietly requireRunning
  quietly (requireAuth recipient)
  let stream ← quietly (ask (loadStream streamId))
  let stream ← okOr .streamNotFound stream
  failIf (stream.recipient ≠ recipient) .notRecipient
  failIf (stream.allowRecipientTermination = false) .notAuthorized
  failIf (¬stream.Live) .streamNotActive
  let ledgerTime ← quietly timestamp
  let recipientAmount ← okOr .overflow (computeClaimable stream.flowRate (stream.clock ledgerTime)
    stream.cliffTime stream.endTime stream.lastWithdrawTime)
  quietly (payOutAndClose streamId stream recipientAmount)
  Events.streamTerminatedByRecipient streamId recipient recipientAmount (refundAmount stream recipientAmount)

def batchCancelItem (sender : Address) (streamId : StreamId) : Traced host Unit := do
  let stream ← quietly (ask (loadStream streamId))
  let stream ← okOr .streamNotFound stream
  failIf (stream.sender ≠ sender) .notSender
  failIf (¬stream.Live) .streamNotActive
  let now ← quietly timestamp
  let recipientAmount ← okOr .overflow (computeEarned stream.flowRate now
    stream.endTime stream.lastWithdrawTime)
  quietly (payOutAndClose streamId stream recipientAmount)
  Events.streamCancelled streamId stream.sender (refundAmount stream recipientAmount) recipientAmount

def batchCancelStream (streamIds : List StreamId) (sender : Address) :
    Traced host (List (Except StreamError Unit)) := do
  quietly (requireAuth sender)
  failIf (streamIds = [] ∨ 20 < streamIds.length) .batchLengthMismatch
  each (fun streamId => attempt (batchCancelItem sender streamId)) streamIds

def partialCancelStream (streamId : StreamId) (caller : Address) (cancelAmount : Int) : Traced host StreamId := do
  quietly (requireAuth caller)
  let stream ← quietly (ask (loadStream streamId))
  let stream ← okOr .streamNotFound stream
  quietly (requireSenderOrDelegate streamId stream caller)
  failIf (¬stream.Live) .streamNotActive
  failIf (cancelAmount ≤ 0) .zeroAmount
  let ledgerTime ← quietly timestamp
  let now := stream.clock ledgerTime
  let earned ← quietly (checkedFlowAmount stream.flowRate (now - stream.lastWithdrawTime))
  let totalStreamed ← quietly (checkedFlowAmount stream.flowRate (now - stream.startTime))
  let remaining := saturatingSubI128 stream.deposit totalStreamed
  failIf (remaining ≤ cancelAmount ∨ remaining - cancelAmount < stream.flowRate) .invalidPartialCancel
  let newDeposit := remaining - cancelAmount
  let newDuration ← quietly (divI128 newDeposit stream.flowRate)
  failIf (newDuration < 0 ∨ (u64Max : Int) < newDuration) .overflow
  let newEndTime ← okOr .overflow (checkedAddU64 now newDuration.toNat)
  quietly (transferPositive ⟨stream.token, host.contract, stream.recipient, earned, .claim stream.id⟩)
  quietly (transfer ⟨stream.token, host.contract, stream.sender, cancelAmount, .refund stream.id⟩)
  quietly (saveStream { stream with status := .cancelled })
  Events.streamCancelled streamId stream.sender cancelAmount earned
  let newStreamId := deriveStreamId host stream.sender stream.recipient now streamId
  quietly (addStream (successor stream newStreamId now newEndTime newDeposit))
  Events.streamPartialCancelled streamId newStreamId stream.sender cancelAmount newDeposit
  pure newStreamId

def archiveStream (streamId : StreamId) (caller : Address) : Traced host Unit := do
  quietly (requireAuth caller)
  let stream ← quietly (ask (loadStream streamId))
  let stream ← okOr .streamNotFound stream
  failIf (stream.sender ≠ caller ∧ stream.recipient ≠ caller) .notAuthorized
  let duration := stream.endTime - stream.startTime
  let dust := streamDust stream duration
  failIf (saturatingAddI128 stream.totalWithdrawn dust < stream.deposit) .streamNotSettled
  quietly (closeStream streamId stream)
  let delegate ← quietly (ask (getDelegate streamId))
  quietly (if delegate.isSome then removeDelegate streamId else pure ())
  Events.streamArchived streamId stream.sender stream.recipient stream.deposit

def topUp (streamId : StreamId) (caller token : Address) (amount : Int) : Traced host Unit := do
  quietly requireRunning
  quietly (requireAuth caller)
  let stream ← quietly (ask (loadStream streamId))
  let stream ← okOr .streamNotFound stream
  quietly (requireSenderOrDelegate streamId stream caller)
  failIf (stream.token ≠ token) .tokenMismatch
  failIf (¬stream.Live) .streamNotActive
  failIf (amount ≤ 0) .zeroAmount
  let remainder ← quietly (remI128 amount stream.flowRate)
  let effectiveAmount := amount - remainder
  failIf (effectiveAmount ≤ 0) .zeroAmount
  quietly (transfer ⟨stream.token, caller, host.contract, effectiveAmount, .topUp stream.id⟩)
  let extraSeconds ← quietly (divI128 effectiveAmount stream.flowRate)
  failIf (extraSeconds < 0 ∨ (u64Max : Int) < extraSeconds) .overflow
  let endTime ← okOr .overflow (checkedAddU64 stream.endTime extraSeconds.toNat)
  let deposit ← okOr .overflow (checkedAddI128 stream.deposit effectiveAmount)
  quietly (saveStream { stream with endTime, deposit })
  Events.streamToppedUp streamId effectiveAmount endTime

def updateMetadata (sender : Address) (streamId : StreamId) (metadata : List UInt8) : Traced host Unit := do
  let stream ← quietly (loadForSender streamId sender)
  failIf (64 < metadata.length) .metadataTooLong
  quietly (saveStream { stream with metadata })
  Events.metadataUpdated streamId metadata

def cancelAutoRenew (sender : Address) (streamId : StreamId) : Traced host Unit := do
  let stream ← quietly (loadForSender streamId sender)
  quietly (saveStream { stream with autoRenew := false })
  Events.autoRenewCancelled streamId

def pauseStream (streamId : StreamId) (sender : Address) : Traced host Unit := do
  quietly requireRunning
  let stream ← quietly (loadForSender streamId sender)
  failIf (stream.status ≠ .active) .streamNotActive
  let now ← quietly timestamp
  quietly (saveStream { stream with status := .paused, lastPauseTime := now })
  Events.streamPaused streamId sender

def resumeStream (streamId : StreamId) (sender : Address) : Traced host Unit := do
  quietly requireRunning
  let stream ← quietly (loadForSender streamId sender)
  failIf (stream.status ≠ .paused) .streamNotPaused
  let now ← quietly timestamp
  quietly (saveStream (resumed stream (now - stream.lastPauseTime)))
  Events.streamResumed streamId sender

end SoroStream.Emitting
