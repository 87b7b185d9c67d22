import SoroStream.Storage

namespace SoroStream.Contract

open Lib.Rollback Lib.Rollback.Prog Storage

variable {host : Host}

/-- Refuse while the contract is paused; a pause past its expiry is cleared. -/
def requireRunning : Contract host Unit := do
  let paused ← isPausedOrAutoUnpause
  failIf (paused = true) .contractPaused

def addStream (stream : Stream) : Contract host Unit := do
  saveStream stream
  indexBySender stream.sender stream.id
  indexByRecipient stream.recipient stream.id
  indexGlobalStream stream.id

/-- The flat creation fee in XLM, from the sender to the treasury. -/
def collectCreationFee (sender : Address) (streamId : StreamId) : Contract host Unit := do
  let creationFee ← ask getCreationFeeXlm
  if 0 < creationFee then do
    let treasury ← ask getTreasury
    let treasury ← okOr .notInitialized treasury
    let xlmToken ← ask getXlmToken
    let xlmToken ← okOr .notInitialized xlmToken
    transfer ⟨xlmToken, sender, treasury, creationFee, .creationFee streamId⟩
  else pure ()

structure CreateArgs where
  sender : Address
  recipient : Address
  token : Address
  amount : I128
  durationSeconds : U64
  cliffSeconds : U64
  nonce : U64
  autoRenew : Bool
  lockUntil : U64
  allowRecipientTermination : Bool
  metadata : List UInt8

def createStream (a : CreateArgs) : Contract host StreamId := do
  requireAuth a.sender
  requireRunning
  let used ← ask (nonceUsed a.sender a.nonce.val)
  failIf (used = true) .duplicateStream
  failIf (a.amount.val ≤ 0) .zeroAmount
  failIf (a.durationSeconds.val ≤ a.cliffSeconds.val) .invalidCliff
  failIf (64 < a.metadata.length) .metadataTooLong
  let whitelistEnabled ← ask isWhitelistEnabled
  let whitelisted ← ask (isWhitelisted a.recipient)
  failIf (whitelistEnabled = true ∧ whitelisted = false) .recipientNotWhitelisted
  let minDur ← ask readMinDuration
  failIf (a.durationSeconds.val < minDur) .streamDurationTooShort
  let flowRate ← divI128 a.amount.val a.durationSeconds.val
  failIf (flowRate = 0) .zeroFlowRate
  let senderCount ← ask (getSenderStreamCount a.sender)
  let limit ← ask (effectiveSenderLimit a.sender)
  failIf (limit ≤ senderCount) .senderStreamLimitExceeded
  markNonceUsed a.sender a.nonce.val
  let now ← timestamp
  let endTime ← okOr .overflow (checkedAddU64 now a.durationSeconds.val)
  failIf (endTime ≤ now) .invalidEndTime
  let cliffTime ← okOr .overflow (checkedAddU64 now a.cliffSeconds.val)
  let streamId := deriveStreamId host a.sender a.recipient now a.nonce.val
  let conflict ← ask (streamExists streamId)
  failIf (conflict = true) .streamIdConflict
  collectCreationFee a.sender streamId
  transfer ⟨a.token, a.sender, host.contract, a.amount.val, .lock streamId⟩
  addStream
    { id := streamId
      sender := a.sender
      recipient := a.recipient
      token := a.token
      deposit := a.amount.val
      flowRate
      startTime := now
      cliffTime
      lockUntil := a.lockUntil.val
      endTime
      lastWithdrawTime := now
      status := .active
      autoRenew := a.autoRenew
      allowRecipientTermination := a.allowRecipientTermination
      lastPauseTime := 0
      totalWithdrawn := 0
      metadata := a.metadata }
  pure streamId

structure BatchItem where
  recipient : Address
  amount : I128
  token : Address
  lockUntil : U64

def batchItems : List Address → List I128 → List Address → List U64 → List BatchItem
  | r :: rs, a :: as, t :: ts, l :: ls => ⟨r, a, t, l⟩ :: batchItems rs as ts ls
  | _, _, _, _ => []

/-- The pre-pass: compute every ID, and refuse one that is stored or that an
earlier item of the batch has, before any state is written. -/
def batchIds (sender : Address) (now durationSeconds : Nat) :
    List BatchItem → Nat → List StreamId → Contract host (List StreamId)
  | [], _, ids => pure ids
  | item :: items, i, ids => do
      failIf (item.amount.val ≤ 0) .zeroAmount
      let flowRate ← divI128 item.amount.val durationSeconds
      failIf (flowRate = 0) .zeroFlowRate
      let streamId := deriveStreamId host sender item.recipient now i
      let known ← ask (streamExists streamId)
      failIf (known = true) .duplicateStreamId
      failIf (streamId ∈ ids) .duplicateStreamId
      batchIds sender now durationSeconds items (i + 1) (ids ++ [streamId])

structure BatchArgs where
  sender : Address
  recipients : List Address
  amounts : List I128
  tokens : List Address
  durationSeconds : U64
  autoRenew : Bool
  lockUntils : List U64
  nonce : U64

def batchStream (a : BatchArgs) (now endTime : Nat) (item : BatchItem) (streamId : StreamId)
    (flowRate : Int) : Stream where
  id := streamId
  sender := a.sender
  recipient := item.recipient
  token := item.token
  deposit := item.amount.val
  flowRate := flowRate
  startTime := now
  cliffTime := now
  lockUntil := item.lockUntil.val
  endTime := endTime
  lastWithdrawTime := now
  status := .active
  autoRenew := a.autoRenew
  allowRecipientTermination := false
  lastPauseTime := 0
  totalWithdrawn := 0
  metadata := []

def batchCreateItem (a : BatchArgs) (now endTime : Nat) (entry : BatchItem × StreamId) :
    Contract host StreamId := do
  let (item, streamId) := entry
  let flowRate ← divI128 item.amount.val a.durationSeconds.val
  transfer ⟨item.token, a.sender, host.contract, item.amount.val, .lock streamId⟩
  addStream (batchStream a now endTime item streamId flowRate)
  pure streamId

def batchCreateStream (a : BatchArgs) : Contract host (List StreamId) := do
  requireRunning
  requireAuth a.sender
  let expectedNonce ← ask (getBatchNonce a.sender)
  failIf (a.nonce.val ≠ expectedNonce) .invalidNonce
  incrementBatchNonce a.sender
  failIf (a.recipients.length ≠ a.amounts.length ∨ a.recipients.length ≠ a.lockUntils.length ∨
    a.recipients.length ≠ a.tokens.length) .batchLengthMismatch
  let now ← timestamp
  let endTime ← okOr .overflow (checkedAddU64 now a.durationSeconds.val)
  failIf (endTime ≤ now) .invalidDuration
  let senderCount ← ask (getSenderStreamCount a.sender)
  let limit ← ask (effectiveSenderLimit a.sender)
  let newCount ← okOrHalt (checkedAddU32 senderCount a.recipients.length)
  failIf (limit < newCount) .senderStreamLimitExceeded
  let items := batchItems a.recipients a.amounts a.tokens a.lockUntils
  let ids ← batchIds a.sender now a.durationSeconds.val items 0 []
  each (batchCreateItem a now endTime) (items.zip ids)

end SoroStream.Contract
