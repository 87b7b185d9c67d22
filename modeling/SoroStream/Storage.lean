import SoroStream.Host

namespace SoroStream.Storage

open Lib Lib.Rollback Lib.Rollback.Prog

variable {host : Host}

def maxPauseDuration : Nat := 72 * 60 * 60

def auditCap : Nat := 20

def writeAdmin (admin : Address) : Contract host Unit :=
  setConfig fun c => { c with admin := some admin }

def readAdmin (w : World) : Option Address := w.config.admin

def checkAdmin : Contract host Unit := do
  let admin ← ask readAdmin
  let admin ← okOrHalt admin
  requireAuth admin

def deriveStreamId (host : Host) (sender recipient : Address) (startTime nonce : Nat) : StreamId :=
  (host.deriveStreamId sender recipient startTime nonce).val

def loadStream (streamId : StreamId) (w : World) : Option Stream := w.book.streams.lookup streamId

def streamExists (streamId : StreamId) (w : World) : Bool := (loadStream streamId w).isSome

def saveStream (stream : Stream) : Contract host Unit :=
  setBook fun b => { b with streams := b.streams.insert stream.id stream }

def removeStream (streamId : StreamId) : Contract host Unit :=
  setBook fun b => { b with streams := b.streams.erase streamId }

def getGlobalStreamCount (w : World) : Nat := w.book.globalIndex.size

def getGlobalStreamAt (idx : Nat) (w : World) : Option StreamId := w.book.globalIndex.slot idx

/-- Append to an index cell; the `u32` counter must not overflow. -/
def pushIndex (get : Book → SlotArray StreamId) (set : SlotArray StreamId → Book → Book)
    (streamId : StreamId) : Contract host Unit := do
  let index ← ask fun w => get w.book
  haltIf (u32Max < index.size + 1)
  setBook fun b => set (index.push streamId) b

def indexGlobalStream (streamId : StreamId) : Contract host Unit :=
  pushIndex Book.globalIndex (fun x b => { b with globalIndex := x }) streamId

def indexBySender (sender : Address) (streamId : StreamId) : Contract host Unit :=
  pushIndex (fun b => b.senders sender)
    (fun x b => { b with senders := Function.update b.senders sender x }) streamId

def indexByRecipient (recipient : Address) (streamId : StreamId) : Contract host Unit :=
  pushIndex (fun b => b.recipients recipient)
    (fun x b => { b with recipients := Function.update b.recipients recipient x }) streamId

/-- Swap-and-pop; a missing last slot would read as stream 0. -/
def unindex (index : SlotArray StreamId) (streamId : StreamId) : SlotArray StreamId :=
  index.removeOr 0 streamId

def unindexBySender (sender : Address) (streamId : StreamId) : Contract host Unit :=
  setBook fun b =>
    { b with senders := Function.update b.senders sender (unindex (b.senders sender) streamId) }

def unindexByRecipient (recipient : Address) (streamId : StreamId) : Contract host Unit :=
  setBook fun b =>
    { b with recipients := Function.update b.recipients recipient (unindex (b.recipients recipient) streamId) }

def getSenderStreamCount (sender : Address) (w : World) : Nat := (w.book.senders sender).size

def getIdsBySender (sender : Address) (w : World) : List StreamId := (w.book.senders sender).toList

def getIdsByRecipient (recipient : Address) (w : World) : List StreamId :=
  (w.book.recipients recipient).toList

def getBatchNonce (sender : Address) (w : World) : Nat := (w.book.batchNonce sender).getD 0

def incrementBatchNonce (sender : Address) : Contract host Unit := do
  let current ← ask (getBatchNonce sender)
  let next ← okOrHalt (checkedAddU64 current 1)
  setBook fun b => { b with batchNonce := Function.update b.batchNonce sender (some next) }

def nonceUsed (sender : Address) (nonce : Nat) (w : World) : Bool :=
  (w.book.nonces sender nonce).isSome

def markNonceUsed (sender : Address) (nonce : Nat) : Contract host Unit :=
  setBook fun b =>
    { b with nonces := Function.update b.nonces sender (Function.update (b.nonces sender) nonce (some true)) }

def setPaused (paused : Bool) : Contract host Unit := setPause fun p => { p with paused := some paused }

def setPauseExpiry (expiry : Nat) : Contract host Unit := setPause fun p => { p with expiry := some expiry }

def getPauseExpiry (w : World) : Nat := w.pause.expiry.getD 0

def isPausedOrAutoUnpause : Contract host Bool := do
  let paused ← ask fun w => w.pause.paused.getD false
  if paused = false then pure false
  else do
    let expiry ← ask getPauseExpiry
    let now ← timestamp
    if 0 < expiry ∧ expiry ≤ now then do
      setPaused false
      setPauseExpiry 0
      pure false
    else pure true

def writeGuardian (guardian : Address) : Contract host Unit :=
  setConfig fun c => { c with guardian := some guardian }

def readGuardian (w : World) : Option Address := w.config.guardian

def writeGovernance (governance : Address) : Contract host Unit :=
  setConfig fun c => { c with governance := some governance }

def readGovernance (w : World) : Option Address := w.config.governance

def getProtocolFee (w : World) : Nat := w.config.protocolFee.getD 0

def setProtocolFee (feeBps : Nat) : Contract host Unit :=
  setConfig fun c => { c with protocolFee := some feeBps }

def readPendingFeeProposal (w : World) : Option (Nat × Nat) := w.config.pendingFee

def writePendingFeeProposal (newFeeBps unlockTime : Nat) : Contract host Unit :=
  setConfig fun c => { c with pendingFee := some (newFeeBps, unlockTime) }

def clearPendingFeeProposal : Contract host Unit := setConfig fun c => { c with pendingFee := none }

def getTreasury (w : World) : Option Address := w.config.treasury

def setTreasury (treasury : Address) : Contract host Unit :=
  setConfig fun c => { c with treasury := some treasury }

def readMinDuration (w : World) : Nat := w.config.minDuration.getD 3600

def writeMinDuration (duration : Nat) : Contract host Unit :=
  setConfig fun c => { c with minDuration := some duration }

def getDelegate (streamId : StreamId) (w : World) : Option Address := w.book.delegates streamId

def setDelegate (streamId : StreamId) (delegate : Address) : Contract host Unit :=
  setBook fun b => { b with delegates := Function.update b.delegates streamId (some delegate) }

def removeDelegate (streamId : StreamId) : Contract host Unit :=
  setBook fun b => { b with delegates := Function.update b.delegates streamId none }

def writeVersion (version : String) : Contract host Unit :=
  setConfig fun c => { c with version := some version }

def readVersion (w : World) : Option String := w.config.version

def getMaxStreamsPerSender (w : World) : Nat := w.config.maxStreams.getD 1000

def setMaxStreamsPerSender (maxStreams : Nat) : Contract host Unit :=
  setConfig fun c => { c with maxStreams := some maxStreams }

def getWithdrawalCooldown (w : World) : Nat := w.config.withdrawalCooldown.getD 0

def setWithdrawalCooldown (cooldown : Nat) : Contract host Unit :=
  setConfig fun c => { c with withdrawalCooldown := some cooldown }

def isWhitelistEnabled (w : World) : Bool := w.config.whitelistEnabled.getD false

def setWhitelistEnabled (enabled : Bool) : Contract host Unit :=
  setConfig fun c => { c with whitelistEnabled := some enabled }

def isWhitelisted (recipient : Address) (w : World) : Bool := (w.config.whitelist recipient).getD false

def addToWhitelist (recipient : Address) : Contract host Unit :=
  setConfig fun c => { c with whitelist := Function.update c.whitelist recipient (some true) }

def removeFromWhitelist (recipient : Address) : Contract host Unit :=
  setConfig fun c => { c with whitelist := Function.update c.whitelist recipient none }

def isFeeExempt (addr : Address) (w : World) : Bool := (w.config.feeExempt addr).getD false

def addFeeExempt (addr : Address) : Contract host Unit :=
  setConfig fun c => { c with feeExempt := Function.update c.feeExempt addr (some true) }

def removeFeeExempt (addr : Address) : Contract host Unit :=
  setConfig fun c => { c with feeExempt := Function.update c.feeExempt addr none }

def getSenderLimit (sender : Address) (w : World) : Option Nat := w.config.senderLimit sender

def setSenderLimit (sender : Address) (limit : Nat) : Contract host Unit :=
  setConfig fun c => { c with senderLimit := Function.update c.senderLimit sender (some limit) }

def effectiveSenderLimit (sender : Address) (w : World) : Nat :=
  (getSenderLimit sender w).getD (getMaxStreamsPerSender w)

def appendAuditEntry (entry : AuditEntry) : Contract host Unit :=
  setAudit fun a =>
    let head := a.head.getD 0
    let len := a.len.getD 0
    let writeIdx := head % auditCap
    { head := some ((head + 1) % auditCap)
      len := some (min (len + 1) auditCap)
      slot := Function.update a.slot writeIdx (some entry) }

def readAuditLog (w : World) : List AuditEntry :=
  let head := w.audit.head.getD 0
  let len := w.audit.len.getD 0
  (List.range len).filterMap fun i => w.audit.slot ((head + auditCap - len + i) % auditCap)

def getCreationFeeXlm (w : World) : Int := w.config.creationFeeXlm.getD 0

def setCreationFeeXlm (fee : Int) : Contract host Unit :=
  setConfig fun c => { c with creationFeeXlm := some fee }

def getXlmToken (w : World) : Option Address := w.config.xlmToken

def setXlmToken (xlmToken : Address) : Contract host Unit :=
  setConfig fun c => { c with xlmToken := some xlmToken }

def readAppliedMigrations (w : World) : List String := w.config.appliedMigrations.getD []

def recordMigration (version : String) : Contract host Unit :=
  setConfig fun c => { c with appliedMigrations := some (c.appliedMigrations.getD [] ++ [version]) }

end SoroStream.Storage
