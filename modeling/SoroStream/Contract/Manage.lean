import SoroStream.Contract.Cancel

namespace SoroStream.Contract

open Lib.Rollback Lib.Rollback.Prog Storage VestingMath

variable {host : Host}

def topUp (streamId : StreamId) (caller token : Address) (amount : Int) : Contract host Unit := do
  requireRunning
  requireAuth caller
  let stream ← ask (loadStream streamId)
  let stream ← okOr .streamNotFound stream
  requireSenderOrDelegate streamId stream caller
  failIf (stream.token ≠ token) .tokenMismatch
  failIf (¬stream.Live) .streamNotActive
  failIf (amount ≤ 0) .zeroAmount
  let remainder ← remI128 amount stream.flowRate
  let effectiveAmount := amount - remainder
  failIf (effectiveAmount ≤ 0) .zeroAmount
  transfer ⟨stream.token, caller, host.contract, effectiveAmount, .topUp stream.id⟩
  let extraSeconds ← divI128 effectiveAmount stream.flowRate
  failIf (extraSeconds < 0 ∨ (u64Max : Int) < extraSeconds) .overflow
  let endTime ← okOr .overflow (checkedAddU64 stream.endTime extraSeconds.toNat)
  let deposit ← okOr .overflow (checkedAddI128 stream.deposit effectiveAmount)
  saveStream { stream with endTime, deposit }

def loadForSender (streamId : StreamId) (sender : Address) : Contract host Stream := do
  requireAuth sender
  let stream ← ask (loadStream streamId)
  let stream ← okOr .streamNotFound stream
  failIf (stream.sender ≠ sender) .notSender
  pure stream

def delegate (sender : Address) (streamId : StreamId) (operator : Address) : Contract host Unit := do
  let _ ← loadForSender streamId sender
  setDelegate streamId operator

def revokeDelegate (sender : Address) (streamId : StreamId) : Contract host Unit := do
  let _ ← loadForSender streamId sender
  removeDelegate streamId

def updateMetadata (sender : Address) (streamId : StreamId) (metadata : List UInt8) :
    Contract host Unit := do
  let stream ← loadForSender streamId sender
  failIf (64 < metadata.length) .metadataTooLong
  saveStream { stream with metadata }

def cancelAutoRenew (sender : Address) (streamId : StreamId) : Contract host Unit := do
  let stream ← loadForSender streamId sender
  saveStream { stream with autoRenew := false }

def pauseStream (streamId : StreamId) (sender : Address) : Contract host Unit := do
  requireRunning
  let stream ← loadForSender streamId sender
  failIf (stream.status ≠ .active) .streamNotActive
  let now ← timestamp
  saveStream { stream with status := .paused, lastPauseTime := now }

def resumed (stream : Stream) (pausedDuration : Nat) : Stream :=
  { stream with
    endTime := saturatingAddU64 stream.endTime pausedDuration
    cliffTime := saturatingAddU64 stream.cliffTime pausedDuration
    startTime := saturatingAddU64 stream.startTime pausedDuration
    lastWithdrawTime := saturatingAddU64 stream.lastWithdrawTime pausedDuration
    lockUntil := saturatingAddU64 stream.lockUntil pausedDuration
    status := .active
    lastPauseTime := 0 }

def resumeStream (streamId : StreamId) (sender : Address) : Contract host Unit := do
  requireRunning
  let stream ← loadForSender streamId sender
  failIf (stream.status ≠ .paused) .streamNotPaused
  let now ← timestamp
  saveStream (resumed stream (now - stream.lastPauseTime))

end SoroStream.Contract
