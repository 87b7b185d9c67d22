import SoroStream.Emitting.Streams
import SoroStream.System

namespace SoroStream

open Lib.Rollback Lib.Rollback.Prog

variable {host : Host}

namespace Emitting

open Storage Contract

def initializeContract (admin : Address) (version : String) : Traced host Unit := do
  let current ← quietly (ask readAdmin)
  failIf current.isSome .alreadyInitialized
  quietly (writeAdmin admin)
  quietly (writeVersion version)
  Events.contractDeployed version admin

/-- The event of the action itself comes first, then the log entry and its own event. -/
def recordAction (first : Address → Nat → Traced host Unit) (instruction params : String) : Traced host Unit := do
  let now ← quietly timestamp
  let admin ← quietly (ask readAdmin)
  let admin ← okOrHalt admin
  first admin now
  quietly (appendAuditEntry ⟨instruction, admin, now, params⟩)
  Events.adminAction instruction admin now

def emergencyPause : Traced host Unit := do
  quietly checkAdmin
  quietly (setPaused true)
  let ts ← quietly timestamp
  quietly (setPauseExpiry (saturatingAddU64 ts maxPauseDuration))
  recordAction Events.contractPaused "emergency_pause" ""

def emergencyResume : Traced host Unit := do
  quietly checkAdmin
  quietly (setPaused false)
  quietly (setPauseExpiry 0)
  recordAction Events.contractResumed "emergency_resume" ""

def pause (guardian : Address) : Traced host Unit := do
  quietly (requireAuth guardian)
  let stored ← quietly (ask readGuardian)
  let stored ← okOr .notAuthorized stored
  failIf (guardian ≠ stored) .notAuthorized
  quietly (setPaused true)
  let ts ← quietly timestamp
  quietly (setPauseExpiry (saturatingAddU64 ts maxPauseDuration))
  publish (.paused guardian ts)

def unpause (governance : Address) : Traced host Unit := do
  quietly (requireAuth governance)
  let stored ← quietly (ask readGovernance)
  let stored ← okOr .notAuthorized stored
  failIf (governance ≠ stored) .notAuthorized
  quietly (setPaused false)
  quietly (setPauseExpiry 0)
  let ts ← quietly timestamp
  publish (.unpaused governance ts)

def migrate (fromVersion toVersion : String) : Traced host Unit := do
  quietly checkAdmin
  let applied ← quietly (ask readAppliedMigrations)
  failIf (toVersion ∈ applied) .migrationAlreadyApplied
  quietly (writeVersion toVersion)
  quietly (recordMigration toVersion)
  recordAction (fun admin _ => Events.contractMigrated fromVersion toVersion admin) "migrate" toVersion

def proposeFeeChange (admin : Address) (newFeeBps : Nat) : Traced host Unit := do
  quietly (requireAuth admin)
  let currentAdmin ← quietly (ask readAdmin)
  let currentAdmin ← okOr .notInitialized currentAdmin
  failIf (admin ≠ currentAdmin) .notAuthorized
  failIf (10000 < newFeeBps) .invalidDuration
  let now ← quietly timestamp
  quietly (writePendingFeeProposal newFeeBps (saturatingAddU64 now (7 * 24 * 60 * 60)))
  Events.feeChangeProposed newFeeBps (saturatingAddU64 now (7 * 24 * 60 * 60))

def executeFeeChange : Traced host Unit := do
  let proposal ← quietly (ask readPendingFeeProposal)
  let (newFeeBps, unlockTime) ← okOr .notAuthorized proposal
  let now ← quietly timestamp
  failIf (now < unlockTime) .streamLocked
  quietly (Storage.setProtocolFee newFeeBps)
  quietly clearPendingFeeProposal
  Events.feeChangeExecuted newFeeBps

end Emitting

def StreamCall.emit : StreamCall → Traced host (List StreamId)
  | .createStream args => do
      let id ← Emitting.createStream args
      pure [id]
  | .batchCreateStream args => Emitting.batchCreateStream args
  | .partialCancelStream streamId caller cancelAmount => do
      let id ← Emitting.partialCancelStream streamId caller cancelAmount.val
      pure [id]
  | .withdraw streamId recipient => do
      Emitting.withdraw streamId recipient
      pure []
  | .batchWithdraw streamIds recipient => do
      let _ ← Emitting.batchWithdraw streamIds recipient
      pure []
  | .cancelStream streamId caller => do
      Emitting.cancelStream streamId caller
      pure []
  | .batchCancelStream streamIds sender => do
      let _ ← Emitting.batchCancelStream streamIds sender
      pure []
  | .recipientTerminate streamId recipient => do
      Emitting.recipientTerminate streamId recipient
      pure []
  | .transferRecipient streamId currentRecipient newRecipient => do
      Emitting.transferRecipient streamId currentRecipient newRecipient
      pure []
  | .topUp streamId caller token amount => do
      Emitting.topUp streamId caller token amount.val
      pure []
  | .pauseStream streamId sender => do
      Emitting.pauseStream streamId sender
      pure []
  | .resumeStream streamId sender => do
      Emitting.resumeStream streamId sender
      pure []
  | .archiveStream streamId caller => do
      Emitting.archiveStream streamId caller
      pure []
  | .updateMetadata sender streamId metadata => do
      Emitting.updateMetadata sender streamId metadata
      pure []
  | .cancelAutoRenew sender streamId => do
      Emitting.cancelAutoRenew sender streamId
      pure []
  | .delegate sender streamId operator => quietly (StreamCall.delegate sender streamId operator).exec
  | .revokeDelegate sender streamId => quietly (StreamCall.revokeDelegate sender streamId).exec

def ConfigCall.emit : ConfigCall → Traced host Unit
  | .initializeContract admin version => Emitting.initializeContract admin version
  | .emergencyPause => Emitting.emergencyPause
  | .emergencyResume => Emitting.emergencyResume
  | .pause guardian => Emitting.pause guardian
  | .unpause governance => Emitting.unpause governance
  | .migrate fromVersion toVersion => Emitting.migrate fromVersion toVersion
  | .proposeFeeChange admin newFeeBps => Emitting.proposeFeeChange admin newFeeBps.val
  | .executeFeeChange => Emitting.executeFeeChange
  | call => quietly call.exec

def Call.emit : Call → Traced host (List StreamId)
  | .stream c => c.emit
  | .config c => do
      c.emit
      pure []
  | .view v => quietly (Call.view v).exec

end SoroStream
