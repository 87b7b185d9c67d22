import SoroStream.Storage
import SoroStream.TreasuryContract

namespace SoroStream.Contract

open Lib.Rollback Lib.Rollback.Prog Storage

variable {host : Host}

def initializeContract (admin : Address) (version : String) : Contract host Unit := do
  let current ← ask readAdmin
  failIf current.isSome .alreadyInitialized
  writeAdmin admin
  writeVersion version

def setAdmin (newAdmin : Address) : Contract host Unit := do
  checkAdmin
  writeAdmin newAdmin

def recordAction (instruction params : String) : Contract host Unit := do
  let now ← timestamp
  let admin ← ask readAdmin
  let admin ← okOrHalt admin
  appendAuditEntry ⟨instruction, admin, now, params⟩

def emergencyPause : Contract host Unit := do
  checkAdmin
  setPaused true
  let ts ← timestamp
  setPauseExpiry (saturatingAddU64 ts maxPauseDuration)
  recordAction "emergency_pause" ""

def emergencyResume : Contract host Unit := do
  checkAdmin
  setPaused false
  setPauseExpiry 0
  recordAction "emergency_resume" ""

def isPaused : Contract host Bool := isPausedOrAutoUnpause

def setGuardian (guardian : Address) : Contract host Unit := do
  checkAdmin
  writeGuardian guardian

def setGovernance (governance : Address) : Contract host Unit := do
  checkAdmin
  writeGovernance governance

def pause (guardian : Address) : Contract host Unit := do
  requireAuth guardian
  let stored ← ask readGuardian
  let stored ← okOr .notAuthorized stored
  failIf (guardian ≠ stored) .notAuthorized
  setPaused true
  let ts ← timestamp
  setPauseExpiry (saturatingAddU64 ts maxPauseDuration)

def unpause (governance : Address) : Contract host Unit := do
  requireAuth governance
  let stored ← ask readGovernance
  let stored ← okOr .notAuthorized stored
  failIf (governance ≠ stored) .notAuthorized
  setPaused false
  setPauseExpiry 0

def addFeeExempt (addr : Address) : Contract host Unit := do
  checkAdmin
  Storage.addFeeExempt addr

def removeFeeExempt (addr : Address) : Contract host Unit := do
  checkAdmin
  Storage.removeFeeExempt addr

/-- The model keeps running this code afterwards: only the hash is recorded. -/
def upgrade (newWasmHash : Fin (2 ^ 256)) : Contract host Unit := do
  let admin ← ask readAdmin
  let admin ← okOr .notInitialized admin
  requireAuth admin
  update fun _ w => { w with wasm := some newWasmHash }

def setMaxStreams (maxStreams : Nat) : Contract host Unit := do
  checkAdmin
  setMaxStreamsPerSender maxStreams

def setSenderStreamLimit (sender : Address) (limit : Nat) : Contract host Unit := do
  checkAdmin
  setSenderLimit sender limit

def migrate (_fromVersion toVersion : String) : Contract host Unit := do
  checkAdmin
  let applied ← ask readAppliedMigrations
  failIf (toVersion ∈ applied) .migrationAlreadyApplied
  writeVersion toVersion
  recordMigration toVersion
  recordAction "migrate" toVersion

/-- Any address may sign as `admin` here: it is not compared with the stored one. -/
def setMinDuration (admin : Address) (seconds : Nat) : Contract host Unit := do
  requireAuth admin
  writeMinDuration seconds

def setWithdrawalCooldown (admin : Address) (cooldownSeconds : Nat) : Contract host Unit := do
  checkAdmin
  requireAuth admin
  Storage.setWithdrawalCooldown cooldownSeconds

def setWhitelistEnabled (admin : Address) (enabled : Bool) : Contract host Unit := do
  checkAdmin
  requireAuth admin
  Storage.setWhitelistEnabled enabled

def addToWhitelist (admin recipient : Address) : Contract host Unit := do
  checkAdmin
  requireAuth admin
  Storage.addToWhitelist recipient

def removeFromWhitelist (admin recipient : Address) : Contract host Unit := do
  checkAdmin
  requireAuth admin
  Storage.removeFromWhitelist recipient

def setProtocolFee (feeBps : Nat) : Contract host Unit := do
  failIf (10000 < feeBps) .invalidDuration
  Storage.setProtocolFee feeBps

def proposeFeeChange (admin : Address) (newFeeBps : Nat) : Contract host Unit := do
  requireAuth admin
  let currentAdmin ← ask readAdmin
  let currentAdmin ← okOr .notInitialized currentAdmin
  failIf (admin ≠ currentAdmin) .notAuthorized
  failIf (10000 < newFeeBps) .invalidDuration
  let now ← timestamp
  writePendingFeeProposal newFeeBps (saturatingAddU64 now (7 * 24 * 60 * 60))

def executeFeeChange : Contract host Unit := do
  let proposal ← ask readPendingFeeProposal
  let (newFeeBps, unlockTime) ← okOr .notAuthorized proposal
  let now ← timestamp
  failIf (now < unlockTime) .streamLocked
  Storage.setProtocolFee newFeeBps
  clearPendingFeeProposal

def setTreasuryAddress (treasury : Address) : Contract host Unit := setTreasury treasury

def setCreationFee (fee : Int) (xlmToken : Address) : Contract host Unit := do
  checkAdmin
  failIf (fee < 0) .zeroAmount
  setCreationFeeXlm fee
  setXlmToken xlmToken

def withdrawTreasury (token : Address) (amount : Int) (destination : Address) : Contract host Unit := do
  checkAdmin
  let treasury ← ask getTreasury
  let treasury ← okOr .notInitialized treasury
  let _ ← callContract treasury "withdraw_treasury" do
    TreasuryContract.withdrawTreasury (some host.contract) token amount destination
    pure 0

def withdrawAllFromTreasury (token destination : Address) : Contract host Int := do
  checkAdmin
  let treasury ← ask getTreasury
  let treasury ← okOr .notInitialized treasury
  callContract treasury "withdraw_all"
    (TreasuryContract.withdrawAll (some host.contract) token destination)

end SoroStream.Contract
