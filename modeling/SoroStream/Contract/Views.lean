import SoroStream.Storage
import SoroStream.VestingMath

namespace SoroStream.Contract

open Lib Lib.Rollback Lib.Rollback.Prog Storage VestingMath

variable {host : Host}

def getAdmin : Contract host Address := do
  let admin ← ask readAdmin
  okOr .notInitialized admin

def getVersion : Contract host String := do
  let version ← ask readVersion
  okOr .notInitialized version

def getProtocolFeeInfo (w : World) : Nat × Option Address := (getProtocolFee w, getTreasury w)

def getStream (streamId : StreamId) : Contract host Stream := do
  let stream ← ask (loadStream streamId)
  okOr .streamNotFound stream

def getAllStreamIds (start limit : Nat) (w : World) : List StreamId :=
  let total := getGlobalStreamCount w
  let cap := min limit 20
  let stop := min (saturatingAddU32 start cap) total
  (List.range' start (stop - start)).filterMap fun i =>
    match getGlobalStreamAt i w with
    | some id => if (loadStream id w).isSome then some id else none
    | none => none

def getNonce (sender : Address) (w : World) : Nat := getBatchNonce sender w

def getClaimable (streamId : StreamId) : Contract host Int := do
  let stream ← getStream streamId
  if ¬stream.Live then pure 0
  else do
    let ledgerTime ← timestamp
    let now := stream.clock ledgerTime
    if now < stream.cliffTime then pure 0
    else okOr .overflow (computeClaimable stream.flowRate now stream.cliffTime stream.endTime
      stream.lastWithdrawTime)

def isParticipant (streamId : StreamId) (address : Address) : Contract host Bool := do
  let stream ← getStream streamId
  pure (decide (stream.sender = address ∨ stream.recipient = address))

/-- The loop of the paged queries: the listed IDs between the two bounds whose
record is stored. Sums of a `u32` and at most 20 stay within `usize`. -/
def pageOfStreams (ids : List StreamId) (start limit : Nat) (w : World) : List Stream :=
  (page ids start (min limit 20)).filterMap fun id => loadStream id w

def getStreamsBySender (sender : Address) (start limit : Nat) (w : World) : List Stream :=
  pageOfStreams (getIdsBySender sender w) start limit w

def getStreamsByRecipient (recipient : Address) (start limit : Nat) (w : World) : List Stream :=
  pageOfStreams (getIdsByRecipient recipient w) start limit w

def activeStreams (ids : List StreamId) (w : World) : List Stream :=
  (ids.filterMap fun id => loadStream id w).filter fun s => s.status = .active

def getActiveStreamsBySender (sender : Address) (w : World) : List Stream :=
  activeStreams (getIdsBySender sender w) w

def getActiveStreamsByRecipient (recipient : Address) (w : World) : List Stream :=
  activeStreams (getIdsByRecipient recipient w) w

def getStats (w : World) : Stats :=
  (List.range (getGlobalStreamCount w)).foldl (fun stats i =>
    match (getGlobalStreamAt i w).bind fun id => loadStream id w with
    | some stream =>
        { totalStreams := stats.totalStreams + 1
          activeStreams := stats.activeStreams + (if stream.status = .active then 1 else 0)
          totalVolume := saturatingAddI128 stats.totalVolume stream.deposit }
    | none => stats) ⟨0, 0, 0⟩

inductive View
  | getAdmin
  | getVersion
  | getGuardian
  | getGovernance
  | getPauseExpiry
  | isFeeExempt (addr : Address)
  | getAdminLog
  | minDuration
  | getStream (streamId : StreamId)
  | getAllStreamIds (start limit : U32)
  | getNonce (sender : Address)
  | getClaimable (streamId : StreamId)
  | isParticipant (streamId : StreamId) (address : Address)
  | getStreamsBySender (sender : Address) (start limit : U32)
  | getStreamsByRecipient (recipient : Address) (start limit : U32)
  | getActiveStreamsBySender (sender : Address)
  | getActiveStreamsByRecipient (recipient : Address)
  | getCreationFee
  | getProtocolFeeInfo
  | getStats

def discard {α : Type} (x : Contract host α) : Contract host Unit := do
  let _ ← x

def View.exec : View → Contract host Unit
  | .getAdmin => discard Contract.getAdmin
  | .getVersion => discard Contract.getVersion
  | .getGuardian => discard (ask readGuardian)
  | .getGovernance => discard (ask readGovernance)
  | .getPauseExpiry => discard (ask Storage.getPauseExpiry)
  | .isFeeExempt addr => discard (ask (Storage.isFeeExempt addr))
  | .getAdminLog => discard (ask readAuditLog)
  | .minDuration => discard (ask readMinDuration)
  | .getStream streamId => discard (Contract.getStream streamId)
  | .getAllStreamIds start limit => discard (ask (Contract.getAllStreamIds start.val limit.val))
  | .getNonce sender => discard (ask (Contract.getNonce sender))
  | .getClaimable streamId => discard (Contract.getClaimable streamId)
  | .isParticipant streamId address => discard (Contract.isParticipant streamId address)
  | .getStreamsBySender sender start limit =>
      discard (ask (Contract.getStreamsBySender sender start.val limit.val))
  | .getStreamsByRecipient recipient start limit =>
      discard (ask (Contract.getStreamsByRecipient recipient start.val limit.val))
  | .getActiveStreamsBySender sender => discard (ask (Contract.getActiveStreamsBySender sender))
  | .getActiveStreamsByRecipient recipient =>
      discard (ask (Contract.getActiveStreamsByRecipient recipient))
  | .getCreationFee => discard (ask getCreationFeeXlm)
  | .getProtocolFeeInfo => discard (ask Contract.getProtocolFeeInfo)
  | .getStats => discard (ask Contract.getStats)

end SoroStream.Contract
