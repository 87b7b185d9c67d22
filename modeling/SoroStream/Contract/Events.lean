import SoroStream.Lib.Tracing
import SoroStream.Host

namespace SoroStream

open Lib.Rollback Lib.Rollback.Prog

/-- What the stream contract publishes: the topic by name, then the indexed fields and
the data. -/
inductive Published
  | streamCreated (streamId : StreamId) (sender recipient : Address) (amount flowRate : Int) (endTime : Nat)
  | streamWithdrawn (streamId : StreamId) (recipient : Address) (amount : Int) (timestamp : Nat)
  | streamCancelled (streamId : StreamId) (sender : Address) (refundAmount recipientAmount : Int)
  | streamToppedUp (streamId : StreamId) (addedAmount : Int) (newEndTime : Nat)
  | streamCompleted (streamId : StreamId)
  | autoRenewFailed (streamId : StreamId) (sender : Address) (required : Int)
  | contractDeployed (version : String) (admin : Address)
  | streamPartialCancelled (oldStreamId newStreamId : StreamId) (sender : Address) (refundAmount newDeposit : Int)
  | contractPaused (admin : Address) (timestamp : Nat)
  | contractResumed (admin : Address) (timestamp : Nat)
  | streamPaused (streamId : StreamId) (sender : Address)
  | streamResumed (streamId : StreamId) (sender : Address)
  | feeCollected (streamId : StreamId) (amount : Int) (treasury : Address)
  | feeChangeProposed (newFee unlockTime : Nat)
  | feeChangeExecuted (newFee : Nat)
  | streamTerminatedByRecipient (streamId : StreamId) (recipient : Address) (recipientAmount refundAmount : Int)
  | recipientTransferred (streamId : StreamId) (oldRecipient newRecipient : Address)
  | contractMigrated (fromVersion toVersion : String) (admin : Address)
  | adminAction (instruction : String) (admin : Address) (timestamp : Nat)
  | streamArchived (streamId : StreamId) (sender recipient : Address) (totalAmount : Int)
  | metadataUpdated (streamId : StreamId) (metadata : List UInt8)
  | autoRenewCancelled (streamId : StreamId)
  | creationFeeCollected (feeAmount : Int) (treasury : Address)
  | paused (guardian : Address) (timestamp : Nat)
  | unpaused (governance : Address) (timestamp : Nat)
  deriving DecidableEq, Repr

abbrev Traced (host : Host) := Prog (Env host) StreamError (World × List Published)

variable {host : Host}

namespace Events

abbrev streamCreated (streamId : StreamId) (sender recipient : Address) (amount flowRate : Int) (endTime : Nat) :
    Traced host Unit := publish (.streamCreated streamId sender recipient amount flowRate endTime)

abbrev streamWithdrawn (streamId : StreamId) (recipient : Address) (amount : Int) (timestamp : Nat) :
    Traced host Unit := publish (.streamWithdrawn streamId recipient amount timestamp)

abbrev streamCancelled (streamId : StreamId) (sender : Address) (refundAmount recipientAmount : Int) :
    Traced host Unit := publish (.streamCancelled streamId sender refundAmount recipientAmount)

abbrev streamToppedUp (streamId : StreamId) (addedAmount : Int) (newEndTime : Nat) : Traced host Unit :=
  publish (.streamToppedUp streamId addedAmount newEndTime)

abbrev streamCompleted (streamId : StreamId) : Traced host Unit := publish (.streamCompleted streamId)

abbrev autoRenewFailed (streamId : StreamId) (sender : Address) (required : Int) : Traced host Unit :=
  publish (.autoRenewFailed streamId sender required)

abbrev contractDeployed (version : String) (admin : Address) : Traced host Unit :=
  publish (.contractDeployed version admin)

abbrev streamPartialCancelled (oldStreamId newStreamId : StreamId) (sender : Address)
    (refundAmount newDeposit : Int) : Traced host Unit :=
  publish (.streamPartialCancelled oldStreamId newStreamId sender refundAmount newDeposit)

abbrev contractPaused (admin : Address) (timestamp : Nat) : Traced host Unit :=
  publish (.contractPaused admin timestamp)

abbrev contractResumed (admin : Address) (timestamp : Nat) : Traced host Unit :=
  publish (.contractResumed admin timestamp)

abbrev streamPaused (streamId : StreamId) (sender : Address) : Traced host Unit :=
  publish (.streamPaused streamId sender)

abbrev streamResumed (streamId : StreamId) (sender : Address) : Traced host Unit :=
  publish (.streamResumed streamId sender)

abbrev feeCollected (streamId : StreamId) (amount : Int) (treasury : Address) : Traced host Unit :=
  publish (.feeCollected streamId amount treasury)

abbrev feeChangeProposed (newFee unlockTime : Nat) : Traced host Unit :=
  publish (.feeChangeProposed newFee unlockTime)

abbrev feeChangeExecuted (newFee : Nat) : Traced host Unit := publish (.feeChangeExecuted newFee)

abbrev streamTerminatedByRecipient (streamId : StreamId) (recipient : Address)
    (recipientAmount refundAmount : Int) : Traced host Unit :=
  publish (.streamTerminatedByRecipient streamId recipient recipientAmount refundAmount)

abbrev recipientTransferred (streamId : StreamId) (oldRecipient newRecipient : Address) : Traced host Unit :=
  publish (.recipientTransferred streamId oldRecipient newRecipient)

abbrev contractMigrated (fromVersion toVersion : String) (admin : Address) : Traced host Unit :=
  publish (.contractMigrated fromVersion toVersion admin)

abbrev adminAction (instruction : String) (admin : Address) (timestamp : Nat) : Traced host Unit :=
  publish (.adminAction instruction admin timestamp)

abbrev streamArchived (streamId : StreamId) (sender recipient : Address) (totalAmount : Int) : Traced host Unit :=
  publish (.streamArchived streamId sender recipient totalAmount)

abbrev metadataUpdated (streamId : StreamId) (metadata : List UInt8) : Traced host Unit :=
  publish (.metadataUpdated streamId metadata)

abbrev autoRenewCancelled (streamId : StreamId) : Traced host Unit := publish (.autoRenewCancelled streamId)

abbrev creationFeeCollected (feeAmount : Int) (treasury : Address) : Traced host Unit :=
  publish (.creationFeeCollected feeAmount treasury)

end Events

end SoroStream
