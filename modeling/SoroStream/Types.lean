import SoroStream.Lib.Checked
import Mathlib.Data.Finmap

namespace SoroStream

open Lib.Checked

abbrev U64 := Fin (2 ^ 64)
abbrev U32 := Fin (2 ^ 32)

instance (n : Nat) : OfNat U64 n := ⟨⟨n % 2 ^ 64, Nat.mod_lt _ (by decide)⟩⟩
instance (n : Nat) : OfNat U32 n := ⟨⟨n % 2 ^ 32, Nat.mod_lt _ (by decide)⟩⟩

def u64Max : Nat := 2 ^ 64 - 1
def u32Max : Nat := 2 ^ 32 - 1
def i128Min : Int := -2 ^ 127
def i128Max : Int := 2 ^ 127 - 1

abbrev I128 := { z : Int // i128Min ≤ z ∧ z ≤ i128Max }

def checkedAddU64 (a b : Nat) : Option Nat := addNat u64Max a b
def saturatingAddU64 (a b : Nat) : Nat := satAddNat u64Max a b
def saturatingAddU32 (a b : Nat) : Nat := satAddNat u32Max a b
def checkedAddU32 (a b : Nat) : Option Nat := addNat u32Max a b
def checkedAddI128 (a b : Int) : Option Int := inRange i128Min i128Max (a + b)
def checkedSubI128 (a b : Int) : Option Int := inRange i128Min i128Max (a - b)
def checkedMulI128 (a b : Int) : Option Int := inRange i128Min i128Max (a * b)
def saturatingSubI128 (a b : Int) : Int := clamp i128Min i128Max (a - b)
def saturatingMulI128 (a b : Int) : Int := clamp i128Min i128Max (a * b)
def saturatingAddI128 (a b : Int) : Int := clamp i128Min i128Max (a + b)

structure Address where
  raw : Nat
  deriving DecidableEq, Repr

abbrev StreamId := Nat

inductive StreamStatus
  | active
  | cancelled
  | completed
  | paused
  deriving DecidableEq, Repr

structure Stream where
  id : StreamId
  sender : Address
  recipient : Address
  token : Address
  deposit : Int
  flowRate : Int
  startTime : Nat
  cliffTime : Nat
  lockUntil : Nat
  endTime : Nat
  lastWithdrawTime : Nat
  status : StreamStatus
  autoRenew : Bool
  allowRecipientTermination : Bool
  lastPauseTime : Nat
  totalWithdrawn : Int
  metadata : List UInt8
  deriving DecidableEq, Repr

structure Stats where
  totalStreams : Nat
  activeStreams : Nat
  totalVolume : Int
  deriving DecidableEq, Repr

structure AuditEntry where
  instruction : String
  admin : Address
  timestamp : Nat
  params : String
  deriving DecidableEq, Repr

inductive StreamError
  | streamNotFound
  | notRecipient
  | notSender
  | streamNotActive
  | zeroAmount
  | invalidDuration
  | insufficientBalance
  | invalidCliff
  | alreadyInitialized
  | notInitialized
  | duplicateStream
  | invalidStartTime
  | invalidPartialCancel
  | contractPaused
  | overflow
  | zeroFlowRate
  | batchLengthMismatch
  | tokenMismatch
  | streamLocked
  | notAuthorized
  | streamNotPaused
  | streamDurationTooShort
  | streamIdConflict
  | senderStreamLimitExceeded
  | invalidNonce
  | migrationAlreadyApplied
  | streamNotSettled
  | withdrawalCooldownActive
  | recipientNotWhitelisted
  | metadataTooLong
  | duplicateStreamId
  | invalidEndTime
  | insufficientXlmForFee
  deriving DecidableEq, Repr

abbrev Streams := Finmap fun _ : StreamId => Stream

/-- Money is still held for a stream in one of these two states. -/
def Stream.Live (s : Stream) : Prop := s.status = .active ∨ s.status = .paused

instance (s : Stream) : Decidable s.Live := inferInstanceAs (Decidable (_ ∨ _))

def Stream.remaining (s : Stream) : Int := s.deposit - s.totalWithdrawn

/-- The clock a stream runs on: it stands still while the stream is paused. -/
def Stream.clock (s : Stream) (now : Nat) : Nat :=
  if s.status = .paused then s.lastPauseTime else now

end SoroStream
