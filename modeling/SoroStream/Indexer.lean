import SoroStream.Receipts

namespace SoroStream

open Lib Lib.Runs Contract

namespace Indexer

structure Entry where
  sender : Address
  recipient : Address
  deposit : Int
  flowRate : Int
  startTime : Nat
  endTime : Nat
  lastWithdrawTime : Nat
  status : StreamStatus
  lastPauseTime : Nat
  totalWithdrawn : Int
  deriving DecidableEq

namespace Entry

def live (e : Entry) : Bool := e.status = .active || e.status = .paused

def remaining (e : Entry) : Int := e.deposit - e.totalWithdrawn

def clock (e : Entry) (now : Nat) : Nat := if e.status = .paused then e.lastPauseTime else now

def withdrawn (e : Entry) (amount : Int) (timestamp : Nat) : Entry :=
  { e with
    totalWithdrawn := e.totalWithdrawn + amount
    lastWithdrawTime := min timestamp e.endTime }

def renewed (e : Entry) : Entry :=
  { e with
    startTime := e.endTime
    endTime := e.endTime + (e.endTime - e.startTime)
    lastWithdrawTime := e.endTime
    totalWithdrawn := 0 }

def toppedUp (e : Entry) (amount : Int) (endTime : Nat) : Entry := { e with endTime, deposit := e.deposit + amount }

def completed (e : Entry) : Entry := { e with status := .completed }

def cancelled (e : Entry) : Entry := { e with status := .cancelled }

def paused (e : Entry) (now : Nat) : Entry := { e with status := .paused, lastPauseTime := now }

def resumed (e : Entry) (now : Nat) : Entry :=
  { e with
    endTime := saturatingAddU64 e.endTime (now - e.lastPauseTime)
    startTime := saturatingAddU64 e.startTime (now - e.lastPauseTime)
    lastWithdrawTime := saturatingAddU64 e.lastWithdrawTime (now - e.lastPauseTime)
    status := .active
    lastPauseTime := 0 }

def successor (e : Entry) (start : Nat) (deposit : Int) : Entry :=
  { e with
    deposit
    startTime := start
    endTime := start + (deposit.tdiv e.flowRate).toNat
    lastWithdrawTime := start
    status := .active
    lastPauseTime := 0
    totalWithdrawn := 0 }

end Entry

abbrev Index := StreamId → Option Entry

end Indexer

namespace Receipt

def completes (r : Receipt) (id : StreamId) : Bool := .streamCompleted id ∈ r.events

def handsOver (r : Receipt) (id : StreamId) : Bool :=
  r.events.any fun
    | .recipientTransferred streamId _ _ => streamId = id
    | _ => false

def splits (r : Receipt) (id : StreamId) : Bool :=
  r.events.any fun
    | .streamPartialCancelled oldStreamId _ _ _ _ => oldStreamId = id
    | _ => false

end Receipt

namespace Indexer

def change (ix : Index) (id : StreamId) (fits : Entry → Bool) (after : Entry → Option Entry) : Option Index :=
  match ix id with
  | some e => if fits e then some (Function.update ix id (after e)) else none
  | none => none

/-- Read one event with the others of its call in view. An event that contradicts what is
known is not read: who the parties are, what is live, and what a closed stream had left. -/
def read (r : Receipt) (ix : Index) : Published → Option Index
  | .streamCreated id sender recipient amount flowRate endTime =>
      if ix id = none then
        some (Function.update ix id (some
          ⟨sender, recipient, amount, flowRate, r.time, endTime, r.time, .active, 0, 0⟩))
      else none
  | .streamWithdrawn id recipient amount timestamp =>
      -- a stream that ended in this call is gone before its last payment is told
      if ix id = none ∧ r.completes id = true then some ix
      else change ix id (fun e => e.recipient = recipient ∧ timestamp = e.clock r.time) fun e =>
        -- the contract has no event for a renewal
        if e.status = .active ∧ e.endTime ≤ timestamp ∧ r.handsOver id = false then
          some (e.withdrawn amount timestamp).renewed
        else some (e.withdrawn amount timestamp)
  | .streamCancelled id sender refund paid =>
      if r.splits id then some ix
      else change ix id (fun e => e.live ∧ e.sender = sender ∧ refund + paid = e.remaining) fun _ => none
  | .streamTerminatedByRecipient id recipient paid refund =>
      change ix id (fun e => e.live ∧ e.recipient = recipient ∧ refund + paid = e.remaining) fun _ => none
  | .streamPartialCancelled id new sender _ deposit =>
      match ix id with
      | some e =>
          if e.live ∧ e.sender = sender then
            some (Function.update (Function.update ix id (some e.cancelled)) new
              (some (e.successor (e.clock r.time) deposit)))
          else none
      | none => none
  | .streamToppedUp id amount endTime =>
      change ix id (fun e => e.live ∧ endTime = e.endTime + (amount.tdiv e.flowRate).toNat) fun e =>
        some (e.toppedUp amount endTime)
  | .autoRenewFailed id sender required =>
      change ix id (fun e => e.status = .active ∧ e.sender = sender ∧ e.deposit = required) fun e =>
        some e.completed
  | .streamCompleted id =>
      change ix id (fun e => e.status = .active ∨ e.status = .completed) fun e =>
        if e.status = .completed then some e else none
  | .streamPaused id sender =>
      change ix id (fun e => e.status = .active ∧ e.sender = sender) fun e => some (e.paused r.time)
  | .streamResumed id sender =>
      change ix id (fun e => e.status = .paused ∧ e.sender = sender) fun e => some (e.resumed r.time)
  | .recipientTransferred id old new =>
      change ix id (fun e => e.live ∧ e.recipient = old) fun e => some { e with recipient := new }
  | .streamArchived id sender recipient total =>
      change ix id (fun e => e.sender = sender ∧ e.recipient = recipient ∧ e.deposit = total) fun _ => none
  | .metadataUpdated id _ | .autoRenewCancelled id => change ix id (fun _ => true) some
  | _ => some ix

def readReceipt (ix : Index) (r : Receipt) : Option Index := replay (read r) ix r.events

end Indexer

end SoroStream
