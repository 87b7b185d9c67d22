import SoroStream.Contract.Create
import SoroStream.TreasuryContract
import SoroStream.VestingMath

namespace SoroStream.Contract

open Lib.Rollback Lib.Rollback.Prog Storage VestingMath

variable {host : Host}

def feeAmount (recipient : Address) (claimable : Int) : Contract host Int := do
  let feeBps ← ask getProtocolFee
  let exempt ← ask (isFeeExempt recipient)
  if 0 < feeBps ∧ exempt = false then do
    let product ← okOr .overflow (checkedMulI128 claimable feeBps)
    pure (product.tdiv 10000)
  else pure 0

/-- What follows a fee transfer: nothing in `withdraw` and `transfer_recipient`,
the treasury's own bookkeeping in `batch_withdraw`. -/
abbrev FeeHook (host : Host) := Address → Address → Int → Contract host Unit

def noHook : FeeHook host := fun _ _ _ => pure ()

def depositHook : FeeHook host := fun treasury token fee =>
  tryCall do
    let _ ← callContract treasury "deposit" do
      TreasuryContract.deposit token fee
      pure 0

/-- Split a claim between the recipient and the treasury, and pay both. Without a
treasury the fee stays in the contract. Returns the recipient's part. -/
def payClaim (hook : FeeHook host) (stream : Stream) (claimable : Int) : Contract host Int := do
  let fee ← feeAmount stream.recipient claimable
  let recipientAmount := claimable - fee
  transferPositive ⟨stream.token, host.contract, stream.recipient, recipientAmount, .claim stream.id⟩
  if 0 < fee then do
    let treasury ← ask getTreasury
    match treasury with
    | some treasury => do
        transfer ⟨stream.token, host.contract, treasury, fee, .protocolFee stream.id⟩
        hook treasury stream.token fee
        pure recipientAmount
    | none => pure recipientAmount
  else pure recipientAmount

/-- The claim block of `withdraw` and `batch_withdraw`: a claim that the deposit
does not cover is an overflow. -/
def claimBlock (hook : FeeHook host) (after : Int → Contract host Unit) (stream : Stream)
    (claimable : Int) : Contract host Stream :=
  if 0 < claimable then do
    let total ← okOr .overflow (checkedAddI128 stream.totalWithdrawn claimable)
    failIf (stream.deposit < total) .overflow
    let recipientAmount ← payClaim hook stream claimable
    after recipientAmount
    pure { stream with totalWithdrawn := total }
  else pure stream

/-- The recipient may be a contract that listens; its answer is ignored. -/
def notifyRecipient (recipient : Address) : Contract host Unit :=
  tryCall do
    let _ ← callContract recipient "on_stream_withdraw" halt

/-- Remove a record together with its entries in both participants' indexes. -/
def closeStream (streamId : StreamId) (stream : Stream) : Contract host Unit := do
  removeStream streamId
  unindexBySender stream.sender streamId
  unindexByRecipient stream.recipient streamId

def streamDust (stream : Stream) (duration : Nat) : Int :=
  saturatingSubI128 stream.deposit (saturatingMulI128 stream.flowRate duration)

def refundDust (stream : Stream) (dust : Int) : Contract host Unit :=
  transferPositive ⟨stream.token, host.contract, stream.sender, dust, .dust stream.id⟩

/-- Lock the whole deposit again and start the next cycle where this one ended. -/
def renewStream (stream : Stream) (duration : Nat) : Contract host Unit := do
  requireAuth stream.sender
  transfer ⟨stream.token, stream.sender, host.contract, stream.deposit, .renewal stream.id⟩
  let newEnd ← okOr .overflow (checkedAddU64 stream.endTime duration)
  saveStream
    { stream with
      startTime := stream.endTime
      endTime := newEnd
      lastWithdrawTime := stream.endTime
      totalWithdrawn := 0 }

def finishStream (streamId : StreamId) (stream : Stream) (dust : Int) : Contract host Unit := do
  refundDust stream dust
  closeStream streamId stream

/-- The tail of a withdrawal. Only `withdraw` looks whether the sender can fund a
renewal; one that it cannot completes the stream. -/
def settleStream (looks : Bool) (streamId : StreamId) (stream : Stream) (now : Nat) :
    Contract host Unit :=
  if stream.endTime ≤ now then do
    let duration ← subU64 stream.endTime stream.startTime
    let dust := streamDust stream duration
    if stream.autoRenew = true then do
      let senderBalance ← balanceOf stream.token stream.sender
      if looks = true ∧ senderBalance < stream.deposit then do
        refundDust stream dust
        saveStream { stream with status := .completed }
      else renewStream stream duration
    else finishStream streamId stream dust
  else saveStream stream

def withdraw (streamId : StreamId) (recipient : Address) : Contract host Unit := do
  requireRunning
  requireAuth recipient
  let stream ← ask (loadStream streamId)
  let stream ← okOr .streamNotFound stream
  failIf (stream.recipient ≠ recipient) .notRecipient
  failIf (stream.status ≠ .active) .streamNotActive
  let now ← timestamp
  failIf (now < stream.lockUntil) .streamLocked
  let cooldown ← ask getWithdrawalCooldown
  failIf (0 < cooldown ∧ now < saturatingAddU64 stream.lastWithdrawTime cooldown)
    .withdrawalCooldownActive
  let effectiveNow := min now stream.endTime
  let claimable ← okOr .overflow (computeClaimable stream.flowRate now stream.cliffTime
    stream.endTime stream.lastWithdrawTime)
  let stream ← claimBlock noHook (fun _ => notifyRecipient recipient) stream claimable
  settleStream true streamId { stream with lastWithdrawTime := effectiveNow } now

def batchWithdrawItem (recipient : Address) (streamId : StreamId) : Contract host Int := do
  let stream ← ask (loadStream streamId)
  let stream ← okOr .streamNotFound stream
  failIf (stream.recipient ≠ recipient) .notRecipient
  failIf (stream.status ≠ .active) .streamNotActive
  let now ← timestamp
  failIf (now < stream.lockUntil) .streamLocked
  let effectiveNow := min now stream.endTime
  let claimable ← okOr .overflow (computeEarned stream.flowRate now stream.endTime
    stream.lastWithdrawTime)
  let stream ← claimBlock depositHook (fun _ => pure ()) stream claimable
  settleStream false streamId { stream with lastWithdrawTime := effectiveNow } now
  pure claimable

def batchWithdraw (streamIds : List StreamId) (recipient : Address) : Contract host (List Int) := do
  requireRunning
  requireAuth recipient
  each (batchWithdrawItem recipient) streamIds

/-- The claim a transfer of the recipient role makes first. Here the checkpoint
moves only when something is paid, and the deposit is not compared. -/
def claimForTransfer (stream : Stream) (now : Nat) : Contract host Stream :=
  if stream.lockUntil ≤ now ∧ stream.cliffTime ≤ now then do
    let claimable ← okOr .overflow (computeClaimable stream.flowRate now stream.cliffTime
      stream.endTime stream.lastWithdrawTime)
    if 0 < claimable then do
      let _ ← payClaim noHook stream claimable
      let total ← okOr .overflow (checkedAddI128 stream.totalWithdrawn claimable)
      pure { stream with totalWithdrawn := total, lastWithdrawTime := min now stream.endTime }
    else pure stream
  else pure stream

def transferRecipient (streamId : StreamId) (currentRecipient newRecipient : Address) :
    Contract host Unit := do
  requireRunning
  requireAuth currentRecipient
  let stream ← ask (loadStream streamId)
  let stream ← okOr .streamNotFound stream
  failIf (stream.recipient ≠ currentRecipient) .notRecipient
  failIf (¬stream.Live) .streamNotActive
  let ledgerTime ← timestamp
  let now := stream.clock ledgerTime
  let stream ← claimForTransfer stream now
  let oldRecipient := stream.recipient
  saveStream { stream with recipient := newRecipient }
  unindexByRecipient oldRecipient streamId
  indexByRecipient newRecipient streamId

end SoroStream.Contract
