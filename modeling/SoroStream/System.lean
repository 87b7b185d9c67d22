import SoroStream.Contract.Admin
import SoroStream.Contract.Manage
import SoroStream.Contract.Views
import SoroStream.Lib.Runs

namespace SoroStream

open Lib Lib.Rollback Lib.Rollback.Prog Lib.Runs

variable {host : Host}

inductive StreamCall
  | createStream (args : Contract.CreateArgs)
  | batchCreateStream (args : Contract.BatchArgs)
  | withdraw (streamId : StreamId) (recipient : Address)
  | batchWithdraw (streamIds : List StreamId) (recipient : Address)
  | cancelStream (streamId : StreamId) (caller : Address)
  | batchCancelStream (streamIds : List StreamId) (sender : Address)
  | recipientTerminate (streamId : StreamId) (recipient : Address)
  | transferRecipient (streamId : StreamId) (currentRecipient newRecipient : Address)
  | partialCancelStream (streamId : StreamId) (caller : Address) (cancelAmount : I128)
  | topUp (streamId : StreamId) (caller token : Address) (amount : I128)
  | pauseStream (streamId : StreamId) (sender : Address)
  | resumeStream (streamId : StreamId) (sender : Address)
  | archiveStream (streamId : StreamId) (caller : Address)
  | delegate (sender : Address) (streamId : StreamId) (operator : Address)
  | revokeDelegate (sender : Address) (streamId : StreamId)
  | updateMetadata (sender : Address) (streamId : StreamId) (metadata : List UInt8)
  | cancelAutoRenew (sender : Address) (streamId : StreamId)

/-- The public functions that work on configuration, the pause and the treasury. -/
inductive ConfigCall
  | initializeContract (admin : Address) (version : String)
  | setAdmin (newAdmin : Address)
  | emergencyPause
  | emergencyResume
  | isPaused
  | setGuardian (guardian : Address)
  | setGovernance (governance : Address)
  | pause (guardian : Address)
  | unpause (governance : Address)
  | addFeeExempt (addr : Address)
  | removeFeeExempt (addr : Address)
  | upgrade (newWasmHash : Fin (2 ^ 256))
  | setMaxStreams (maxStreams : U32)
  | setSenderStreamLimit (sender : Address) (limit : U32)
  | migrate (fromVersion toVersion : String)
  | setMinDuration (admin : Address) (seconds : U64)
  | setWithdrawalCooldown (admin : Address) (cooldownSeconds : U64)
  | setWhitelistEnabled (admin : Address) (enabled : Bool)
  | addToWhitelist (admin recipient : Address)
  | removeFromWhitelist (admin recipient : Address)
  | setProtocolFee (feeBps : U32)
  | proposeFeeChange (admin : Address) (newFeeBps : U32)
  | executeFeeChange
  | setTreasuryAddress (treasury : Address)
  | setCreationFee (fee : I128) (xlmToken : Address)
  | withdrawTreasury (token : Address) (amount : I128) (destination : Address)
  | withdrawAllFromTreasury (token destination : Address)

inductive Call
  | stream (c : StreamCall)
  | config (c : ConfigCall)
  | view (v : Contract.View)

def StreamCall.exec : StreamCall → Contract host (List StreamId)
  | .createStream args => do
      let id ← Contract.createStream args
      pure [id]
  | .batchCreateStream args => Contract.batchCreateStream args
  | .partialCancelStream streamId caller cancelAmount => do
      let id ← Contract.partialCancelStream streamId caller cancelAmount.val
      pure [id]
  | .withdraw streamId recipient => do
      Contract.withdraw streamId recipient
      pure []
  | .batchWithdraw streamIds recipient => do
      let _ ← Contract.batchWithdraw streamIds recipient
      pure []
  | .cancelStream streamId caller => do
      Contract.cancelStream streamId caller
      pure []
  | .batchCancelStream streamIds sender => do
      let _ ← Contract.batchCancelStream streamIds sender
      pure []
  | .recipientTerminate streamId recipient => do
      Contract.recipientTerminate streamId recipient
      pure []
  | .transferRecipient streamId currentRecipient newRecipient => do
      Contract.transferRecipient streamId currentRecipient newRecipient
      pure []
  | .topUp streamId caller token amount => do
      Contract.topUp streamId caller token amount.val
      pure []
  | .pauseStream streamId sender => do
      Contract.pauseStream streamId sender
      pure []
  | .resumeStream streamId sender => do
      Contract.resumeStream streamId sender
      pure []
  | .archiveStream streamId caller => do
      Contract.archiveStream streamId caller
      pure []
  | .delegate sender streamId operator => do
      Contract.delegate sender streamId operator
      pure []
  | .revokeDelegate sender streamId => do
      Contract.revokeDelegate sender streamId
      pure []
  | .updateMetadata sender streamId metadata => do
      Contract.updateMetadata sender streamId metadata
      pure []
  | .cancelAutoRenew sender streamId => do
      Contract.cancelAutoRenew sender streamId
      pure []

def ConfigCall.exec : ConfigCall → Contract host Unit
  | .initializeContract admin version => Contract.initializeContract admin version
  | .setAdmin newAdmin => Contract.setAdmin newAdmin
  | .emergencyPause => Contract.emergencyPause
  | .emergencyResume => Contract.emergencyResume
  | .isPaused => Contract.discard Contract.isPaused
  | .setGuardian guardian => Contract.setGuardian guardian
  | .setGovernance governance => Contract.setGovernance governance
  | .pause guardian => Contract.pause guardian
  | .unpause governance => Contract.unpause governance
  | .addFeeExempt addr => Contract.addFeeExempt addr
  | .removeFeeExempt addr => Contract.removeFeeExempt addr
  | .upgrade newWasmHash => Contract.upgrade newWasmHash
  | .setMaxStreams maxStreams => Contract.setMaxStreams maxStreams.val
  | .setSenderStreamLimit sender limit => Contract.setSenderStreamLimit sender limit.val
  | .migrate fromVersion toVersion => Contract.migrate fromVersion toVersion
  | .setMinDuration admin seconds => Contract.setMinDuration admin seconds.val
  | .setWithdrawalCooldown admin cooldownSeconds =>
      Contract.setWithdrawalCooldown admin cooldownSeconds.val
  | .setWhitelistEnabled admin enabled => Contract.setWhitelistEnabled admin enabled
  | .addToWhitelist admin recipient => Contract.addToWhitelist admin recipient
  | .removeFromWhitelist admin recipient => Contract.removeFromWhitelist admin recipient
  | .setProtocolFee feeBps => Contract.setProtocolFee feeBps.val
  | .proposeFeeChange admin newFeeBps => Contract.proposeFeeChange admin newFeeBps.val
  | .executeFeeChange => Contract.executeFeeChange
  | .setTreasuryAddress treasury => Contract.setTreasuryAddress treasury
  | .setCreationFee fee xlmToken => Contract.setCreationFee fee.val xlmToken
  | .withdrawTreasury token amount destination =>
      Contract.withdrawTreasury token amount.val destination
  | .withdrawAllFromTreasury token destination =>
      Contract.discard (Contract.withdrawAllFromTreasury token destination)

def Call.exec : Call → Contract host (List StreamId)
  | .stream c => c.exec
  | .config c => do
      c.exec
      pure []
  | .view v => do
      v.exec
      pure []

structure Chain where
  world : World
  now : Nat

/-- A ledger entry that concerns us: a call of the stream contract, a call of the
treasury contract, or token transfers made by others. -/
inductive Event (host : Host)
  | call (env : Env host) (c : Call)
  | treasury (env : Env host) (c : TreasuryContract.Call)
  | tokens (time : U64) (balances : Balances)

def Event.time : Event host → Nat
  | .call env _ => env.timestamp.val
  | .treasury env _ => env.timestamp.val
  | .tokens time _ => time.val

/-- Time does not run backwards, and nobody but the two contracts spends their tokens. -/
def May (c : Chain) (e : Event host) : Prop :=
  c.now ≤ e.time ∧ match e with
    | .tokens _ b => ∀ token, c.world.balances token host.contract ≤ b token host.contract ∧
        c.world.balances token host.treasury ≤ b token host.treasury
    | _ => True

/-- What one event leaves: a failed call leaves nothing but the time. -/
def Chain.step (c : Chain) (e : Event host) : Chain where
  now := e.time
  world := match e with
    | .call env call => (call.exec env c.world).commit c.world
    | .treasury env call => (call.exec none env c.world).commit c.world
    | .tokens _ b => { c.world with balances := b }

/-- The IDs of the records an event makes, as the call returns them. -/
def Chain.made (c : Chain) : Event host → List StreamId
  | .call env call => (call.exec env c.world).value?.getD []
  | _ => []

def Config.fresh : Config where
  admin := none
  version := none
  guardian := none
  governance := none
  protocolFee := none
  pendingFee := none
  treasury := none
  minDuration := none
  maxStreams := none
  withdrawalCooldown := none
  whitelistEnabled := none
  creationFeeXlm := none
  xlmToken := none
  appliedMigrations := none
  whitelist := fun _ => none
  feeExempt := fun _ => none
  senderLimit := fun _ => none

def Book.fresh : Book where
  streams := ∅
  senders := fun _ => SlotArray.empty
  recipients := fun _ => SlotArray.empty
  globalIndex := SlotArray.empty
  delegates := fun _ => none
  batchNonce := fun _ => none
  nonces := fun _ _ => none

structure Fresh (host : Host) (c : Chain) : Prop where
  config : c.world.config = Config.fresh
  pause : c.world.pause = ⟨none, none⟩
  audit : c.world.audit = ⟨none, none, fun _ => none⟩
  book : c.world.book = Book.fresh
  log : c.world.log = []
  time : c.now ≤ u64Max
  solvent : ∀ token, 0 ≤ c.world.balances token host.contract

abbrev SystemRun (host : Host) (c : Chain) (events : List (Event host)) (c' : Chain) : Prop :=
  Run May Chain.step c events c'

abbrev Reached (host : Host) (c : Chain) : Prop :=
  Reachable (Fresh host) (@May host) Chain.step c

def Chain.after (c : Chain) (events : List (Event host)) : Chain := events.foldl Chain.step c

def inOrder : Nat → List (Event host) → Bool
  | _, [] => true
  | _, .tokens _ _ :: _ => false
  | now, e :: es => decide (now ≤ e.time) && inOrder e.time es

theorem run_of_inOrder {c : Chain} {events : List (Event host)} (h : inOrder c.now events = true) :
    SystemRun host c events (c.after events) := by
  induction events generalizing c with
  | nil => exact .nil
  | cons e events ih =>
      have hsplit : c.now ≤ e.time ∧ inOrder e.time events = true ∧ May c e := by
        cases e with
        | tokens time b => simp [inOrder] at h
        | call env call =>
            simp only [inOrder, Bool.and_eq_true, decide_eq_true_eq] at h
            exact ⟨h.1, h.2, h.1, trivial⟩
        | treasury env call =>
            simp only [inOrder, Bool.and_eq_true, decide_eq_true_eq] at h
            exact ⟨h.1, h.2, h.1, trivial⟩
      have hfirst : SystemRun host c [e] (c.step e) := Run.snoc .nil hsplit.2.2
      exact hfirst.append (ih hsplit.2.1)

theorem reached_after {c : Chain} (hc : Fresh host c) {events : List (Event host)}
    (h : inOrder c.now events = true) : Reached host (c.after events) :=
  ⟨c, events, hc, run_of_inOrder h⟩

namespace Sample

def party (n : Nat) : Address := ⟨n⟩

def site : Host where
  contract := party 0
  treasury := party 1
  treasury_ne_contract := by decide
  deriveStreamId s r t n :=
    ⟨(s.raw * 1000000 + r.raw * 100000 + t * 1000 + n) % 2 ^ 64, Nat.mod_lt _ (by decide)⟩

def signed (parties : List Nat) (time : U64) : Env site where
  timestamp := time
  auths a := decide (2 ≤ a.raw ∧ a.raw ∈ parties)
  accepts _ _ := true
  foreign _ _ _ := none
  contract_silent := by simp [site, party]
  treasury_silent := by simp [site, party]
  foreign_keeps h := by simp at h

def genesis : Chain where
  now := 0
  world :=
    { config := Config.fresh
      pause := ⟨none, none⟩
      audit := ⟨none, none, fun _ => none⟩
      book := Book.fresh
      treasury := ⟨none, none, none, fun _ => none⟩
      wasm := none
      balances := fun _ a => if a.raw ≤ 1 then 0 else 1000000
      log := [] }

theorem genesis_fresh : Fresh site genesis :=
  ⟨rfl, rfl, rfl, rfl, rfl, by decide, fun _ => by simp [genesis, site, party]⟩

def call (parties : List Nat) (time : U64) (c : StreamCall) : Event site := .call (signed parties time) (.stream c)

def configure (parties : List Nat) (time : U64) (c : ConfigCall) : Event site :=
  .call (signed parties time) (.config c)

def terms (cliffSeconds lockUntil : U64) : Contract.CreateArgs where
  sender := party 2
  recipient := party 3
  token := party 9
  amount := ⟨100000, by decide⟩
  durationSeconds := 4000
  cliffSeconds := cliffSeconds
  nonce := 0
  autoRenew := false
  lockUntil := lockUntil
  allowRecipientTermination := true
  metadata := []

def opening (cliffSeconds lockUntil : U64) : Event site :=
  call [2] 10 (.createStream (terms cliffSeconds lockUntil))

def streamId : StreamId := 2310000

end Sample

end SoroStream
