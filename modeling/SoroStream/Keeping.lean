import SoroStream.System

namespace SoroStream

open Lib Lib.Rollback Lib.Rollback.Prog Contract

variable {host : Host} {env : Env host} {R : World → World → Prop} [IsPreorder World R]

theorem checkAdmin_keeps : Keeps env R Storage.checkAdmin :=
  keeps_bind keeps_read fun _ => keeps_bind keeps_okOrHalt fun _ => requireAuth_keeps

theorem recordAction_keeps {instruction params : String} (haudit : ∀ f, Keeps env R (setAudit f)) :
    Keeps env R (recordAction instruction params) :=
  keeps_bind keeps_read fun _ => keeps_bind keeps_read fun _ => keeps_bind keeps_okOrHalt fun _ =>
    haudit _

section

open TreasuryContract

variable {invoker : Option Address} {token destination : Address}

theorem treasuryAdmin_keeps : Keeps env R (TreasuryContract.checkAdmin invoker) :=
  keeps_bind keeps_read fun _ => keeps_bind keeps_okOrHalt fun _ => keeps_ite keeps_pure requireAuth_keeps

/-- What the treasury contract's own writes and payouts keep. -/
structure KeptByTreasury (env : Env host) (R : World → World → Prop) : Prop where
  cells : ∀ f, Keeps env R (setTreasuryCells f)
  payout : ∀ token destination amount w, Payable env w (payout host token destination amount) →
    R w (w.pay [payout host token destination amount])

omit [IsPreorder World R] in
theorem payout_keeps (h : KeptByTreasury env R) {amount : Int} :
    Keeps env R (transfer (payout host token destination amount)) := transfer_keeps fun w => h.payout _ _ _ w

theorem withdrawTreasury_keeps (h : KeptByTreasury env R) {amount : Int} :
    Keeps env R (withdrawTreasury invoker token amount destination) :=
  keeps_bind treasuryAdmin_keeps fun _ => keeps_bind keeps_read fun _ => keeps_bind keeps_haltIf fun _ =>
    keeps_bind keeps_okOrHalt fun _ => keeps_bind (h.cells _) fun _ => payout_keeps h

theorem withdrawAll_keeps (h : KeptByTreasury env R) : Keeps env R (withdrawAll invoker token destination) :=
  keeps_bind treasuryAdmin_keeps fun _ => keeps_bind keeps_read fun _ => keeps_ite
    (keeps_bind (h.cells _) fun _ => keeps_bind (payout_keeps h) fun _ => keeps_pure) keeps_pure

theorem distribute_keeps (h : KeptByTreasury env R) : Keeps env R (distribute invoker token destination) := by
  refine keeps_bind treasuryAdmin_keeps fun _ => keeps_bind keeps_read fun total => keeps_ite keeps_pure ?_
  refine keeps_bind keeps_read fun _ => keeps_bind keeps_okOrHalt fun _ => keeps_bind keeps_okOrHalt fun _ => ?_
  refine keeps_bind (h.cells _) fun _ => keeps_bind (keeps_ite (payout_keeps h) keeps_pure) fun _ => ?_
  refine keeps_ite ?_ keeps_pure
  exact keeps_bind keeps_read fun _ => keeps_bind keeps_okOrHalt fun _ =>
    keeps_bind (payout_keeps h) fun _ => keeps_pure

theorem treasuryCall_keeps (h : KeptByTreasury env R) (c : TreasuryContract.Call) : Keeps env R (c.exec invoker) := by
  cases c with
  | initializeTreasury admin =>
      exact keeps_bind keeps_read fun _ => keeps_bind keeps_haltIf fun _ => h.cells _
  | setAdmin newAdmin | setLpPool lpPool =>
      exact keeps_bind treasuryAdmin_keeps fun _ => h.cells _
  | deposit token amount =>
      exact keeps_bind keeps_read fun _ => keeps_bind keeps_okOrHalt fun _ => h.cells _
  | withdrawTreasury token amount destination => exact withdrawTreasury_keeps h
  | withdrawAll token destination => exact keeps_bind (withdrawAll_keeps h) fun _ => keeps_pure
  | setTreasurySplit treasuryBps =>
      exact keeps_bind treasuryAdmin_keeps fun _ => keeps_bind keeps_haltIf fun _ => h.cells _
  | distribute token destination => exact keeps_bind (distribute_keeps h) fun _ => keeps_pure

end

def ConfigCall.SetsPause : ConfigCall → Prop
  | .emergencyPause | .emergencyResume | .isPaused | .pause _ | .unpause _ => True
  | _ => False

def ConfigCall.SetsRates : ConfigCall → Prop
  | .setProtocolFee _ | .proposeFeeChange _ _ | .executeFeeChange => True
  | _ => False

def ConfigCall.SetsCells : ConfigCall → Prop
  | .upgrade _ | .withdrawTreasury _ _ _ | .withdrawAllFromTreasury _ _ => False
  | c => ¬c.SetsPause ∧ ¬c.SetsRates

def SameRates (c c' : Config) : Prop := c'.protocolFee = c.protocolFee ∧ c'.pendingFee = c.pendingFee

/-- What the writes beside the configuration and the pause keep, and the calls of the
treasury contract. -/
structure KeptBeside (env : Env host) (R : World → World → Prop) : Prop where
  audit : ∀ f, Keeps env R (setAudit f)
  wasm : ∀ (hash : Option (Fin (2 ^ 256))) w, R w { w with wasm := hash }
  foreign : ∀ {a f w v b}, env.foreign a f w.balances = some (v, b) → R w { w with balances := b }
  withdraw : ∀ token amount destination,
    Keeps env R (TreasuryContract.withdrawTreasury (some host.contract) token amount destination)
  withdrawAll : ∀ token destination,
    Keeps env R (TreasuryContract.withdrawAll (some host.contract) token destination)

def ConfigCall.Records : ConfigCall → Prop
  | .emergencyPause | .emergencyResume | .migrate _ _ => True
  | _ => False

def ConfigCall.Forwards : ConfigCall → Prop
  | .withdrawTreasury _ _ _ | .withdrawAllFromTreasury _ _ => True
  | _ => False

structure KeptByForwarding (env : Env host) (R : World → World → Prop) : Prop where
  foreign : ∀ {a f w v b}, env.foreign a f w.balances = some (v, b) → R w { w with balances := b }
  withdraw : ∀ token amount destination,
    Keeps env R (TreasuryContract.withdrawTreasury (some host.contract) token amount destination)
  withdrawAll : ∀ token destination,
    Keeps env R (TreasuryContract.withdrawAll (some host.contract) token destination)

theorem configCall_keeps_of (hwasm : ∀ (hash : Option (Fin (2 ^ 256))) w, R w { w with wasm := hash }) {c : ConfigCall}
    (hforwards : c.Forwards → KeptByForwarding env R) (haudit : c.Records → ∀ f, Keeps env R (setAudit f))
    (hcells : c.SetsCells → ∀ f, (∀ c, SameRates c (f c)) → Keeps env R (setConfig f))
    (hpause : c.SetsPause → ∀ f, Keeps env R (setPause f))
    (hrates : c.SetsRates → ∀ f, Keeps env R (setConfig f)) : Keeps env R c.exec := by
  have hadmin (h : c.SetsCells) {f : Config → Config} (hf : ∀ c, SameRates c (f c)) :
      Keeps env R (do Storage.checkAdmin; setConfig f : Contract host Unit) :=
    keeps_bind checkAdmin_keeps fun _ => hcells h f hf
  have hsigned (h : c.SetsCells) {f : Config → Config} {a : Address} (hf : ∀ c, SameRates c (f c)) :
      Keeps env R (do Storage.checkAdmin; requireAuth a; setConfig f : Contract host Unit) :=
    keeps_bind checkAdmin_keeps fun _ => keeps_bind requireAuth_keeps fun _ => hcells h f hf
  cases c with
  | initializeContract admin version =>
      exact keeps_bind keeps_read fun _ => keeps_bind keeps_failIf fun _ =>
        keeps_bind (hcells ⟨id, id⟩ _ fun _ => ⟨rfl, rfl⟩) fun _ => hcells ⟨id, id⟩ _ fun _ => ⟨rfl, rfl⟩
  | emergencyPause =>
      exact keeps_bind checkAdmin_keeps fun _ => keeps_bind (hpause trivial _) fun _ => keeps_bind keeps_read fun _ =>
        keeps_bind (hpause trivial _) fun _ => recordAction_keeps (haudit trivial)
  | emergencyResume =>
      exact keeps_bind checkAdmin_keeps fun _ => keeps_bind (hpause trivial _) fun _ =>
        keeps_bind (hpause trivial _) fun _ => recordAction_keeps (haudit trivial)
  | isPaused =>
      refine keeps_bind (keeps_bind keeps_read fun _ => keeps_ite keeps_pure ?_) fun _ => keeps_pure
      exact keeps_bind keeps_read fun _ => keeps_bind keeps_read fun _ => keeps_ite
        (keeps_bind (hpause trivial _) fun _ => keeps_bind (hpause trivial _) fun _ => keeps_pure) keeps_pure
  | pause guardian =>
      exact keeps_bind requireAuth_keeps fun _ => keeps_bind keeps_read fun _ => keeps_bind keeps_okOr fun _ =>
        keeps_bind keeps_failIf fun _ => keeps_bind (hpause trivial _) fun _ => keeps_bind keeps_read fun _ =>
          hpause trivial _
  | unpause governance =>
      exact keeps_bind requireAuth_keeps fun _ => keeps_bind keeps_read fun _ => keeps_bind keeps_okOr fun _ =>
        keeps_bind keeps_failIf fun _ => keeps_bind (hpause trivial _) fun _ => hpause trivial _
  | upgrade newWasmHash =>
      refine keeps_bind keeps_read fun _ => keeps_bind keeps_okOr fun _ => keeps_bind requireAuth_keeps fun _ => ?_
      exact keeps_update fun w => hwasm _ w
  | migrate fromVersion toVersion =>
      refine keeps_bind checkAdmin_keeps fun _ => keeps_bind keeps_read fun _ => keeps_bind keeps_failIf fun _ => ?_
      exact keeps_bind (hcells ⟨id, id⟩ _ fun _ => ⟨rfl, rfl⟩) fun _ =>
        keeps_bind (hcells ⟨id, id⟩ _ fun _ => ⟨rfl, rfl⟩) fun _ => recordAction_keeps (haudit trivial)
  | setMinDuration admin seconds =>
      exact keeps_bind requireAuth_keeps fun _ => hcells ⟨id, id⟩ _ fun _ => ⟨rfl, rfl⟩
  | setAdmin newAdmin | setGuardian guardian | setGovernance governance | addFeeExempt addr
  | removeFeeExempt addr | setMaxStreams maxStreams | setSenderStreamLimit sender limit =>
      exact hadmin ⟨id, id⟩ fun _ => ⟨rfl, rfl⟩
  | setWithdrawalCooldown admin cooldownSeconds | setWhitelistEnabled admin enabled
  | addToWhitelist admin recipient | removeFromWhitelist admin recipient =>
      exact hsigned ⟨id, id⟩ fun _ => ⟨rfl, rfl⟩
  | setProtocolFee feeBps => exact keeps_bind keeps_failIf fun _ => hrates trivial _
  | proposeFeeChange admin newFeeBps =>
      refine keeps_bind requireAuth_keeps fun _ => keeps_bind keeps_read fun _ => keeps_bind keeps_okOr fun _ => ?_
      refine keeps_bind keeps_failIf fun _ => keeps_bind keeps_failIf fun _ => keeps_bind keeps_read fun _ => ?_
      exact hrates trivial _
  | executeFeeChange =>
      refine keeps_bind keeps_read fun _ => keeps_bind keeps_okOr fun _ => keeps_bind keeps_read fun _ => ?_
      exact keeps_bind keeps_failIf fun _ => keeps_bind (hrates trivial _) fun _ => hrates trivial _
  | setTreasuryAddress treasury =>
      exact hcells ⟨id, id⟩ (fun c => { c with treasury := some treasury }) fun _ => ⟨rfl, rfl⟩
  | setCreationFee fee xlmToken =>
      exact keeps_bind checkAdmin_keeps fun _ => keeps_bind keeps_failIf fun _ =>
        keeps_bind (hcells ⟨id, id⟩ _ fun _ => ⟨rfl, rfl⟩) fun _ => hcells ⟨id, id⟩ _ fun _ => ⟨rfl, rfl⟩
  | withdrawTreasury token amount destination =>
      refine keeps_bind checkAdmin_keeps fun _ => keeps_bind keeps_read fun _ => keeps_bind keeps_okOr fun _ => ?_
      refine keeps_bind (callContract_keeps (hforwards trivial).foreign ?_) fun _ => keeps_pure
      exact keeps_bind ((hforwards trivial).withdraw token amount.val destination) fun _ => keeps_pure
  | withdrawAllFromTreasury token destination =>
      refine keeps_bind (keeps_bind checkAdmin_keeps fun _ => keeps_bind keeps_read fun _ => ?_) fun _ => keeps_pure
      exact keeps_bind keeps_okOr fun _ =>
        callContract_keeps (hforwards trivial).foreign ((hforwards trivial).withdrawAll token destination)

theorem configCall_keeps (hR : KeptBeside env R) {c : ConfigCall}
    (hcells : c.SetsCells → ∀ f, (∀ c, SameRates c (f c)) → Keeps env R (setConfig f))
    (hpause : c.SetsPause → ∀ f, Keeps env R (setPause f))
    (hrates : c.SetsRates → ∀ f, Keeps env R (setConfig f)) : Keeps env R c.exec :=
  configCall_keeps_of hR.wasm (fun _ => ⟨hR.foreign, hR.withdraw, hR.withdrawAll⟩) (fun _ => hR.audit) hcells
    hpause hrates

end SoroStream
