import SoroStream.Frame

namespace SoroStream

open Lib Lib.Rollback Lib.Rollback.Prog Lib.Runs

variable {host : Host} {env : Env host} {w w' : World} {u : Unit}

def feeDelay : Nat := 7 * 24 * 60 * 60

def ConfigCall.apply (now : Nat) (c : Config) : ConfigCall → Config
  | .initializeContract admin version => { c with admin := some admin, version := some version }
  | .setAdmin newAdmin => { c with admin := some newAdmin }
  | .setGuardian guardian => { c with guardian := some guardian }
  | .setGovernance governance => { c with governance := some governance }
  | .addFeeExempt addr => { c with feeExempt := Function.update c.feeExempt addr (some true) }
  | .removeFeeExempt addr => { c with feeExempt := Function.update c.feeExempt addr none }
  | .setMaxStreams maxStreams => { c with maxStreams := some maxStreams.val }
  | .setSenderStreamLimit sender limit =>
      { c with senderLimit := Function.update c.senderLimit sender (some limit.val) }
  | .migrate _ toVersion =>
      { c with
        version := some toVersion
        appliedMigrations := some (c.appliedMigrations.getD [] ++ [toVersion]) }
  | .setMinDuration _ seconds => { c with minDuration := some seconds.val }
  | .setWithdrawalCooldown _ cooldownSeconds => { c with withdrawalCooldown := some cooldownSeconds.val }
  | .setWhitelistEnabled _ enabled => { c with whitelistEnabled := some enabled }
  | .addToWhitelist _ recipient => { c with whitelist := Function.update c.whitelist recipient (some true) }
  | .removeFromWhitelist _ recipient => { c with whitelist := Function.update c.whitelist recipient none }
  | .setProtocolFee feeBps => { c with protocolFee := some feeBps.val }
  | .proposeFeeChange _ newFeeBps =>
      { c with pendingFee := some (newFeeBps.val, saturatingAddU64 now feeDelay) }
  | .executeFeeChange => { c with protocolFee := c.pendingFee.map Prod.fst, pendingFee := none }
  | .setTreasuryAddress treasury => { c with treasury := some treasury }
  | .setCreationFee fee xlmToken => { c with creationFeeXlm := some fee.val, xlmToken := some xlmToken }
  | .emergencyPause | .emergencyResume | .isPaused | .pause _ | .unpause _ | .upgrade _
  | .withdrawTreasury _ _ _ | .withdrawAllFromTreasury _ _ => c

def SignedByAdmin (env : Env host) (c : Config) : Prop := ∃ a, c.admin = some a ∧ env.auths a = true

def ConfigCall.Granted (env : Env host) (c : Config) : ConfigCall → Prop
  | .initializeContract _ _ => c.admin = none
  | .isPaused | .pause _ | .unpause _ | .setProtocolFee _ | .setTreasuryAddress _ => True
  | .setMinDuration admin _ => env.auths admin = true
  | .proposeFeeChange admin _ => c.admin = some admin ∧ env.auths admin = true
  | .executeFeeChange => ∃ f t, c.pendingFee = some (f, t) ∧ t ≤ env.now
  | _ => SignedByAdmin env c

theorem checkAdmin_ok : Storage.checkAdmin env w = .ok u w' ↔ SignedByAdmin env w.config ∧ w = w' := by
  simp only [Storage.checkAdmin, ask, bind_ok, read_ok, okOrHalt_ok, requireAuth_ok, Storage.readAdmin, and_assoc,
    exists_and_left, exists_eq_left']
  constructor
  · rintro ⟨a, ha, hauth, rfl⟩
    exact ⟨⟨a, ha, hauth⟩, rfl⟩
  · rintro ⟨⟨a, ha, hauth⟩, rfl⟩
    exact ⟨a, ha, hauth, rfl⟩

theorem setConfig_ok {f : Config → Config} :
    setConfig f env w = .ok u w' ↔ { w with config := f w.config } = w' := by
  simp only [setConfig, update_ok]

def SameConfig (w w' : World) : Prop := w'.config = w.config

instance : IsPreorder World SameConfig where
  refl _ := rfl
  trans _ _ _ h h' := Eq.trans h' h

structure SameStorage (w w' : World) : Prop where
  config : w'.config = w.config
  pause : w'.pause = w.pause
  book : w'.book = w.book

instance : IsPreorder World SameStorage where
  refl _ := ⟨rfl, rfl, rfl⟩
  trans _ _ _ h h' := ⟨h'.config.trans h.config, h'.pause.trans h.pause, h'.book.trans h.book⟩

theorem sameStorage_treasury : KeptByTreasury env SameStorage where
  cells _ := keeps_update fun _ => ⟨rfl, rfl, rfl⟩
  payout _ _ _ _ _ := ⟨rfl, rfl, rfl⟩

theorem sameStorage_beside : KeptBeside env SameStorage where
  audit _ := keeps_update fun _ => ⟨rfl, rfl, rfl⟩
  wasm _ _ := ⟨rfl, rfl, rfl⟩
  foreign _ := ⟨rfl, rfl, rfl⟩
  withdraw _ _ _ := withdrawTreasury_keeps sameStorage_treasury
  withdrawAll _ _ := withdrawAll_keeps sameStorage_treasury

theorem sameConfig_beside : KeptBeside env SameConfig where
  audit _ := keeps_update fun _ => rfl
  wasm _ _ := rfl
  foreign _ := rfl
  withdraw _ _ _ _ _ _ h := (sameStorage_beside.withdraw _ _ _ h).config
  withdrawAll _ _ _ _ _ h := (sameStorage_beside.withdrawAll _ _ h).config

/-- A call that writes neither cells nor rates leaves the configuration as it is. -/
theorem configCall_sameConfig {c : ConfigCall} (h : c.exec env w = .ok u w') (hcells : ¬c.SetsCells)
    (hrates : ¬c.SetsRates) : w'.config = w.config := by
  have hpause (f : PauseCells → PauseCells) : Keeps env SameConfig (setPause f) := keeps_update fun _ => rfl
  exact configCall_keeps sameConfig_beside (fun h => absurd h hcells) (fun _ => hpause) (fun h => absurd h hrates) h

theorem adminCell_ok {f : Config → Config} :
    (do Storage.checkAdmin; setConfig f : Contract host Unit) env w = .ok u w' ↔
      SignedByAdmin env w.config ∧ { w with config := f w.config } = w' := by
  simp only [bind_ok, checkAdmin_ok, setConfig_ok, and_assoc, exists_and_left, exists_eq_left', exists_const]

theorem signedCell_ok {f : Config → Config} {a : Address}
    (h : (do Storage.checkAdmin; requireAuth a; setConfig f : Contract host Unit) env w = .ok u w') :
    SignedByAdmin env w.config ∧ { w with config := f w.config } = w' := by
  simp only [bind_ok, checkAdmin_ok, requireAuth_ok, setConfig_ok, and_assoc, exists_and_left, exists_eq_left',
    exists_const] at h
  obtain ⟨hsigned, -, rfl⟩ := h
  exact ⟨hsigned, rfl⟩

open Contract in
/-- A successful configuration call was granted, and changes the configuration
as `apply` says. -/
theorem configCall_ok {c : ConfigCall} (h : c.exec env w = .ok u w') :
    c.Granted env w.config ∧ w'.config = c.apply env.now w.config := by
  cases c with
  | initializeContract admin version =>
      simp only [ConfigCall.exec, initializeContract, ask, bind_ok, read_ok, failIf_ok, Storage.readAdmin,
        Storage.writeAdmin, Storage.writeVersion, setConfig_ok, and_assoc, exists_and_left, exists_eq_left',
        exists_const] at h
      obtain ⟨hnone, rfl⟩ := h
      exact ⟨by simpa [ConfigCall.Granted] using hnone, rfl⟩
  | setAdmin newAdmin | setGuardian guardian | setGovernance governance | addFeeExempt addr
  | removeFeeExempt addr | setMaxStreams maxStreams | setSenderStreamLimit sender limit =>
      obtain ⟨hsigned, rfl⟩ := adminCell_ok.mp h
      exact ⟨hsigned, rfl⟩
  | setWithdrawalCooldown admin cooldownSeconds | setWhitelistEnabled admin enabled
  | addToWhitelist admin recipient | removeFromWhitelist admin recipient =>
      obtain ⟨hsigned, rfl⟩ := signedCell_ok h
      exact ⟨hsigned, rfl⟩
  | emergencyPause | emergencyResume =>
      obtain ⟨_, _, hadmin, -⟩ := bind_ok.mp h
      exact ⟨(checkAdmin_ok.mp hadmin).1, configCall_sameConfig h (fun h => h.1 trivial) fun h => h⟩
  | isPaused | pause guardian | unpause governance =>
      exact ⟨trivial, configCall_sameConfig h (fun h => h.1 trivial) fun h => h⟩
  | upgrade newWasmHash =>
      simp only [ConfigCall.exec, upgrade, ask, bind_ok, read_ok, okOr_ok, requireAuth_ok, update_ok,
        Storage.readAdmin, and_assoc, exists_and_left, exists_eq_left', exists_const] at h
      obtain ⟨a, ha, hauth, rfl⟩ := h
      exact ⟨⟨a, ha, hauth⟩, rfl⟩
  | migrate fromVersion toVersion =>
      simp only [ConfigCall.exec, migrate, ask, bind_ok, checkAdmin_ok, read_ok, failIf_ok, Storage.writeVersion,
        Storage.recordMigration, setConfig_ok, and_assoc, exists_and_left, exists_eq_left', exists_const] at h
      obtain ⟨hsigned, -, hrecord⟩ := h
      exact ⟨hsigned, recordAction_keeps sameConfig_beside.audit hrecord⟩
  | setMinDuration admin seconds =>
      simp only [ConfigCall.exec, setMinDuration, bind_ok, requireAuth_ok, Storage.writeMinDuration, setConfig_ok,
        and_assoc, exists_and_left, exists_eq_left', exists_const] at h
      obtain ⟨hauth, rfl⟩ := h
      exact ⟨hauth, rfl⟩
  | setProtocolFee feeBps =>
      simp only [ConfigCall.exec, setProtocolFee, bind_ok, failIf_ok, Storage.setProtocolFee, setConfig_ok, and_assoc,
        exists_and_left, exists_eq_left', exists_const] at h
      obtain ⟨-, rfl⟩ := h
      exact ⟨trivial, rfl⟩
  | proposeFeeChange admin newFeeBps =>
      simp only [ConfigCall.exec, proposeFeeChange, ask, timestamp, bind_ok, requireAuth_ok, read_ok, okOr_ok,
        failIf_ok, not_not, Storage.readAdmin, Storage.writePendingFeeProposal, setConfig_ok, and_assoc,
        exists_and_left, exists_eq_left', exists_const] at h
      obtain ⟨hauth, a, ha, rfl, -, rfl⟩ := h
      exact ⟨⟨ha, hauth⟩, rfl⟩
  | executeFeeChange =>
      simp only [ConfigCall.exec, executeFeeChange, ask, timestamp, bind_ok, read_ok, okOr_ok, failIf_ok, not_lt,
        Storage.readPendingFeeProposal, Storage.setProtocolFee, Storage.clearPendingFeeProposal, setConfig_ok,
        and_assoc, exists_and_left, exists_eq_left', exists_const] at h
      obtain ⟨⟨f, t⟩, hp, ht, rfl⟩ := h
      exact ⟨⟨f, t, hp, ht⟩, by simp [ConfigCall.apply, hp]⟩
  | setTreasuryAddress treasury =>
      simp only [ConfigCall.exec, setTreasuryAddress, Storage.setTreasury, setConfig_ok] at h
      subst h
      exact ⟨trivial, rfl⟩
  | setCreationFee fee xlmToken =>
      simp only [ConfigCall.exec, setCreationFee, bind_ok, checkAdmin_ok, failIf_ok, Storage.setCreationFeeXlm,
        Storage.setXlmToken, setConfig_ok, and_assoc, exists_and_left, exists_eq_left', exists_const] at h
      obtain ⟨hsigned, -, rfl⟩ := h
      exact ⟨hsigned, rfl⟩
  | withdrawTreasury token amount destination =>
      obtain ⟨_, _, hadmin, -⟩ := bind_ok.mp h
      exact ⟨(checkAdmin_ok.mp hadmin).1, configCall_sameConfig h (fun h => h) fun h => h⟩
  | withdrawAllFromTreasury token destination =>
      obtain ⟨_, _, hcall, -⟩ := bind_ok.mp h
      obtain ⟨_, _, hadmin, -⟩ := bind_ok.mp hcall
      exact ⟨(checkAdmin_ok.mp hadmin).1, configCall_sameConfig h (fun h => h) fun h => h⟩

theorem acts_sameConfig {made : List Stream} (h : Acts env made w w') : w'.config = w.config := by
  induction h with
  | refl _ => rfl
  | tail _ hstep ih =>
      obtain ⟨b, ts, w₁, -, hm, rfl⟩ := hstep
      exact hm.config.trans ih

theorem streamCall_sameConfig {c : StreamCall} {ids : List StreamId} (h : c.exec env w = .ok ids w') :
    w'.config = w.config := by
  obtain ⟨made, -, -, h | h⟩ := streamCall_acts h
  · exact acts_sameConfig h
  · exact (acts_sameConfig h).trans (awake_config w env.now)

end SoroStream
