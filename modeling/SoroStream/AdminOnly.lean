import SoroStream.Governance

namespace SoroStream

open Lib Lib.Rollback Lib.Rollback.Prog Lib.Runs

variable {host : Host} {env : Env host} {w w' : World} {c₀ c c' : Chain} {events : List (Event host)}

/-- A call leaves the configuration alone, or it is a granted configuration call. -/
theorem call_config (env : Env host) (w : World) (call : Call) :
    ((call.exec env w).commit w).config = w.config ∨
      ∃ k : ConfigCall, call = .config k ∧ k.Granted env w.config ∧
        ((call.exec env w).commit w).config = k.apply env.now w.config := by
  cases call with
  | stream k => exact .inl (Keeps.commit (R := SameConfig) (fun _ _ _ h => streamCall_sameConfig h) w)
  | view v =>
      refine .inl (Keeps.commit (R := SameConfig) (keeps_bind (fun w _ w' h => ?_) fun _ => keeps_pure) w)
      exact congrArg World.config (view_silent v h).symm
  | config k =>
      cases hx : k.exec env w with
      | ok u t =>
          obtain ⟨hgranted, happly⟩ := configCall_ok hx
          exact .inr ⟨k, rfl, hgranted, by simpa [Call.exec, bind_apply hx] using happly⟩
      | err e t => exact .inl (by simp [Call.exec, bind_err hx])
      | trap => exact .inl (by simp [Call.exec, bind, hx])

theorem step_config (c : Chain) (e : Event host) :
    (c.step e).world.config = c.world.config ∨
      ∃ env k, e = .call env (.config k) ∧ k.Granted env c.world.config ∧
        (c.step e).world.config = k.apply env.now c.world.config := by
  cases e with
  | call env call =>
      rcases call_config env c.world call with h | ⟨k, rfl, hgranted, happly⟩
      · exact .inl h
      · exact .inr ⟨env, k, rfl, hgranted, happly⟩
  | treasury env call => exact .inl ((treasuryCall_keeps sameStorage_treasury call).commit c.world).config
  | tokens time b => exact .inl rfl

def FeeProposed (c₀ : Chain) (events : List (Event host)) (feeBps unlockTime : Nat) : Prop :=
  ∃ before env admin f later, events = before ++ .call env (.config (.proposeFeeChange admin f)) :: later ∧
    (c₀.after before).world.config.admin = some admin ∧ env.auths admin = true ∧ f.val = feeBps ∧
    saturatingAddU64 env.now feeDelay = unlockTime

theorem FeeProposed.later {f t : Nat} (h : FeeProposed c₀ events f t) (e : Event host) :
    FeeProposed c₀ (events ++ [e]) f t := by
  obtain ⟨before, env, admin, fee, later, rfl, hadmin, hauth, hf, ht⟩ := h
  exact ⟨before, env, admin, fee, later ++ [e], by simp, hadmin, hauth, hf, ht⟩

/-- A call other than the two that handle proposals keeps the pending rate. -/
theorem apply_pendingFee (now : Nat) (c : Config) {k : ConfigCall} :
    (k.apply now c).pendingFee = c.pendingFee ∨ k = .executeFeeChange ∨
      ∃ admin f, k = .proposeFeeChange admin f := by
  cases k with
  | proposeFeeChange admin f => exact .inr (.inr ⟨admin, f, rfl⟩)
  | executeFeeChange => exact .inr (.inl rfl)
  | _ => exact .inl rfl

theorem pendingFee_proposed (hc₀ : Fresh host c₀) (hr : SystemRun host c₀ events c) {f t : Nat}
    (hp : c.world.config.pendingFee = some (f, t)) : FeeProposed c₀ events f t := by
  refine hr.trace_inv (fun es c => ∀ f t, c.world.config.pendingFee = some (f, t) → FeeProposed c₀ es f t)
    ?_ ?_ f t hp
  · intro f t hp
    simp [hc₀.config, Config.fresh] at hp
  · intro es c e hes ih _ f t hp
    rcases step_config c e with h | ⟨env, k, rfl, hgranted, happly⟩
    · exact (ih f t (h ▸ hp)).later e
    · rw [happly] at hp
      rcases apply_pendingFee env.now c.world.config (k := k) with h | rfl | ⟨admin, fee, rfl⟩
      · exact (ih f t (h ▸ hp)).later _
      · simp [ConfigCall.apply] at hp
      · obtain ⟨hadmin, hauth⟩ := hgranted
        have hstate : c₀.after es = c := hes.state_eq.symm
        simp only [ConfigCall.apply, Option.some.injEq, Prod.mk.injEq] at hp
        exact ⟨es, env, admin, fee, [], rfl, hstate ▸ hadmin, hauth, hp.1, hp.2⟩

/-- The calls that change a cell without the admin's consent: two ask nobody, and
`set_min_duration` asks the address it is given. -/
def Unguarded (env : Env host) (c : Config) : Call → Prop
  | .config (.setProtocolFee feeBps) => feeBps.val ≤ 10000 ∧ c.protocolFee ≠ some feeBps.val
  | .config (.setTreasuryAddress treasury) => c.treasury ≠ some treasury
  | .config (.setMinDuration admin seconds) => env.auths admin = true ∧ c.minDuration ≠ some seconds.val
  | _ => False

/-- The configuration stays, or `execute_fee_change` applies and clears a rate
that an admin proposed. -/
def Governed (c₀ : Chain) (events : List (Event host)) (env : Env host) (c : Chain) (call : Call) : Prop :=
  (c.step (.call env call)).world.config = c.world.config ∨
    call = .config .executeFeeChange ∧ ∃ f unlock, c.world.config.pendingFee = some (f, unlock) ∧
      FeeProposed c₀ events f unlock ∧
      (c.step (.call env call)).world.config = { c.world.config with protocolFee := some f, pendingFee := none }

theorem not_signedByAdmin {a : Address} {cfg : Config} (ha : cfg.admin = some a) (hauth : env.auths a = false) :
    ¬SignedByAdmin env cfg := by
  rintro ⟨b, hb, hsigned⟩
  obtain rfl := Option.some.inj (ha.symm.trans hb)
  exact Bool.noConfusion (hauth.symm.trans hsigned)

theorem setProtocolFee_step {f : U32} (hf : f.val ≤ 10000) :
    (c.step (.call env (.config (.setProtocolFee f)))).world.config =
      { c.world.config with protocolFee := some f.val } := by
  have hn : ¬10000 < f.val := not_lt.mpr hf
  simp [Chain.step, Call.exec, ConfigCall.exec, Contract.setProtocolFee, failIf, hn, bind, Storage.setProtocolFee,
    setConfig, update, pure]

theorem setTreasuryAddress_step {t : Address} :
    (c.step (.call env (.config (.setTreasuryAddress t)))).world.config =
      { c.world.config with treasury := some t } := rfl

theorem setMinDuration_step {a : Address} {seconds : U64} (ha : env.auths a = true) :
    (c.step (.call env (.config (.setMinDuration a seconds)))).world.config =
      { c.world.config with minDuration := some seconds.val } := by
  simp [Chain.step, Call.exec, ConfigCall.exec, Contract.setMinDuration, requireAuth, Prog.read, haltIf, ha, bind,
    Storage.writeMinDuration, setConfig, update, pure]

theorem unguarded_step {call : Call} (h : Unguarded env c.world.config call) :
    (c.step (.call env call)).world.config ≠ c.world.config ∧ call ≠ .config .executeFeeChange := by
  unfold Unguarded at h
  split at h
  · refine ⟨fun heq => h.2 ?_, by simp⟩
    rw [← heq, setProtocolFee_step h.1]
  · refine ⟨fun heq => h ?_, by simp⟩
    rw [← heq, setTreasuryAddress_step]
  · refine ⟨fun heq => h.2 ?_, by simp⟩
    rw [← heq, setMinDuration_step h.1]
  · exact h.elim

/-- Without the admin's signature a call is governed exactly when it is none of
the three unguarded setters at work. -/
theorem governed_iff (env : Env host) (hc₀ : Fresh host c₀) (hr : SystemRun host c₀ events c) {admin : Address}
    (hadmin : c.world.config.admin = some admin) (hauth : env.auths admin = false) (call : Call) :
    Governed c₀ events env c call ↔ ¬Unguarded env c.world.config call := by
  constructor
  · rintro (hsame | ⟨rfl, -⟩) hun
    · exact (unguarded_step hun).1 hsame
    · exact hun
  · intro hun
    rcases call_config env c.world call with h | ⟨k, rfl, hgranted, happly⟩
    · exact .inl h
    · have hsigned := not_signedByAdmin hadmin hauth
      cases k with
      | initializeContract a version => exact absurd (hadmin.symm.trans hgranted) (by simp)
      | isPaused | pause guardian | unpause governance => exact .inl happly
      | setProtocolFee f =>
          by_cases hf : f.val ≤ 10000
          · refine .inl (happly.trans ?_)
            have hcell : c.world.config.protocolFee = some f.val := not_not.mp fun hne => hun ⟨hf, hne⟩
            simp only [ConfigCall.apply, ← hcell]
          · refine .inl ?_
            simp [Chain.step, Call.exec, ConfigCall.exec, Contract.setProtocolFee, failIf, not_le.mp hf, bind, fail]
      | setTreasuryAddress t =>
          have hcell : c.world.config.treasury = some t := not_not.mp hun
          exact .inl (happly.trans (by simp only [ConfigCall.apply, ← hcell]))
      | setMinDuration a seconds =>
          have hcell : c.world.config.minDuration = some seconds.val :=
            not_not.mp fun hne => hun ⟨hgranted, hne⟩
          exact .inl (happly.trans (by simp only [ConfigCall.apply, ← hcell]))
      | proposeFeeChange a f =>
          obtain rfl := Option.some.inj (hadmin.symm.trans hgranted.1)
          exact Bool.noConfusion (hauth.symm.trans hgranted.2)
      | executeFeeChange =>
          obtain ⟨f, t, hp, -⟩ := hgranted
          refine .inr ⟨rfl, f, t, hp, pendingFee_proposed hc₀ hr hp, happly.trans ?_⟩
          simp only [ConfigCall.apply, hp, Option.map_some]
      | _ => exact absurd hgranted hsigned

namespace Sample

def founded : List (Event site) := [configure [4] 1 (.initializeContract (party 4) "1.0.0")]

end Sample

/-- With party 4 as admin, anyone at all sets the fee rate and the treasury, and
party 5 sets the minimum duration in its own name. -/
theorem stranger_reconfigures :
    Reached Sample.site (Sample.genesis.after Sample.founded) ∧
    (Sample.genesis.after Sample.founded).world.config.admin = some (Sample.party 4) ∧
    (Sample.signed [5] 2).auths (Sample.party 4) = false ∧
    ¬Governed Sample.genesis Sample.founded (Sample.signed [5] 2) (Sample.genesis.after Sample.founded)
      (.config (.setProtocolFee 10000)) ∧
    ¬Governed Sample.genesis Sample.founded (Sample.signed [5] 2) (Sample.genesis.after Sample.founded)
      (.config (.setTreasuryAddress (Sample.party 5))) ∧
    ¬Governed Sample.genesis Sample.founded (Sample.signed [5] 2) (Sample.genesis.after Sample.founded)
      (.config (.setMinDuration (Sample.party 5) 0)) := by
  refine ⟨reached_after Sample.genesis_fresh (by decide), rfl, by decide, ?_, ?_, ?_⟩
  · rintro (hsame | ⟨hcall, -⟩)
    · have hcell := congrArg Config.protocolFee hsame
      exact absurd hcell (by decide)
    · simp at hcall
  · rintro (hsame | ⟨hcall, -⟩)
    · have hcell := congrArg Config.treasury hsame
      exact absurd hcell (by decide)
    · simp at hcall
  · rintro (hsame | ⟨hcall, -⟩)
    · have hcell := congrArg Config.minDuration hsame
      exact absurd hcell (by decide)
    · simp at hcall

theorem sample_governed_iff :
    Governed Sample.genesis Sample.founded (Sample.signed [5] 2) (Sample.genesis.after Sample.founded)
        (.config (.setAdmin (Sample.party 5))) ↔
      ¬Unguarded (Sample.signed [5] 2) (Sample.genesis.after Sample.founded).world.config
        (.config (.setAdmin (Sample.party 5))) :=
  governed_iff (Sample.signed [5] 2) Sample.genesis_fresh (run_of_inOrder (by decide)) rfl (by decide) _

end SoroStream
