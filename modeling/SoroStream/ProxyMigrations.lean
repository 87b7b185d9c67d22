import SoroStream.AdminOnly
import SoroStream.ProxyUpgrades

namespace SoroStream

open Lib Lib.Rollback Lib.Rollback.Prog Lib.Runs

theorem migrate_ok {host : Host} {env : Env host} {w w' : World} {u : Unit} {fromVersion toVersion : String}
    (h : Contract.migrate fromVersion toVersion env w = .ok u w') :
    SignedByAdmin env w.config ∧ toVersion ∉ Storage.readAppliedMigrations w ∧
      w'.config = (ConfigCall.migrate fromVersion toVersion).apply env.now w.config := by
  obtain ⟨hsigned, happly⟩ := configCall_ok (c := .migrate fromVersion toVersion) h
  refine ⟨hsigned, ?_, happly⟩
  simp only [Contract.migrate, ask, bind_ok, checkAdmin_ok, read_ok, failIf_ok, and_assoc, exists_and_left,
    exists_eq_left', exists_const] at h
  obtain ⟨-, hnew, -⟩ := h
  exact hnew

/-- The calls that ask for the admin's signature, or that there be no admin yet. -/
def ConfigCall.AsksAdmin : ConfigCall → Prop
  | .isPaused | .pause _ | .unpause _ | .setMinDuration _ _ | .setProtocolFee _ | .executeFeeChange
  | .setTreasuryAddress _ => False
  | _ => True

namespace ProxyContract

variable {site : ProxyHost} {s s₀ s' : State} {e : Event site} {events : List (Event site)}

def State.migrations (s : State) : Event site → List String
  | .beside (.call env (.config (.migrate fromVersion toVersion))) =>
      if (Contract.migrate fromVersion toVersion env s.chain.world).value?.isSome then [toVersion] else []
  | .proxy env (.migrate implContract fromVersion toVersion) =>
      if implContract = site.contract ∧
          ((Call.migrate implContract fromVersion toVersion).exec env s.ledger).value?.isSome then [toVersion]
      else []
  | _ => []

abbrev migrated (s : State) (events : List (Event site)) : List String :=
  outputs State.step State.migrations s events

/-- What the event makes of the configuration of the stream contract: nothing, what a
granted call other than `migrate` makes of it, or one new migration. -/
inductive Configured (s s' : State) : Event site → List String → Prop
  | same (e : Event site) (hsame : s'.chain.world.config = s.chain.world.config) : Configured s s' e []
  | called (env : Env site.toHost) (k : ConfigCall) (hk : ∀ f t, k ≠ .migrate f t)
      (hgranted : k.Granted env s.chain.world.config)
      (happly : s'.chain.world.config = k.apply env.now s.chain.world.config) :
      Configured s s' (.beside (.call env (.config k))) []
  | migrated (e : Event site) (env : Env site.toHost) (fromVersion toVersion : String)
      (hby : e = .beside (.call env (.config (.migrate fromVersion toVersion))) ∨
        ∃ env' a, e = .proxy env' (.migrate site.contract fromVersion toVersion) ∧ env = invoking env' ∧
          SignedByAdmin env' s.cells a)
      (hsigned : SoroStream.SignedByAdmin env s.chain.world.config)
      (hnew : toVersion ∉ Storage.readAppliedMigrations s.chain.world)
      (happly : s'.chain.world.config =
        (ConfigCall.migrate fromVersion toVersion).apply env.now s.chain.world.config) :
      Configured s s' e [toVersion]

theorem step_configured (s : State) (e : Event site) : Configured s (s.step e) e (s.migrations e) := by
  cases e with
  | beside e =>
      by_cases hmig : ∃ env f t, e = .call env (.config (.migrate f t))
      · obtain ⟨env, f, t, rfl⟩ := hmig
        have hstep : (s.step (.beside (.call env (.config (.migrate f t))))).chain.world =
            ((do Contract.migrate f t; pure [] : Contract site.toHost (List StreamId)) env s.chain.world).commit
              s.chain.world := rfl
        cases hx : Contract.migrate f t env s.chain.world with
        | ok u w' =>
            rw [bind_apply hx] at hstep
            obtain ⟨hsigned, hnew, happly⟩ := migrate_ok hx
            simp only [State.migrations, hx, Outcome.value?, Option.isSome_some, if_true]
            exact .migrated _ env f t (.inl rfl) hsigned hnew (hstep ▸ happly)
        | err e' w' =>
            rw [bind_err hx] at hstep
            simp only [State.migrations, hx, Outcome.value?]
            exact .same _ (by rw [hstep]; rfl)
        | trap =>
            simp only [bind, hx] at hstep
            simp only [State.migrations, hx, Outcome.value?]
            exact .same _ (by rw [hstep]; rfl)
      · have hnone : s.migrations (.beside e) = [] := by
          unfold State.migrations
          split
          · next env f t heq => exact absurd ⟨env, f, t, Event.beside.inj heq⟩ hmig
          · next heq => cases heq
          · rfl
        rw [hnone]
        rcases step_config s.chain e with hsame | ⟨env, k, rfl, hgranted, happly⟩
        · exact .same _ hsame
        · refine .called env k ?_ hgranted happly
          rintro f t rfl
          exact hmig ⟨env, f, t, rfl⟩
  | proxy env c =>
      rcases proxy_step s env c with ⟨hnone, hstep⟩ | ⟨cells, w, es, hsome, hdoes, hstep⟩
      · have hmigs : s.migrations (.proxy env c) = [] := by
          unfold State.migrations
          split
          · next heq => cases heq
          · next env' a f t heq =>
              obtain ⟨rfl, rfl⟩ := Event.proxy.inj heq
              simp [hnone]
          · rfl
        rw [hmigs]
        exact .same _ (by rw [hstep])
      · rw [hstep]
        cases hdoes with
        | forwarded a f t w hsigned hrun =>
            obtain ⟨hgranted, hnew, happly⟩ := migrate_ok hrun
            simp only [State.migrations, hsome, Option.isSome_some, and_self, if_true]
            exact .migrated _ (invoking env) f t (.inr ⟨env, a, rfl, rfl, hsigned⟩) hgranted hnew happly
        | elsewhere a implContract f t b hsigned hne =>
            simp only [State.migrations, hne, false_and, if_false]
            exact .same _ rfl
        | looked c hc =>
            rcases hc with rfl | rfl | rfl <;> exact .same _ rfl
        | founded | handedOver | upgraded | replaced => exact .same _ rfl

structure Kept (ms : List String) (c : Config) : Prop where
  applied : c.appliedMigrations.getD [] = ms
  admin : ms ≠ [] → c.admin ≠ none
  version : ms ≠ [] → c.version = ms.getLast?

theorem apply_migrations (now : Nat) (c : Config) {k : ConfigCall} (hk : ∀ f t, k ≠ .migrate f t) :
    (k.apply now c).appliedMigrations = c.appliedMigrations ∧
      ((k.apply now c).version = c.version ∨ ∃ admin version, k = .initializeContract admin version) ∧
      (c.admin ≠ none → (k.apply now c).admin ≠ none) := by
  cases k with
  | migrate f t => exact absurd rfl (hk f t)
  | initializeContract admin version => exact ⟨rfl, .inr ⟨admin, version, rfl⟩, by simp [ConfigCall.apply]⟩
  | setAdmin newAdmin => exact ⟨rfl, .inl rfl, by simp [ConfigCall.apply]⟩
  | _ => exact ⟨rfl, .inl rfl, id⟩

theorem Kept.step {ms : List String} (h : Kept ms s.chain.world.config) (e : Event site) :
    Kept (ms ++ s.migrations e) (s.step e).chain.world.config := by
  have hconf := step_configured s e
  generalize s.migrations e = out at hconf ⊢
  cases hconf with
  | same e hsame =>
      rw [List.append_nil, hsame]
      exact h
  | called env k hk hgranted happly =>
      obtain ⟨happlied, hversion, hadmin⟩ := apply_migrations env.now s.chain.world.config hk
      rw [List.append_nil, happly]
      refine ⟨by rw [happlied, h.applied], fun hne => hadmin (h.admin hne), fun hne => ?_⟩
      rcases hversion with hversion | ⟨admin, version, rfl⟩
      · rw [hversion, h.version hne]
      · exact absurd hgranted (h.admin hne)
  | migrated e env f t hby hsigned hnew happly =>
      rw [happly]
      obtain ⟨a, ha, -⟩ := hsigned
      refine ⟨by simp [ConfigCall.apply, h.applied], ?_, ?_⟩
      · rintro -
        exact ha ▸ Option.some_ne_none a
      · rintro -
        simp [ConfigCall.apply]

/-- Each migration is applied once. Over every run, with `migrate` called directly or through
the proxy in any order: the versions migrated to are pairwise distinct, they are the stored
list in its order, and the contract tells the last of them as its version. -/
theorem migrations_once (hfresh : Fresh site.toHost s₀.chain) (hrun : SiteRun site s₀ events s) :
    (migrated s₀ events).Nodup ∧ Storage.readAppliedMigrations s.chain.world = migrated s₀ events ∧
      (migrated s₀ events ≠ [] → s.chain.world.config.version = (migrated s₀ events).getLast?) := by
  have hkept : Kept (migrated s₀ events) s.chain.world.config := by
    refine hrun.trace_inv (fun es s => Kept (migrated s₀ es) s.chain.world.config) ?_ ?_
    · rw [hfresh.config]
      exact ⟨rfl, fun hne => absurd rfl hne, fun hne => absurd rfl hne⟩
    · intro es s e hes ih _
      rw [migrated, hes.outputs_snoc]
      exact ih.step e
  refine ⟨?_, hkept.applied, hkept.version⟩
  refine (hrun.remembered (fun s t => t ∈ Storage.readAppliedMigrations s.chain.world) ?_ ?_).1
  · intro t
    simp [Storage.readAppliedMigrations, hfresh.config, Config.fresh]
  · intro s e _
    have hconf := step_configured s e
    generalize s.migrations e = out at hconf ⊢
    cases hconf with
    | same e hsame => simp [Storage.readAppliedMigrations, hsame]
    | called env k hk hgranted happly =>
        simp [Storage.readAppliedMigrations, happly, (apply_migrations env.now s.chain.world.config hk).1]
    | migrated e env f t hby hsigned hnew happly =>
        refine ⟨List.nodup_singleton t, by simpa using hnew, ?_⟩
        simp [Storage.readAppliedMigrations, happly, ConfigCall.apply]

/-- What the admin guards, and the proposal of a fee rate, which anyone may carry out when
its time has come. -/
structure Frozen (c c' : Config) : Prop where
  admin : c'.admin = c.admin
  guardian : c'.guardian = c.guardian
  governance : c'.governance = c.governance
  pendingFee : c'.pendingFee = c.pendingFee ∨ c'.pendingFee = none
  maxStreams : c'.maxStreams = c.maxStreams
  senderLimit : c'.senderLimit = c.senderLimit
  withdrawalCooldown : c'.withdrawalCooldown = c.withdrawalCooldown
  whitelistEnabled : c'.whitelistEnabled = c.whitelistEnabled
  whitelist : c'.whitelist = c.whitelist
  feeExempt : c'.feeExempt = c.feeExempt
  creationFeeXlm : c'.creationFeeXlm = c.creationFeeXlm
  xlmToken : c'.xlmToken = c.xlmToken

theorem Frozen.refl (c : Config) : Frozen c c := ⟨rfl, rfl, rfl, .inl rfl, rfl, rfl, rfl, rfl, rfl, rfl, rfl, rfl⟩

theorem Frozen.trans {c c' c'' : Config} (h : Frozen c c') (h' : Frozen c' c'') : Frozen c c'' where
  admin := h'.admin.trans h.admin
  guardian := h'.guardian.trans h.guardian
  governance := h'.governance.trans h.governance
  pendingFee := by
    rcases h'.pendingFee with heq | hnone
    · rw [heq]
      exact h.pendingFee
    · exact .inr hnone
  maxStreams := h'.maxStreams.trans h.maxStreams
  senderLimit := h'.senderLimit.trans h.senderLimit
  withdrawalCooldown := h'.withdrawalCooldown.trans h.withdrawalCooldown
  whitelistEnabled := h'.whitelistEnabled.trans h.whitelistEnabled
  whitelist := h'.whitelist.trans h.whitelist
  feeExempt := h'.feeExempt.trans h.feeExempt
  creationFeeXlm := h'.creationFeeXlm.trans h.creationFeeXlm
  xlmToken := h'.xlmToken.trans h.xlmToken

/-- Without the signature of the admin a call of those that ask for it is refused. -/
theorem not_granted {host : Host} {env : Env host} {c : Config} {admin : Address} {k : ConfigCall}
    (hadmin : c.admin = some admin) (hauth : env.auths admin = false) (hk : k.AsksAdmin) : ¬k.Granted env c := by
  intro hgranted
  have hsigned := not_signedByAdmin hadmin hauth
  cases k with
  | initializeContract a version => exact absurd (hadmin.symm.trans hgranted) (Option.some_ne_none admin)
  | proposeFeeChange a f => exact hsigned ⟨a, hgranted⟩
  | isPaused | pause | unpause | setMinDuration | setProtocolFee | executeFeeChange | setTreasuryAddress => exact hk
  | _ => exact hsigned hgranted

/-- The others leave what the admin guards, and the version. -/
theorem apply_frozen (now : Nat) (c : Config) {k : ConfigCall} (hk : ¬k.AsksAdmin) :
    Frozen c (k.apply now c) ∧ (k.apply now c).version = c.version ∧
      (k.apply now c).appliedMigrations = c.appliedMigrations := by
  cases k with
  | isPaused | pause | unpause | setMinDuration | setProtocolFee | setTreasuryAddress =>
      exact ⟨⟨rfl, rfl, rfl, .inl rfl, rfl, rfl, rfl, rfl, rfl, rfl, rfl, rfl⟩, rfl, rfl⟩
  | executeFeeChange => exact ⟨⟨rfl, rfl, rfl, .inr rfl, rfl, rfl, rfl, rfl, rfl, rfl, rfl, rfl⟩, rfl, rfl⟩
  | _ => exact absurd trivial hk

theorem migrate_frozen (now : Nat) (c : Config) (fromVersion toVersion : String) :
    Frozen c ((ConfigCall.migrate fromVersion toVersion).apply now c) :=
  ⟨rfl, rfl, rfl, .inl rfl, rfl, rfl, rfl, rfl, rfl, rfl, rfl, rfl⟩

def Refused (s : State) : Event site → Prop
  | .beside (.call env (.config k)) => k.AsksAdmin → ∀ u w, k.exec env s.chain.world ≠ .ok u w
  | _ => True

/-- What is migrated is migrated through the proxy, and its admin signs. -/
def ByProxyAdmin (s : State) (e : Event site) : Prop :=
  s.migrations e ≠ [] → ∃ env a f t, e = .proxy env (.migrate site.contract f t) ∧ SignedByAdmin env s.cells a

theorem proxied_refused (hadmin : s.chain.world.config.admin = some site.proxy) (hmay : Allowed s e) : Refused s e := by
  unfold Refused
  split
  · intro hk u w hok
    exact not_granted hadmin hmay.2 hk (configCall_ok hok).1
  · trivial

/-- One event, where the proxy is the stream contract's admin. -/
theorem proxied_step (hadmin : s.chain.world.config.admin = some site.proxy) (hmay : Allowed s e) :
    Frozen s.chain.world.config (s.step e).chain.world.config ∧ ByProxyAdmin s e ∧
      Storage.readAppliedMigrations (s.step e).chain.world =
        Storage.readAppliedMigrations s.chain.world ++ s.migrations e ∧
      (s.migrations e = [] → (s.step e).chain.world.config.version = s.chain.world.config.version) := by
  have hconf := step_configured s e
  unfold ByProxyAdmin
  generalize s.migrations e = out at hconf ⊢
  cases hconf with
  | same e hsame =>
      refine ⟨hsame ▸ .refl _, fun hne => absurd rfl hne, ?_, fun _ => by rw [hsame]⟩
      simp [Storage.readAppliedMigrations, hsame]
  | called env k hk hgranted happly =>
      have hopen : ¬k.AsksAdmin := fun hasks => not_granted hadmin hmay.2 hasks hgranted
      obtain ⟨hfrozen, hversion, happlied⟩ := apply_frozen env.now s.chain.world.config hopen
      refine ⟨happly ▸ hfrozen, fun hne => absurd rfl hne, ?_, fun _ => by rw [happly, hversion]⟩
      simp [Storage.readAppliedMigrations, happly, happlied]
  | migrated e env f t hby hsigned hnew happly =>
      refine ⟨happly ▸ migrate_frozen env.now _ f t, ?_, ?_, by simp⟩
      · rintro -
        rcases hby with rfl | ⟨env', a, rfl, -, hby⟩
        · exact absurd hsigned (not_signedByAdmin hadmin hmay.2)
        · exact ⟨env', a, f, t, rfl, hby⟩
      · simp [Storage.readAppliedMigrations, happly, ConfigCall.apply]

/-- A stream contract that has the proxy for its admin is out of everybody's hands but for
migrations. In every run from such a state the proxy stays the admin and nothing that the
admin guards changes; every direct call that asks for the admin fails, `set_admin`, `upgrade`
and the emergency pause among them; and the versions change by the migrations that the
proxy's own admin signs and the proxy forwards. -/
theorem proxied_admin_fixed (hrun : SiteRun site s events s')
    (hadmin : s.chain.world.config.admin = some site.proxy) :
    Frozen s.chain.world.config s'.chain.world.config ∧
      Throughout State.step (fun s e => Refused s e ∧ ByProxyAdmin s e) s events ∧
      Storage.readAppliedMigrations s'.chain.world =
        Storage.readAppliedMigrations s.chain.world ++ migrated s events ∧
      (migrated s events = [] → s'.chain.world.config.version = s.chain.world.config.version) := by
  refine hrun.trace_inv (fun es s' => Frozen s.chain.world.config s'.chain.world.config ∧
    Throughout State.step (fun s e => Refused s e ∧ ByProxyAdmin s e) s es ∧
    Storage.readAppliedMigrations s'.chain.world = Storage.readAppliedMigrations s.chain.world ++ migrated s es ∧
    (migrated s es = [] → s'.chain.world.config.version = s.chain.world.config.version)) ?_ ?_
  · exact ⟨.refl _, trivial, (List.append_nil _).symm, fun _ => rfl⟩
  · rintro es t e hes ⟨hfrozen, hall, happlied, hversion⟩ hmay
    have hproxy : t.chain.world.config.admin = some site.proxy := hfrozen.admin.trans hadmin
    obtain ⟨hnext, hby, hmore, hsame⟩ := proxied_step hproxy hmay
    refine ⟨hfrozen.trans hnext, ?_, ?_, ?_⟩
    · exact (hes.throughout_snoc e).mpr ⟨hall, proxied_refused hproxy hmay, hby⟩
    · rw [hmore, happlied, migrated, migrated, hes.outputs_snoc, List.append_assoc]
    · rw [migrated, hes.outputs_snoc, List.append_eq_nil_iff]
      rintro ⟨hnone, hlast⟩
      exact (hsame hlast).trans (hversion hnone)

end ProxyContract

namespace Sample

open ProxyContract

/-- The stream contract is founded and migrated by party 4, who then makes the proxy its
admin; the proxy's admin, party 2, migrates it once more. -/
def passingUp : List (ProxyContract.Event proxySite) :=
  [founding,
    .beside (.call (proxySigned [4] 2).toEnv (.config (.initializeContract (party 4) "1.0.0"))),
    .beside (.call (proxySigned [4] 3).toEnv (.config (.migrate "1.0.0" "1.1.0"))),
    .beside (.call (proxySigned [4] 4).toEnv (.config (.setAdmin (party 7))))]

def proxied : List (ProxyContract.Event proxySite) :=
  [.beside (.call (proxySigned [4] 5).toEnv (.config (.setAdmin (party 4)))),
    proxyCall [2] 6 (.migrate (party 0) "1.1.0" "2.0.0"), proxyCall [2] 7 (.migrate (party 0) "1.1.0" "2.0.0")]

theorem sample_migrations_once :
    (migrated unproxied (passingUp ++ proxied)).Nodup ∧
      migrated unproxied (passingUp ++ proxied) = ["1.1.0", "2.0.0"] :=
  have hrun : SiteRun proxySite unproxied (passingUp ++ proxied) (unproxied.after (passingUp ++ proxied)) :=
    run_of_orderly (by decide +kernel)
  ⟨(migrations_once genesis_fresh hrun).1, by decide +kernel⟩

theorem sample_proxied_admin_fixed :
    Frozen (unproxied.after passingUp).chain.world.config
        ((unproxied.after passingUp).after proxied).chain.world.config ∧
      Storage.readAppliedMigrations ((unproxied.after passingUp).after proxied).chain.world = ["1.1.0", "2.0.0"] :=
  have hrun : SiteRun proxySite (unproxied.after passingUp) proxied ((unproxied.after passingUp).after proxied) :=
    run_of_orderly (by decide +kernel)
  ⟨(proxied_admin_fixed hrun (by decide +kernel)).1, by decide +kernel⟩

end Sample

end SoroStream
