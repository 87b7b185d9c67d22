import SoroStream.AdminOnly

namespace SoroStream

open Lib Lib.Rollback Lib.Rollback.Prog Lib.Runs

variable {host : Host} {env : Env host} {c c₀ : Chain} {e : Event host} {events : List (Event host)}
  {k : ConfigCall} {f t : Nat}

theorem step_feeBounded (hmay : May c e) (h : FeeBounded c.world.config) : FeeBounded (c.step e).world.config := by
  rcases step_cases hmay with ⟨-, haside⟩ | ⟨env, k, _, _, rfl, hok, -, -, -, -⟩
  · exact haside.fees h
  · rwa [streamCall_sameConfig hok]

theorem run_feeBounded (hfresh : Fresh host c₀) (hrun : SystemRun host c₀ events c) : FeeBounded c.world.config := by
  refine hrun.inv (fun c => FeeBounded c.world.config) ?_ fun c e h hmay => step_feeBounded hmay h
  rw [hfresh.config]
  exact ⟨fun f hf => absurd hf (by simp [Config.fresh]), fun f t hf => absurd hf (by simp [Config.fresh])⟩

def Chain.Succeeds (c : Chain) (env : Env host) (k : ConfigCall) : Prop := (k.exec env c.world).value?.isSome = true

theorem Chain.Succeeds.config (h : c.Succeeds env k) : k.Granted env c.world.config ∧
    (c.step (.call env (.config k))).world.config = k.apply env.now c.world.config := by
  obtain ⟨u, hu⟩ := Option.isSome_iff_exists.mp h
  obtain ⟨w', hok⟩ := Outcome.value?_eq_some.mp hu
  obtain ⟨hgranted, happly⟩ := configCall_ok hok
  refine ⟨hgranted, ?_⟩
  simpa [Chain.step, Call.exec, bind_apply hok] using happly

def ConfigCall.handlesProposal : ConfigCall → Bool
  | .proposeFeeChange _ _ | .executeFeeChange => true
  | _ => false

def Chain.Handles (c : Chain) : Event host → Prop
  | .call env (.config k) => k.handlesProposal = true ∧ c.Succeeds env k
  | _ => False

def Event.SetsFee : Event host → Prop
  | .call _ (.config (.setProtocolFee _)) => True
  | _ => False

theorem Chain.Handles.cases (h : c.Handles e) :
    (∃ env admin f, e = .call env (.config (.proposeFeeChange admin f)) ∧
        c.Succeeds env (.proposeFeeChange admin f)) ∨
      ∃ env, e = .call env (.config .executeFeeChange) ∧ c.Succeeds env .executeFeeChange := by
  cases e with
  | treasury => exact h.elim
  | tokens => exact h.elim
  | call env call =>
      cases call with
      | stream => exact h.elim
      | view => exact h.elim
      | config k =>
          obtain ⟨hk, hok⟩ := h
          cases k with
          | proposeFeeChange admin f => exact .inl ⟨env, admin, f, rfl, hok⟩
          | executeFeeChange => exact .inr ⟨env, rfl, hok⟩
          | _ => exact Bool.noConfusion hk

theorem step_sameFees (hhandles : ¬c.Handles e) (hsets : ¬e.SetsFee) :
    (c.step e).world.config.protocolFee = c.world.config.protocolFee ∧
      (c.step e).world.config.pendingFee = c.world.config.pendingFee := by
  have hsame : (c.step e).world.config = c.world.config →
      (c.step e).world.config.protocolFee = c.world.config.protocolFee ∧
        (c.step e).world.config.pendingFee = c.world.config.pendingFee := fun h => by rw [h]; exact ⟨rfl, rfl⟩
  rcases step_config c e with h | ⟨env, k, rfl, -, happly⟩
  · exact hsame h
  · cases hx : k.exec env c.world with
    | err e v => exact hsame (by simp [Chain.step, Call.exec, bind_err hx])
    | trap => exact hsame (by simp [Chain.step, Call.exec, bind, hx])
    | ok u v =>
        have hok : c.Succeeds env k := by simp [Chain.Succeeds, hx, Outcome.value?]
        rw [happly]
        cases k with
        | proposeFeeChange | executeFeeChange => exact absurd ⟨rfl, hok⟩ hhandles
        | setProtocolFee => exact absurd trivial hsets
        | _ => exact ⟨rfl, rfl⟩

/-- A successful proposal of rate `f` at time `t`, signed by the admin of that moment. -/
def Chain.Proposes (c : Chain) (f t : Nat) (e : Event host) : Prop :=
  ∃ env admin fee, e = .call env (.config (.proposeFeeChange admin fee)) ∧
    c.Succeeds env (.proposeFeeChange admin fee) ∧ c.world.config.admin = some admin ∧ env.auths admin = true ∧
      fee.val = f ∧ env.now = t

/-- The last successful proposal of the run, since then neither replaced nor executed. -/
abbrev Outstanding (c₀ : Chain) (events : List (Event host)) (f t : Nat) : Prop :=
  Since Chain.step (fun c e => Chain.Proposes c f t e) (fun c e => ¬Chain.Handles c e) c₀ events

/-- The pending slot holds the outstanding proposal and the end of its wait. -/
theorem pendingFee_outstanding (hfresh : Fresh host c₀) (hrun : SystemRun host c₀ events c)
    (hsets : ∀ e ∈ events, ¬e.SetsFee) {unlock : Nat} (hp : c.world.config.pendingFee = some (f, unlock)) :
    ∃ t, Outstanding c₀ events f t ∧ unlock = saturatingAddU64 t feeDelay := by
  have hboth : Run (fun c e => May c e ∧ ¬e.SetsFee) Chain.step c₀ events c :=
    hrun.restrict fun es e es' heq hmay => ⟨hmay, hsets e (by simp [heq])⟩
  refine hboth.trace_inv (fun es c => ∀ f unlock, c.world.config.pendingFee = some (f, unlock) →
    ∃ t, Outstanding c₀ es f t ∧ unlock = saturatingAddU64 t feeDelay) ?_ ?_ f unlock hp
  · intro f unlock hp
    simp [hfresh.config, Config.fresh] at hp
  · intro es c e hes ih hmay f unlock hp
    have hstate : es.foldl Chain.step c₀ = c := hes.state_eq.symm
    by_cases hhandles : c.Handles e
    · rcases hhandles.cases with ⟨env, admin, fee, rfl, hok⟩ | ⟨env, rfl, hok⟩
      · obtain ⟨⟨hadmin, hauth⟩, happly⟩ := hok.config
        rw [happly] at hp
        simp only [ConfigCall.apply, Option.some.injEq, Prod.mk.injEq] at hp
        refine ⟨env.now, (since_snoc c₀ es _).mpr (.inl ?_), hp.2.symm⟩
        rw [hstate]
        exact ⟨env, admin, fee, rfl, hok, hadmin, hauth, hp.1, rfl⟩
      · rw [hok.config.2] at hp
        simp [ConfigCall.apply] at hp
    · rw [(step_sameFees hhandles hmay.2).2] at hp
      obtain ⟨t, hout, hunlock⟩ := ih f unlock hp
      refine ⟨t, (since_snoc c₀ es e).mpr (.inr ⟨hout, ?_⟩), hunlock⟩
      rwa [hstate]

theorem Outstanding.time (h : Outstanding c₀ events f t) : ∃ e ∈ events, e.time = t := by
  obtain ⟨before, e, later, rfl, ⟨env, admin, fee, rfl, -, -, -, -, ht⟩, -⟩ := h
  exact ⟨.call env (.config (.proposeFeeChange admin fee)), by simp, ht⟩

/-- The fee rates are bounded in every state reached. In a run that never sets the
rate directly, it changes only when `execute_fee_change` puts the outstanding proposal
into force, seven days or more after it was made. -/
theorem fee_timelock (hfresh : Fresh host c₀) (hrun : SystemRun host c₀ events c) :
    FeeBounded c.world.config ∧
    ((∀ e ∈ events, ¬e.SetsFee) → (∀ e ∈ events, e.time + feeDelay ≤ u64Max) →
      ∀ e : Event host, May c e → ¬e.SetsFee → (c.step e).world.config.protocolFee ≠ c.world.config.protocolFee →
        ∃ env f t, e = .call env (.config .executeFeeChange) ∧ (c.step e).world.config.protocolFee = some f ∧
          Outstanding c₀ events f t ∧ t + feeDelay ≤ env.now) := by
  refine ⟨run_feeBounded hfresh hrun, ?_⟩
  intro hsets htimes e _ hset hchange
  have hhandles : c.Handles e := by
    by_contra hno
    exact hchange (step_sameFees hno hset).1
  rcases hhandles.cases with ⟨env, admin, fee, rfl, hok⟩ | ⟨env, rfl, hok⟩
  · rw [hok.config.2] at hchange
    simp only [ConfigCall.apply, ne_eq, not_true_eq_false] at hchange
  · obtain ⟨⟨f, unlock, hp, hready⟩, happly⟩ := hok.config
    obtain ⟨t, hout, hunlock⟩ := pendingFee_outstanding hfresh hrun hsets hp
    obtain ⟨e', he', htime⟩ := hout.time
    have hexact : saturatingAddU64 t feeDelay = t + feeDelay :=
      Checked.satAddNat_of_le (htime ▸ htimes e' he')
    refine ⟨env, f, t, rfl, ?_, hout, hexact ▸ hunlock ▸ hready⟩
    rw [happly]
    simp [ConfigCall.apply, hp]

namespace Sample

def repricing : List (Event site) :=
  [configure [4] 1 (.initializeContract (party 4) "1.0.0"), configure [4] 10 (.proposeFeeChange (party 4) 300),
    configure [4] 20 (.proposeFeeChange (party 4) 500)]

def execution : Event site := configure [] 604820 .executeFeeChange

end Sample

theorem sample_fee_timelock : ∃ env f t, Sample.execution = .call env (.config .executeFeeChange) ∧
    ((Sample.genesis.after Sample.repricing).step Sample.execution).world.config.protocolFee = some f ∧
    Outstanding Sample.genesis Sample.repricing f t ∧ t + feeDelay ≤ env.now := by
  refine (fee_timelock Sample.genesis_fresh (run_of_inOrder (by decide))).2 ?_ ?_ Sample.execution
    ⟨by decide, trivial⟩ (fun h => h) (by decide +kernel)
  · intro e he
    simp only [Sample.repricing, List.mem_cons, List.not_mem_nil, or_false] at he
    rcases he with rfl | rfl | rfl
    · exact fun h => h
    · exact fun h => h
    · exact fun h => h
  · decide

end SoroStream
