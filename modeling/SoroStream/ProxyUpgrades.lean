import SoroStream.ProxyContract

namespace SoroStream.ProxyContract

open Lib Lib.Rollback Lib.Rollback.Prog Lib.Runs Lib.VersionedCell

variable {site : ProxyHost} {env : ProxyEnv site} {s s' : Ledger × List ProxyPublished} {u : Unit} {c : Call}
  {a : Address}

def SignedByAdmin (env : ProxyEnv site) (cells : Cells) (a : Address) : Prop :=
  cells.admin = some a ∧ env.auths a = true

@[simp] theorem readAdmin_ok {v : Option Address} :
    readAdmin env s = .ok v s' ↔ s.1.cells.admin = v ∧ s = s' := read_ok

@[simp] theorem readImplHash_ok {v : Option WasmHash} :
    readImplHash env s = .ok v s' ↔ s.1.cells.implHash = v ∧ s = s' := read_ok

@[simp] theorem readStorageVersion_ok {v : Nat} :
    readStorageVersion env s = .ok v s' ↔ s.1.cells.storageVersion.getD 0 = v ∧ s = s' := read_ok

@[simp] theorem setCells_ok {f : Cells → Cells} :
    setCells f env s = .ok u s' ↔ ({ s.1 with cells := f s.1.cells }, s.2) = s' := update_ok

@[simp] theorem checkAdmin_ok : checkAdmin env s = .ok a s' ↔ SignedByAdmin env s.1.cells a ∧ s = s' := by
  simp only [checkAdmin, requireAuth, bind_ok, readAdmin_ok, okOrHalt_ok, read_ok, haltIf_ok, pure_ok,
    Bool.not_eq_false, SignedByAdmin, and_assoc, exists_and_left, exists_eq_left', exists_const]
  constructor
  · rintro ⟨a, hadmin, hauth, rfl, rfl⟩
    exact ⟨hadmin, hauth, rfl⟩
  · rintro ⟨hadmin, hauth, rfl⟩
    exact ⟨a, hadmin, hauth, rfl, rfl⟩

inductive Does (env : ProxyEnv site) (cells : Cells) (w : World) : Call → Cells → World → List ProxyPublished → Prop
  | founded (admin : Address) (implHash : WasmHash) (version : U32) (hnone : cells.admin = none) :
      Does env cells w (.initializeProxy admin implHash version)
        { cells with admin := some admin, implHash := some implHash, storageVersion := some version.val } w
        [.proxyInitialized admin implHash version.val]
  | looked (c : Call) (hc : c = .getAdmin ∨ c = .getImplHash ∨ c = .getStorageVersion) : Does env cells w c cells w []
  | handedOver (a newAdmin : Address) (hsigned : SignedByAdmin env cells a) :
      Does env cells w (.setAdmin newAdmin) { cells with admin := some newAdmin } w []
  | upgraded (a : Address) (oldHash newImplHash : WasmHash) (expected new : U32)
      (hsigned : SignedByAdmin env cells a) (hversion : cells.storageVersion.getD 0 = expected.val)
      (hold : cells.implHash = some oldHash) :
      Does env cells w (.upgrade newImplHash expected new)
        { cells with implHash := some newImplHash, storageVersion := some new.val } w
        [.proxyUpgraded a oldHash newImplHash new.val]
  | replaced (a : Address) (hash : WasmHash) (hsigned : SignedByAdmin env cells a) :
      Does env cells w (.upgradeProxy hash) { cells with wasm := some hash } w []
  | forwarded (a : Address) (fromVersion toVersion : String) (w' : World) (hsigned : SignedByAdmin env cells a)
      (hrun : Contract.migrate fromVersion toVersion (invoking env) w = .ok () w') :
      Does env cells w (.migrate site.contract fromVersion toVersion) cells w' [.proxyMigrated fromVersion toVersion]
  | elsewhere (a implContract : Address) (fromVersion toVersion : String) (b : Balances)
      (hsigned : SignedByAdmin env cells a) (hne : implContract ≠ site.contract) :
      Does env cells w (.migrate implContract fromVersion toVersion) cells { w with balances := b }
        [.proxyMigrated fromVersion toVersion]

theorem enter_ok {α : Type} {x : Contract site.toHost α} {v : α} :
    enter x env s = .ok v s' ↔ x (invoking env) s.1.world = .ok v s'.1.world ∧ s.1.cells = s'.1.cells ∧ s.2 = s'.2 := by
  obtain ⟨⟨cells, w⟩, l⟩ := s'
  rw [enter]
  cases x (invoking env) s.1.world <;> simp [and_assoc, and_comm]

theorem invokeMigrate_ok {implContract : Address} {fromVersion toVersion : String}
    (h : invokeMigrate implContract fromVersion toVersion env s = .ok u s') :
    s.1.cells = s'.1.cells ∧ s.2 = s'.2 ∧
      (implContract = site.contract ∧
          Contract.migrate fromVersion toVersion (invoking env) s.1.world = .ok u s'.1.world ∨
        implContract ≠ site.contract ∧ ∃ b, s'.1.world = { s.1.world with balances := b }) := by
  rw [invokeMigrate] at h
  simp only [ite_ok, halt_ok, and_false, false_or, enter_ok] at h
  rcases h with ⟨-, ⟨rfl, hrun, hcells, hlist⟩ | ⟨hne, hrun, hcells, hlist⟩⟩
  · exact ⟨hcells, hlist, .inl ⟨rfl, hrun⟩⟩
  · refine ⟨hcells, hlist, .inr ⟨hne, ?_⟩⟩
    simp only [Contract.discard, callContract, bind_ok, ite_ok, halt_ok, and_false, false_or, read_ok, okOrHalt_ok,
      update_ok, pure_ok, and_assoc, exists_and_left, exists_eq_left', exists_const] at hrun
    obtain ⟨-, -, _, _, ⟨⟨v, b⟩, -, rfl, rfl⟩, -, hw⟩ := hrun
    exact ⟨b, hw.symm⟩

theorem exec_ok (h : c.exec env s = .ok u s') :
    ∃ es, s'.2 = s.2 ++ es ∧ Does env s.1.cells s.1.world c s'.1.cells s'.1.world es := by
  cases c with
  | initializeProxy admin implHash version =>
      simp only [Call.exec, initializeProxy, bind_ok, readAdmin_ok, failIf_ok, setCells_ok, publish_ok, and_assoc,
        exists_and_left, exists_eq_left', exists_const] at h
      obtain ⟨hnone, rfl⟩ := h
      exact ⟨_, rfl, .founded admin implHash version (by simpa using hnone)⟩
  | getAdmin | getImplHash =>
      simp only [Call.exec, getAdmin, getImplHash, bind_ok, readAdmin_ok, readImplHash_ok, okOr_ok, pure_ok, and_assoc,
        exists_and_left, exists_eq_left'] at h
      obtain ⟨_, -, -, rfl⟩ := h
      exact ⟨[], by simp, .looked _ (by simp)⟩
  | getStorageVersion =>
      simp only [Call.exec, getStorageVersion, bind_ok, readStorageVersion_ok, pure_ok] at h
      obtain rfl : s = s' := by simpa using h
      exact ⟨[], by simp, .looked _ (by simp)⟩
  | setAdmin newAdmin =>
      simp only [Call.exec, setAdmin, bind_ok, checkAdmin_ok, setCells_ok] at h
      obtain ⟨a, _, ⟨hsigned, rfl⟩, rfl⟩ := h
      exact ⟨[], by simp, .handedOver a newAdmin hsigned⟩
  | upgrade newImplHash expected new =>
      simp only [Call.exec, upgrade, bind_ok, checkAdmin_ok, readStorageVersion_ok, failIf_ok, readImplHash_ok, okOr_ok,
        setCells_ok, publish_ok, not_not, and_assoc, exists_and_left, exists_eq_left', exists_const] at h
      obtain ⟨a, hsigned, hversion, old, hold, rfl⟩ := h
      exact ⟨_, rfl, .upgraded a old newImplHash expected new hsigned hversion hold⟩
  | upgradeProxy hash =>
      simp only [Call.exec, upgradeProxy, bind_ok, checkAdmin_ok, setCells_ok] at h
      obtain ⟨a, _, ⟨hsigned, rfl⟩, rfl⟩ := h
      exact ⟨[], by simp, .replaced a hash hsigned⟩
  | migrate implContract fromVersion toVersion =>
      simp only [Call.exec, migrate, bind_ok, checkAdmin_ok, publish_ok] at h
      obtain ⟨a, _, ⟨hsigned, rfl⟩, _, ⟨⟨cells, w⟩, l⟩, hinvoke, rfl⟩ := h
      obtain ⟨rfl, rfl, ⟨rfl, hrun⟩ | ⟨hne, b, hw⟩⟩ := invokeMigrate_ok hinvoke
      · exact ⟨_, rfl, .forwarded a fromVersion toVersion w hsigned hrun⟩
      · obtain rfl : w = _ := hw
        exact ⟨_, rfl, .elsewhere a implContract fromVersion toVersion b hsigned hne⟩

/-- The code in force, under the version of the storage it works on. -/
def Cells.code (c : Cells) : Option (Cell Nat WasmHash) :=
  c.implHash.map fun hash => ⟨c.storageVersion.getD 0, hash⟩

structure Upgrade where
  admin : Address
  write : Write Nat WasmHash

/-- What a call asks to write, in the name of the admin of the moment. -/
def Call.upgrades (cells : Cells) : Call → List Upgrade
  | .upgrade newImplHash expected new =>
      cells.admin.toList.map fun admin => ⟨admin, ⟨expected.val, new.val, newImplHash⟩⟩
  | _ => []

def State.ledger (s : State) : Ledger × List ProxyPublished := (⟨s.cells, s.chain.world⟩, s.published)

def State.upgrades (s : State) : Event site → List Upgrade
  | .proxy env c => if (c.exec env s.ledger).value?.isSome then c.upgrades s.cells else []
  | .beside _ => []

abbrev accepted (s : State) (events : List (Event site)) : List Upgrade := outputs State.step State.upgrades s events

/-- A call of the proxy fails and leaves all but the time, or does what a successful call does. -/
theorem proxy_step (s : State) (env : ProxyEnv site) (c : Call) :
    ((c.exec env s.ledger).value? = none ∧
        s.step (.proxy env c) = { s with chain := ⟨s.chain.world, env.timestamp.val⟩ }) ∨
      ∃ cells w es, (c.exec env s.ledger).value? = some () ∧ Does env s.cells s.chain.world c cells w es ∧
        s.step (.proxy env c) = ⟨⟨w, env.timestamp.val⟩, cells, s.published ++ es⟩ := by
  have hstep : s.step (.proxy env c) = ⟨⟨((c.exec env s.ledger).commit s.ledger).1.world, env.timestamp.val⟩,
      ((c.exec env s.ledger).commit s.ledger).1.cells, ((c.exec env s.ledger).commit s.ledger).2⟩ := rfl
  rw [hstep]
  cases hx : c.exec env s.ledger with
  | ok u s' =>
      obtain ⟨es, hes, hdoes⟩ := exec_ok hx
      refine .inr ⟨s'.1.cells, s'.1.world, es, rfl, hdoes, ?_⟩
      rw [Outcome.commit_ok, hes]
      rfl
  | err e t => exact .inl ⟨rfl, rfl⟩
  | trap => exact .inl ⟨rfl, rfl⟩

/-- The proxy is left alone, or it does what a successful call of it does. -/
theorem step_does (s : State) (e : Event site) :
    ((s.step e).cells = s.cells ∧ (s.step e).published = s.published ∧ s.upgrades e = []) ∨
      ∃ env c cells w es, e = .proxy env c ∧ Does env s.cells s.chain.world c cells w es ∧
        s.step e = ⟨⟨w, env.timestamp.val⟩, cells, s.published ++ es⟩ ∧ s.upgrades e = c.upgrades s.cells := by
  cases e with
  | beside e => exact .inl ⟨rfl, rfl, rfl⟩
  | proxy env c =>
      rcases proxy_step s env c with ⟨hnone, hstep⟩ | ⟨cells, w, es, hsome, hdoes, hstep⟩
      · exact .inl ⟨by rw [hstep], by rw [hstep], by simp [State.upgrades, hnone]⟩
      · exact .inr ⟨env, c, cells, w, es, rfl, hdoes, hstep, by simp [State.upgrades, hsome]⟩

def ProxyPublished.tellsCode : ProxyPublished → Bool
  | .proxyInitialized _ _ _ | .proxyUpgraded _ _ _ _ => true
  | .proxyMigrated _ _ => false

/-- What is published of upgrades of some code: each names the code it replaces. -/
def told : WasmHash → List Upgrade → List ProxyPublished
  | _, [] => []
  | old, u :: us => .proxyUpgraded u.admin old u.write.value u.write.version :: told u.write.value us

theorem told_snoc {c₀ c : Cell Nat WasmHash} {us : List Upgrade} (h : Linked c₀ (us.map Upgrade.write) c)
    (u : Upgrade) :
    told c₀.value (us ++ [u]) = told c₀.value us ++ [.proxyUpgraded u.admin c.value u.write.value u.write.version] := by
  induction us generalizing c₀ with
  | nil =>
      obtain rfl := h.last_eq
      rfl
  | cons v us ih =>
      have hhead : Linked c₀ ([] ++ v.write :: us.map Upgrade.write) c := h
      obtain ⟨d, hd, -, htail⟩ := hhead.cut
      simp only [List.cons_append, told]
      exact congrArg _ (ih htail)

/-- The code in force goes back to the one the proxy was founded with by the accepted
upgrades, and the journal tells it so. -/
inductive History (us : List Upgrade) (s : State) : Prop
  | unfounded (hadmin : s.cells.admin = none) (hcode : s.cells.code = none) (hus : us = [])
      (hlines : s.published.filter ProxyPublished.tellsCode = [])
  | founded (a₀ : Address) (c₀ c : Cell Nat WasmHash) (hadmin : s.cells.admin ≠ none)
      (hcode : s.cells.code = some c) (hlinked : Linked c₀ (us.map Upgrade.write) c)
      (hlines : s.published.filter ProxyPublished.tellsCode =
        .proxyInitialized a₀ c₀.value c₀.version :: told c₀.value us)

/-- A step that leaves the code, and that there is an admin, as they were. -/
theorem History.keep {us : List Upgrade} {s s' : State} (h : History us s)
    (hadmin : s'.cells.admin = none ↔ s.cells.admin = none) (hcode : s'.cells.code = s.cells.code)
    (hlines : s'.published.filter ProxyPublished.tellsCode = s.published.filter ProxyPublished.tellsCode) :
    History us s' := by
  cases h with
  | unfounded hnone hcode₀ hus hlines₀ =>
      exact .unfounded (hadmin.mpr hnone) (hcode.trans hcode₀) hus (hlines.trans hlines₀)
  | founded a₀ c₀ c hsome hcode₀ hlinked hlines₀ =>
      exact .founded a₀ c₀ c (fun h => hsome (hadmin.mp h)) (hcode.trans hcode₀) hlinked (hlines.trans hlines₀)

theorem History.step {us : List Upgrade} {s : State} (h : History us s) (e : Event site) :
    History (us ++ s.upgrades e) (s.step e) := by
  rcases step_does s e with ⟨hcells, hpub, hup⟩ | ⟨env, c, cells, w, es, rfl, hdoes, hstep, hup⟩
  · rw [hup, List.append_nil]
    exact h.keep (by rw [hcells]) (by rw [hcells]) (by rw [hpub])
  · rw [hstep, hup]
    cases hdoes with
    | founded admin implHash version hnone =>
        cases h with
        | unfounded hadmin hcode hus hlines =>
            subst hus
            refine .founded admin ⟨version.val, implHash⟩ ⟨version.val, implHash⟩ (by simp) rfl (.nil _) ?_
            rw [List.filter_append, hlines]
            rfl
        | founded a₀ c₀ c₁ hadmin hcode hlinked hlines => exact absurd hnone hadmin
    | upgraded a oldHash newImplHash expected new hsigned hversion hold =>
        cases h with
        | unfounded hadmin hcode hus hlines => exact absurd (hadmin.symm.trans hsigned.1) (Option.some_ne_none a).symm
        | founded a₀ c₀ c₁ hadmin hcode hlinked hlines =>
            obtain rfl : ⟨expected.val, oldHash⟩ = c₁ := by simpa [Cells.code, hold, hversion] using hcode
            have hus : (Call.upgrade newImplHash expected new).upgrades s.cells =
                [⟨a, ⟨expected.val, new.val, newImplHash⟩⟩] := by
              simp [Call.upgrades, hsigned.1]
            rw [hus]
            refine .founded a₀ c₀ ⟨new.val, newImplHash⟩ hadmin rfl ?_ ?_
            · rw [List.map_append]
              exact hlinked.snoc _ rfl
            · rw [List.filter_append, hlines, told_snoc hlinked]
              rfl
    | looked c hc =>
        have hus : c.upgrades s.cells = [] := by rcases hc with rfl | rfl | rfl <;> rfl
        rw [hus, List.append_nil]
        exact h.keep Iff.rfl rfl (by simp)
    | handedOver a newAdmin hsigned =>
        rw [show (Call.setAdmin newAdmin).upgrades s.cells = [] from rfl, List.append_nil]
        exact h.keep (by simp [hsigned.1]) rfl (by simp)
    | replaced a hash hsigned =>
        rw [show (Call.upgradeProxy hash).upgrades s.cells = [] from rfl, List.append_nil]
        exact h.keep Iff.rfl rfl (by simp)
    | forwarded a fromVersion toVersion | elsewhere a implContract fromVersion toVersion =>
        rw [show (Call.migrate _ fromVersion toVersion).upgrades s.cells = [] from rfl, List.append_nil]
        refine h.keep Iff.rfl rfl ?_
        rw [List.filter_append]
        exact List.append_nil _

theorem history_of_run {s₀ s : State} {events : List (Event site)} (h₀ : Deployed s₀)
    (hrun : SiteRun site s₀ events s) : History (accepted s₀ events) s := by
  refine hrun.trace_inv (fun es s => History (accepted s₀ es) s) ?_ ?_
  · exact .unfounded (by rw [h₀.cells]) (by rw [h₀.cells]; rfl) rfl (by rw [h₀.published]; rfl)
  · intro es s e hes ih _
    rw [accepted, hes.outputs_snoc]
    exact ih.step e

def Event.SignedBy (a : Address) : Event site → Prop
  | .proxy env _ => env.auths a = true
  | .beside _ => False

theorem upgrades_signed (s : State) (e : Event site) : ∀ u ∈ s.upgrades e, e.SignedBy u.admin := by
  rcases step_does s e with ⟨-, -, hup⟩ | ⟨env, c, cells, w, es, rfl, hdoes, -, hup⟩
  · simp [hup]
  · rw [hup]
    cases hdoes with
    | upgraded a oldHash newImplHash expected new hsigned =>
        intro u hu
        rw [Call.upgrades, hsigned.1] at hu
        obtain rfl := List.mem_singleton.mp hu
        exact hsigned.2
    | looked c hc => rcases hc with rfl | rfl | rfl <;> simp [Call.upgrades]
    | founded | handedOver | replaced | forwarded | elsewhere => simp [Call.upgrades]

/-- The code behind the proxy has one history. In every run from a new proxy, whatever else
happens on the ledger: as long as no code is in force, no upgrade was accepted. Then the
accepted upgrades lead from the code the proxy was founded with to the code in force, each
finding the version it quotes; the journal is that history line by line, with the hash each
upgrade replaced; and each was signed by the admin it is told of. -/
theorem upgrades_linear {s₀ s : State} {events : List (Event site)} (h₀ : Deployed s₀)
    (hrun : SiteRun site s₀ events s) :
    (s.cells.code = none → accepted s₀ events = [] ∧ s.published.filter ProxyPublished.tellsCode = []) ∧
    (∀ c, s.cells.code = some c → ∃ a₀ c₀, Linked c₀ ((accepted s₀ events).map Upgrade.write) c ∧
      s.published.filter ProxyPublished.tellsCode =
        .proxyInitialized a₀ c₀.value c₀.version :: told c₀.value (accepted s₀ events)) ∧
    Throughout State.step (fun s e => ∀ u ∈ s.upgrades e, e.SignedBy u.admin) s₀ events := by
  refine ⟨?_, ?_, (throughout_iff s₀ events).mpr fun _ e _ _ => upgrades_signed _ e⟩
  · intro hnone
    cases history_of_run h₀ hrun with
    | unfounded _ _ hus hlines => exact ⟨hus, hlines⟩
    | founded _ _ c _ hcode => exact absurd (hnone.symm.trans hcode) (Option.some_ne_none c).symm
  · intro c hcode
    cases history_of_run h₀ hrun with
    | unfounded _ hnone => exact absurd (hnone.symm.trans hcode) (Option.some_ne_none c).symm
    | founded a₀ c₀ c₁ _ hcode₁ hlinked hlines =>
        obtain rfl := Option.some.inj (hcode.symm.trans hcode₁)
        exact ⟨a₀, c₀, hlinked, hlines⟩

/-- Upgrades prepared for one version do not overwrite each other. Of two accepted upgrades
that quote the same version, the first or one between the two put that version back; and
where every accepted upgrade raises the version, the versions they quote only go up. -/
theorem upgrades_never_lost {s₀ s : State} {events : List (Event site)} (h₀ : Deployed s₀)
    (hrun : SiteRun site s₀ events s) :
    (∀ before u between u' later, accepted s₀ events = before ++ u :: between ++ u' :: later →
      u.write.expected = u'.write.expected → ∃ v ∈ u :: between, v.write.version = u.write.expected) ∧
    ((∀ u ∈ accepted s₀ events, u.write.expected < u.write.version) →
      ((accepted s₀ events).map fun u => u.write.expected).Pairwise (· < ·)) := by
  cases history_of_run h₀ hrun with
  | unfounded _ _ hus _ =>
      rw [hus]
      exact ⟨by simp, fun _ => List.Pairwise.nil⟩
  | founded a₀ c₀ c _ _ hlinked _ =>
      constructor
      · intro before u between u' later heq hsame
        rw [heq] at hlinked
        simp only [List.map_append, List.map_cons] at hlinked
        obtain ⟨w, hw, hback⟩ := hlinked.put_back hsame
        obtain ⟨v, hv, rfl⟩ := List.mem_map.mp (List.map_cons ▸ hw)
        exact ⟨v, hv, hback⟩
      · intro hraise
        have hquoted := (hlinked.quoted_increasing (List.forall_mem_map.mpr hraise)).2
        rwa [List.map_map] at hquoted

end SoroStream.ProxyContract

namespace SoroStream.Sample

open Lib.VersionedCell ProxyContract

def founding : ProxyContract.Event proxySite := proxyCall [] 1 (.initializeProxy (party 2) 11 1)

/-- Two upgrades prepared for the same version, then the old code again, and one of the two
once more. -/
def upgrading : List (ProxyContract.Event proxySite) :=
  [founding, proxyCall [2] 6 (.upgrade 12 1 2),
    proxyCall [2] 7 (.upgrade 13 1 2), proxyCall [2] 8 (.upgrade 11 2 1), proxyCall [2] 9 (.upgrade 13 1 2)]

theorem unproxied_deployed : Deployed unproxied := ⟨rfl, rfl⟩

theorem upgrading_run : SiteRun proxySite unproxied upgrading (unproxied.after upgrading) :=
  run_of_orderly (by decide +kernel)

theorem sample_upgrades_linear :
    ∃ a₀ c₀, Linked c₀ ((accepted unproxied upgrading).map Upgrade.write) ⟨2, 13⟩ ∧
      (unproxied.after upgrading).published.filter ProxyPublished.tellsCode =
        .proxyInitialized a₀ c₀.value c₀.version :: told c₀.value (accepted unproxied upgrading) :=
  (upgrades_linear unproxied_deployed upgrading_run).2.1 ⟨2, 13⟩ (by decide +kernel)

theorem sample_upgrades_never_lost :
    ∃ v ∈ (accepted unproxied upgrading).take 2, v.write.version = 1 :=
  (upgrades_never_lost unproxied_deployed upgrading_run).1 [] _ [_] _ [] rfl rfl

end SoroStream.Sample
