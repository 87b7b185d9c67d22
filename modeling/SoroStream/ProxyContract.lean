import SoroStream.System
import SoroStream.Lib.Tracing
import SoroStream.Lib.VersionedCell

namespace SoroStream

open Lib Lib.Rollback Lib.Rollback.Prog Lib.Runs

structure ProxyHost extends Host where
  proxy : Address
  proxy_ne_contract : proxy ≠ contract
  proxy_ne_treasury : proxy ≠ treasury

structure ProxyEnv (site : ProxyHost) extends Env site.toHost where
  proxy_silent : auths site.proxy = false

namespace ProxyContract

abbrev WasmHash := Fin (2 ^ 256)

/-- Neither `notAdmin` nor `migrationAlreadyApplied` is ever returned. -/
inductive ProxyError
  | notInitialized
  | alreadyInitialized
  | notAdmin
  | storageVersionMismatch
  | migrationAlreadyApplied
  deriving DecidableEq, Repr

/-- Instance storage of the proxy, and the code the proxy itself runs if it was replaced. -/
structure Cells where
  admin : Option Address
  implHash : Option WasmHash
  storageVersion : Option Nat
  wasm : Option WasmHash

inductive ProxyPublished
  | proxyInitialized (admin : Address) (implHash : WasmHash) (initialStorageVersion : Nat)
  | proxyUpgraded (admin : Address) (oldHash newImplHash : WasmHash) (newStorageVersion : Nat)
  | proxyMigrated (fromVersion toVersion : String)
  deriving DecidableEq, Repr

structure Ledger where
  cells : Cells
  world : World

variable {site : ProxyHost}

abbrev Code (site : ProxyHost) := Prog (ProxyEnv site) ProxyError (Ledger × List ProxyPublished)

def setCells (f : Cells → Cells) : Code site Unit :=
  update fun _ s => ({ s.1 with cells := f s.1.cells }, s.2)

def requireAuth (a : Address) : Code site Unit := do
  let granted ← read fun env _ => env.auths a
  haltIf (granted = false)

def readAdmin : Code site (Option Address) := read fun _ s => s.1.cells.admin

def checkAdmin : Code site Address := do
  let admin ← readAdmin
  let admin ← okOrHalt admin
  requireAuth admin
  pure admin

def readImplHash : Code site (Option WasmHash) := read fun _ s => s.1.cells.implHash

def readStorageVersion : Code site Nat := read fun _ s => s.1.cells.storageVersion.getD 0

def initializeProxy (admin : Address) (implHash : WasmHash) (initialStorageVersion : Nat) : Code site Unit := do
  let current ← readAdmin
  failIf current.isSome .alreadyInitialized
  setCells fun c => { c with admin := some admin }
  setCells fun c => { c with implHash := some implHash }
  setCells fun c => { c with storageVersion := some initialStorageVersion }
  publish (.proxyInitialized admin implHash initialStorageVersion)

def getAdmin : Code site Address := do
  let admin ← readAdmin
  okOr .notInitialized admin

def setAdmin (newAdmin : Address) : Code site Unit := do
  let _ ← checkAdmin
  setCells fun c => { c with admin := some newAdmin }

def getImplHash : Code site WasmHash := do
  let implHash ← readImplHash
  okOr .notInitialized implHash

def getStorageVersion : Code site Nat := readStorageVersion

def upgrade (newImplHash : WasmHash) (expectedStorageVersion newStorageVersion : Nat) : Code site Unit := do
  let admin ← checkAdmin
  let currentVersion ← readStorageVersion
  failIf (currentVersion ≠ expectedStorageVersion) .storageVersionMismatch
  let oldHash ← readImplHash
  let oldHash ← okOr .notInitialized oldHash
  setCells fun c => { c with implHash := some newImplHash }
  setCells fun c => { c with storageVersion := some newStorageVersion }
  publish (.proxyUpgraded admin oldHash newImplHash newStorageVersion)

/-- The model keeps running this code afterwards: only the hash is recorded. -/
def upgradeProxy (newWasmHash : WasmHash) : Code site Unit := do
  let _ ← checkAdmin
  setCells fun c => { c with wasm := some newWasmHash }

/-- As the invoker of a contract the proxy counts as having signed. -/
def invoking (env : ProxyEnv site) : Env site.toHost :=
  { env.toEnv with
    auths := fun a => decide (a = site.proxy) || env.auths a
    contract_silent := by simp [env.contract_silent, site.proxy_ne_contract.symm]
    treasury_silent := by simp [env.treasury_silent, site.proxy_ne_treasury.symm] }

/-- Run another contract's code. Its typed errors are traps to the invoker. -/
def enter {α : Type} (x : Contract site.toHost α) : Code site α := fun env s =>
  match x (invoking env) s.1.world with
  | .ok a w => .ok a ({ s.1 with world := w }, s.2)
  | .err _ _ => .trap
  | .trap => .trap

/-- Call `migrate` of the contract at an address. The treasury contract has no such function,
and the host lets no contract call itself. What foreign code calls of the stream contract in
turn is an event of its own: it does not act for the proxy. -/
def invokeMigrate (implContract : Address) (fromVersion toVersion : String) : Code site Unit :=
  if implContract = site.proxy then halt
  else if implContract = site.contract then enter (Contract.migrate fromVersion toVersion)
  else enter (Contract.discard (callContract implContract "migrate" halt))

def migrate (implContract : Address) (fromVersion toVersion : String) : Code site Unit := do
  let _ ← checkAdmin
  invokeMigrate implContract fromVersion toVersion
  publish (.proxyMigrated fromVersion toVersion)

inductive Call
  | initializeProxy (admin : Address) (implHash : WasmHash) (initialStorageVersion : U32)
  | getAdmin
  | setAdmin (newAdmin : Address)
  | getImplHash
  | getStorageVersion
  | upgrade (newImplHash : WasmHash) (expectedStorageVersion newStorageVersion : U32)
  | upgradeProxy (newWasmHash : WasmHash)
  | migrate (implContract : Address) (fromVersion toVersion : String)

def Call.exec : Call → Code site Unit
  | .initializeProxy admin implHash initialStorageVersion =>
      ProxyContract.initializeProxy admin implHash initialStorageVersion.val
  | .getAdmin => do
      let _ ← ProxyContract.getAdmin
  | .setAdmin newAdmin => ProxyContract.setAdmin newAdmin
  | .getImplHash => do
      let _ ← ProxyContract.getImplHash
  | .getStorageVersion => do
      let _ ← ProxyContract.getStorageVersion
  | .upgrade newImplHash expectedStorageVersion newStorageVersion =>
      ProxyContract.upgrade newImplHash expectedStorageVersion.val newStorageVersion.val
  | .upgradeProxy newWasmHash => ProxyContract.upgradeProxy newWasmHash
  | .migrate implContract fromVersion toVersion => ProxyContract.migrate implContract fromVersion toVersion

structure State where
  chain : Chain
  cells : Cells
  published : List ProxyPublished

/-- What happens beside the proxy, or a call of the proxy. -/
inductive Event (site : ProxyHost)
  | beside (e : SoroStream.Event site.toHost)
  | proxy (env : ProxyEnv site) (c : Call)

def Unsigned : SoroStream.Event site.toHost → Prop
  | .call env _ => env.auths site.proxy = false
  | .treasury env _ => env.auths site.proxy = false
  | .tokens _ _ => True

def Allowed (s : State) : Event site → Prop
  | .beside e => May s.chain e ∧ Unsigned e
  | .proxy env _ => s.chain.now ≤ env.timestamp.val

def State.step (s : State) : Event site → State
  | .beside e => { s with chain := s.chain.step e }
  | .proxy env c =>
      let after := (c.exec env (⟨s.cells, s.chain.world⟩, s.published)).commit (⟨s.cells, s.chain.world⟩, s.published)
      { chain := ⟨after.1.world, env.timestamp.val⟩, cells := after.1.cells, published := after.2 }

abbrev SiteRun (site : ProxyHost) (s : State) (events : List (Event site)) (s' : State) : Prop :=
  Run Allowed State.step s events s'

structure Deployed (s : State) : Prop where
  cells : s.cells = ⟨none, none, none, none⟩
  published : s.published = []

def State.after (s : State) (events : List (Event site)) : State := events.foldl State.step s

def Event.time : Event site → Nat
  | .beside e => e.time
  | .proxy env _ => env.timestamp.val

/-- Calls alone, none of which the proxy signs, at times that do not run backwards. -/
def orderly : Nat → List (Event site) → Bool
  | _, [] => true
  | _, .beside (.tokens _ _) :: _ => false
  | now, .beside (.call env _) :: es =>
      decide (now ≤ env.timestamp.val) && !env.auths site.proxy && orderly env.timestamp.val es
  | now, .beside (.treasury env _) :: es =>
      decide (now ≤ env.timestamp.val) && !env.auths site.proxy && orderly env.timestamp.val es
  | now, .proxy env _ :: es => decide (now ≤ env.timestamp.val) && orderly env.timestamp.val es

theorem run_of_orderly {s : State} {events : List (Event site)} (h : orderly s.chain.now events = true) :
    SiteRun site s events (s.after events) := by
  induction events generalizing s with
  | nil => exact .nil
  | cons e events ih =>
      suffices hsplit : Allowed s e ∧ orderly (s.step e).chain.now events = true by
        have hfirst : SiteRun site s [e] (s.step e) := Run.snoc .nil hsplit.1
        exact hfirst.append (ih hsplit.2)
      cases e with
      | proxy env c =>
          simp only [orderly, Bool.and_eq_true, decide_eq_true_eq] at h
          exact h
      | beside e =>
          cases e with
          | tokens time b => simp [orderly] at h
          | call env c | treasury env c =>
              simp only [orderly, Bool.and_eq_true, decide_eq_true_eq, Bool.not_eq_true'] at h
              exact ⟨⟨⟨h.1.1, trivial⟩, h.1.2⟩, h.2⟩

end ProxyContract

namespace Sample

def proxySite : ProxyHost where
  toHost := site
  proxy := party 7
  proxy_ne_contract := by decide
  proxy_ne_treasury := by decide

def proxySigned (parties : List Nat) (time : U64) : ProxyEnv proxySite where
  toEnv := signed (parties.filter fun n => decide (n ≠ 7)) time
  proxy_silent := by simp [proxySite, signed, party]

def proxyCall (parties : List Nat) (time : U64) (c : ProxyContract.Call) : ProxyContract.Event proxySite :=
  .proxy (proxySigned parties time) c

def unproxied : ProxyContract.State where
  chain := genesis
  cells := ⟨none, none, none, none⟩
  published := []

end Sample

end SoroStream
