import SoroStream.Lib.Rollback
import SoroStream.Lib.SlotArray
import SoroStream.Types

namespace SoroStream

open Lib Lib.Rollback Lib.Rollback.Prog

/-- Why a contract moves tokens, and on which stream's account. The contracts do
not store it: it labels the transfers of the log. -/
inductive Cause
  | lock (stream : StreamId)
  | creationFee (stream : StreamId)
  | claim (stream : StreamId)
  | protocolFee (stream : StreamId)
  | refund (stream : StreamId)
  | dust (stream : StreamId)
  | renewal (stream : StreamId)
  | topUp (stream : StreamId)
  | payout
  deriving DecidableEq, Repr

def Cause.stream? : Cause → Option StreamId
  | lock i | creationFee i | claim i | protocolFee i | refund i | dust i | renewal i | topUp i => some i
  | payout => none

structure Transfer where
  token : Address
  payer : Address
  payee : Address
  amount : Int
  cause : Cause
  deriving DecidableEq, Repr

abbrev Balances := Address → Address → Int

def Balances.move (b : Balances) (t : Transfer) : Balances := fun token a =>
  if token = t.token then
    b token a - (if a = t.payer then t.amount else 0) + (if a = t.payee then t.amount else 0)
  else b token a

structure Config where
  admin : Option Address
  version : Option String
  guardian : Option Address
  governance : Option Address
  protocolFee : Option Nat
  pendingFee : Option (Nat × Nat)
  treasury : Option Address
  minDuration : Option Nat
  maxStreams : Option Nat
  withdrawalCooldown : Option Nat
  whitelistEnabled : Option Bool
  creationFeeXlm : Option Int
  xlmToken : Option Address
  appliedMigrations : Option (List String)
  whitelist : Address → Option Bool
  feeExempt : Address → Option Bool
  senderLimit : Address → Option Nat

structure PauseCells where
  paused : Option Bool
  expiry : Option Nat
  deriving DecidableEq

structure AuditCells where
  head : Option Nat
  len : Option Nat
  slot : Nat → Option AuditEntry

structure Book where
  streams : Streams
  senders : Address → SlotArray StreamId
  recipients : Address → SlotArray StreamId
  globalIndex : SlotArray StreamId
  delegates : StreamId → Option Address
  batchNonce : Address → Option Nat
  nonces : Address → Nat → Option Bool

structure TreasuryCells where
  admin : Option Address
  lpPool : Option Address
  splitBps : Option Nat
  balance : Address → Option Int

structure World where
  config : Config
  pause : PauseCells
  audit : AuditCells
  book : Book
  treasury : TreasuryCells
  wasm : Option (Fin (2 ^ 256))
  balances : Balances
  log : List Transfer

/-- What is fixed at deployment: the addresses of the two contracts and the hash
that names streams. -/
structure Host where
  contract : Address
  treasury : Address
  treasury_ne_contract : treasury ≠ contract
  deriveStreamId : Address → Address → Nat → Nat → U64

/-- What one transaction brings along. The token contracts and all other foreign
contracts are unknown code: a token may refuse any transfer, a foreign call may
fail or rearrange balances, but neither takes from the two contracts, which
sign nothing. -/
structure Env (host : Host) where
  timestamp : U64
  auths : Address → Bool
  accepts : Balances → Transfer → Bool
  foreign : Address → String → Balances → Option (Int × Balances)
  contract_silent : auths host.contract = false
  treasury_silent : auths host.treasury = false
  foreign_keeps : ∀ {a f b v b'}, foreign a f b = some (v, b') → ∀ token,
    b token host.contract ≤ b' token host.contract ∧ b token host.treasury ≤ b' token host.treasury

abbrev Contract (host : Host) := Prog (Env host) StreamError World

variable {host : Host}

def ask {α : Type} (f : World → α) : Contract host α := read fun _ w => f w

def timestamp : Contract host Nat := read fun env _ => env.timestamp.val

def requireAuth (a : Address) : Contract host Unit := do
  let granted ← read fun env _ => env.auths a
  haltIf (granted = false)

def setConfig (f : Config → Config) : Contract host Unit :=
  update fun _ w => { w with config := f w.config }

def setPause (f : PauseCells → PauseCells) : Contract host Unit :=
  update fun _ w => { w with pause := f w.pause }

def setAudit (f : AuditCells → AuditCells) : Contract host Unit :=
  update fun _ w => { w with audit := f w.audit }

def setBook (f : Book → Book) : Contract host Unit :=
  update fun _ w => { w with book := f w.book }

def setTreasuryCells (f : TreasuryCells → TreasuryCells) : Contract host Unit :=
  update fun _ w => { w with treasury := f w.treasury }

/-- Plain i128 division and remainder, which trap on a zero divisor. -/
def divI128 (a b : Int) : Contract host Int := do
  haltIf (b = 0)
  pure (a.tdiv b)

def remI128 (a b : Int) : Contract host Int := do
  haltIf (b = 0)
  pure (a.tmod b)

def subU64 (a b : Nat) : Contract host Nat := do
  haltIf (a < b)
  pure (a - b)

/-- A token moves exactly the amount asked for, or traps. -/
def Payable (env : Env host) (w : World) (t : Transfer) : Prop :=
  0 ≤ t.amount ∧ t.amount ≤ w.balances t.token t.payer ∧ env.accepts w.balances t = true

instance (env : Env host) (w : World) (t : Transfer) : Decidable (Payable env w t) :=
  inferInstanceAs (Decidable (_ ∧ _ ∧ _))

def World.pay (w : World) (ts : List Transfer) : World :=
  { w with balances := ts.foldl Balances.move w.balances, log := w.log ++ ts }

def transfer (t : Transfer) : Contract host Unit := do
  let payable ← read fun env w => decide (Payable env w t)
  haltIf (payable = false)
  update fun _ w => w.pay [t]

def transferPositive (t : Transfer) : Contract host Unit :=
  if 0 < t.amount then transfer t else pure ()

def balanceOf (token a : Address) : Contract host Int := ask fun w => w.balances token a

/-- Invoke a function of the contract at an address: the treasury contract's is
`body`, calling back into the stream contract is forbidden by the host. -/
def callContract (a : Address) (f : String) (body : Contract host Int) : Contract host Int :=
  if a = host.contract then halt
  else if a = host.treasury then body
  else do
    let answer ← read fun env w => env.foreign a f w.balances
    let (v, b) ← okOrHalt answer
    update fun _ w => { w with balances := b }
    pure v

theorem signer_ne_contract {a : Address} {env : Env host} (h : env.auths a = true) : a ≠ host.contract := by
  rintro rfl
  exact Bool.noConfusion (env.contract_silent.symm.trans h)

theorem requireAuth_ok {a : Address} {env : Env host} {w w' : World} {u : Unit} :
    requireAuth a env w = .ok u w' ↔ env.auths a = true ∧ w = w' := by
  simp [requireAuth]

theorem transfer_ok {t : Transfer} {env : Env host} {w w' : World} {u : Unit} :
    transfer t env w = .ok u w' ↔ Payable env w t ∧ w.pay [t] = w' := by
  simp [transfer]

section

variable {env : Env host} {R : World → World → Prop}

theorem requireAuth_keeps [IsPreorder World R] {a : Address} : Keeps env R (requireAuth a) :=
  keeps_bind keeps_read fun _ => keeps_haltIf

theorem transfer_keeps {t : Transfer} (h : ∀ w, Payable env w t → R w (w.pay [t])) : Keeps env R (transfer t) := by
  intro w _ w' hok
  obtain ⟨hpay, rfl⟩ := transfer_ok.mp hok
  exact h w hpay

theorem callContract_keeps {a : Address} {f : String} {body : Contract host Int}
    (hforeign : ∀ {a f w v b}, env.foreign a f w.balances = some (v, b) → R w { w with balances := b })
    (hbody : Keeps env R body) : Keeps env R (callContract a f body) := by
  refine keeps_ite keeps_halt (keeps_ite hbody ?_)
  intro w v w' h
  simp only [bind_ok, read_ok, okOrHalt_ok, update_ok, pure_ok, and_assoc, exists_and_left, exists_eq_left',
    exists_const] at h
  obtain ⟨⟨v, b⟩, ha, -, rfl⟩ := h
  exact hforeign ha

end

end SoroStream
