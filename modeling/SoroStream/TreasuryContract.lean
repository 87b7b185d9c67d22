import SoroStream.Host

namespace SoroStream.TreasuryContract

open Lib.Rollback Lib.Rollback.Prog

variable {host : Host}

def readAdmin (t : TreasuryCells) : Option Address := t.admin

def readLpPool (t : TreasuryCells) : Option Address := t.lpPool

def readTreasurySplitBps (t : TreasuryCells) : Nat := t.splitBps.getD 10000

def getBalance (t : TreasuryCells) (token : Address) : Int := (t.balance token).getD 0

def requireAuthFrom (invoker : Option Address) (a : Address) : Contract host Unit :=
  if invoker = some a then pure () else requireAuth a

def checkAdmin (invoker : Option Address) : Contract host Unit := do
  let admin ← ask fun w => readAdmin w.treasury
  let admin ← okOrHalt admin
  requireAuthFrom invoker admin

def initializeTreasury (admin : Address) : Contract host Unit := do
  let current ← ask fun w => readAdmin w.treasury
  haltIf current.isSome
  setTreasuryCells fun t => { t with admin := some admin }

def setAdmin (invoker : Option Address) (newAdmin : Address) : Contract host Unit := do
  checkAdmin invoker
  setTreasuryCells fun t => { t with admin := some newAdmin }

def setBalance (token : Address) (amount : Option Int) : Contract host Unit :=
  setTreasuryCells fun t => { t with balance := Function.update t.balance token amount }

def deposit (token : Address) (amount : Int) : Contract host Unit := do
  let current ← ask fun w => getBalance w.treasury token
  let sum ← okOrHalt (checkedAddI128 current amount)
  setBalance token (some sum)

def payout (host : Host) (token destination : Address) (amount : Int) : Transfer :=
  ⟨token, host.treasury, destination, amount, .payout⟩

def withdrawTreasury (invoker : Option Address) (token : Address) (amount : Int) (destination : Address) :
    Contract host Unit := do
  checkAdmin invoker
  let current ← ask fun w => getBalance w.treasury token
  haltIf (current < amount)
  let left ← okOrHalt (checkedSubI128 current amount)
  setBalance token (some left)
  transfer (payout host token destination amount)

def withdrawAll (invoker : Option Address) (token destination : Address) : Contract host Int := do
  checkAdmin invoker
  let current ← ask fun w => getBalance w.treasury token
  if 0 < current then do
    setBalance token none
    transfer (payout host token destination current)
    pure current
  else pure current

def setLpPool (invoker : Option Address) (lpPool : Address) : Contract host Unit := do
  checkAdmin invoker
  setTreasuryCells fun t => { t with lpPool := some lpPool }

def setTreasurySplit (invoker : Option Address) (treasuryBps : Nat) : Contract host Unit := do
  checkAdmin invoker
  haltIf (10000 < treasuryBps)
  setTreasuryCells fun t => { t with splitBps := some treasuryBps }

def distribute (invoker : Option Address) (token destination : Address) : Contract host (Int × Int) := do
  checkAdmin invoker
  let total ← ask fun w => getBalance w.treasury token
  if total = 0 then pure (0, 0)
  else do
    let treasuryBps ← ask fun w => readTreasurySplitBps w.treasury
    let product ← okOrHalt (checkedMulI128 total treasuryBps)
    let treasuryAmount := product.tdiv 10000
    let lpAmount ← okOrHalt (checkedSubI128 total treasuryAmount)
    setBalance token none
    transferPositive (payout host token destination treasuryAmount)
    if 0 < lpAmount then do
      let lpPool ← ask fun w => readLpPool w.treasury
      let lpPool ← okOrHalt lpPool
      transfer (payout host token lpPool lpAmount)
      pure (treasuryAmount, lpAmount)
    else pure (treasuryAmount, lpAmount)

inductive Call
  | initializeTreasury (admin : Address)
  | setAdmin (newAdmin : Address)
  | deposit (token : Address) (amount : I128)
  | withdrawTreasury (token : Address) (amount : I128) (destination : Address)
  | withdrawAll (token destination : Address)
  | setLpPool (lpPool : Address)
  | setTreasurySplit (treasuryBps : U32)
  | distribute (token destination : Address)

def Call.exec (invoker : Option Address) : Call → Contract host Unit
  | .initializeTreasury admin => TreasuryContract.initializeTreasury admin
  | .setAdmin newAdmin => TreasuryContract.setAdmin invoker newAdmin
  | .deposit token amount => TreasuryContract.deposit token amount
  | .withdrawTreasury token amount destination =>
      TreasuryContract.withdrawTreasury invoker token amount destination
  | .withdrawAll token destination => do
      let _ ← TreasuryContract.withdrawAll invoker token destination
  | .setLpPool lpPool => TreasuryContract.setLpPool invoker lpPool
  | .setTreasurySplit treasuryBps => TreasuryContract.setTreasurySplit invoker treasuryBps.val
  | .distribute token destination => do
      let _ ← TreasuryContract.distribute invoker token destination

end SoroStream.TreasuryContract
