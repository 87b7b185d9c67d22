import SoroStream.Types

namespace SoroStream.VestingMath

def computeClaimable (flowRate : Int) (now cliffTime endTime lastWithdrawTime : Nat) : Option Int :=
  if now < cliffTime then some 0
  else
    let effectiveNow := if now < endTime then now else endTime
    let elapsed := effectiveNow - lastWithdrawTime
    checkedMulI128 flowRate elapsed

def computeEarned (flowRate : Int) (now endTime lastWithdrawTime : Nat) : Option Int :=
  let effectiveNow := if now < endTime then now else endTime
  let elapsed := effectiveNow - lastWithdrawTime
  checkedMulI128 flowRate elapsed

def computeTotalStreamed (flowRate : Int) (now endTime startTime : Nat) : Option Int :=
  let effectiveNow := if now < endTime then now else endTime
  checkedMulI128 flowRate ((effectiveNow - startTime : Nat) : Int)

def computeRefund (deposit flowRate : Int) (now endTime startTime : Nat) : Option Int := do
  let totalStreamed ← computeTotalStreamed flowRate now endTime startTime
  pure (saturatingSubI128 deposit totalStreamed)

/-- A zero divisor traps. -/
def computeFlowRate (deposit : Int) (durationSeconds : Nat) : Option Int :=
  if durationSeconds = 0 then none else some (deposit.tdiv durationSeconds)

end SoroStream.VestingMath
