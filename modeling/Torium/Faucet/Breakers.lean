import Torium.Faucet.Store

/-!
# Circuit breakers

The breakers remember recent transaction outcomes, RPC probes and the last balance
of the signer. An open breaker stops new funding work.
-/

namespace Torium.Faucet

structure Breakers where
  outcomes : List Bool := []
  rpcFailures : Nat := 0
  rpcDown : Bool := false
  balanceBaseUnits : Option Int := none
  deriving DecidableEq

/-- All breakers; the reason is empty when they are all closed. -/
structure BreakerState where
  openReason : GoString := []
  rpcDown : Bool := false
  errorRateTripped : Bool := false
  balanceFloor : Bool := false
  budgetSpent : Bool := false
  deriving DecidableEq

namespace Breakers

/-- The window keeps the latest outcomes only. -/
def recordOutcome (breakers : Breakers) (profile : Profile) (success : Bool) : Breakers :=
  let outcomes := breakers.outcomes ++ [success]
  { breakers with outcomes := outcomes.drop (outcomes.length - profile.errorRateWindow) }

def recordRPCProbe (breakers : Breakers) (profile : Profile) (healthy : Bool) : Breakers :=
  if healthy then { breakers with rpcFailures := 0, rpcDown := false }
  else
    let rpcFailures := breakers.rpcFailures + 1
    { breakers with
      rpcFailures
      rpcDown := breakers.rpcDown || decide (profile.rpcTripAfter ≤ rpcFailures) }

def recordBalance (breakers : Breakers) (balance : Int) : Breakers :=
  { breakers with balanceBaseUnits := some balance }

def resetErrorWindow (breakers : Breakers) : Breakers := { breakers with outcomes := [] }

/-- The reason of a later check replaces the one of an earlier check. -/
def evaluate (breakers : Breakers) (profile : Profile) (spentToday : Int) : BreakerState :=
  let failures := breakers.outcomes.count false
  let state : BreakerState := {}
  let state := if breakers.outcomes.length = profile.errorRateWindow ∧
      profile.errorRateTripCount ≤ failures then
    { state with errorRateTripped := true, openReason := text "error-rate breaker is open" }
    else state
  let state := if breakers.rpcDown then
    { state with rpcDown := true, openReason := text "RPC breaker is open" } else state
  let state := if breakers.balanceBaseUnits.any (· < profile.haltBelow) then
    { state with balanceFloor := true, openReason := text "hot balance is below the halt floor" }
    else state
  if profile.globalDailyBudget < spentToday + profile.amountPerRequest then
    { state with budgetSpent := true, openReason := text "global daily budget is exhausted" }
  else state

section Evaluate

variable {breakers : Breakers} {profile : Profile} {spentToday : Int}

/-- What is spent today has no influence on the other breakers. -/
theorem evaluate_errorRateTripped : (breakers.evaluate profile spentToday).errorRateTripped =
    (breakers.evaluate profile 0).errorRateTripped := by
  simp only [evaluate, apply_ite BreakerState.errorRateTripped, ite_self]

theorem evaluate_rpcDown : (breakers.evaluate profile spentToday).rpcDown =
    (breakers.evaluate profile 0).rpcDown := by
  simp only [evaluate, apply_ite BreakerState.rpcDown, ite_self]

theorem evaluate_balanceFloor : (breakers.evaluate profile spentToday).balanceFloor =
    (breakers.evaluate profile 0).balanceFloor := by
  simp only [evaluate, apply_ite BreakerState.balanceFloor, ite_self]

/-- An open breaker has a reason. -/
theorem evaluate_openReason (tripped : (breakers.evaluate profile spentToday).errorRateTripped ∨
    (breakers.evaluate profile spentToday).rpcDown ∨
    (breakers.evaluate profile spentToday).balanceFloor) :
    (breakers.evaluate profile spentToday).openReason ≠ [] := by
  have reason (first second third fourth : Prop) [Decidable first] [Decidable second]
      [Decidable third] [Decidable fourth] (some : first ∨ second ∨ third) :
      (if fourth then text "global daily budget is exhausted"
      else if third then text "hot balance is below the halt floor"
      else if second then text "RPC breaker is open"
      else if first then text "error-rate breaker is open" else []) ≠ [] := by
    split_ifs <;> first | decide | simp_all
  simp only [evaluate, apply_ite BreakerState.errorRateTripped, apply_ite BreakerState.rpcDown,
    apply_ite BreakerState.balanceFloor, apply_ite BreakerState.openReason, ite_self] at tripped ⊢
  apply reason
  simpa using tripped

end Evaluate

end Breakers

end Torium.Faucet
