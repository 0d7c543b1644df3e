import Torium.Faucet.Breakers
import Torium.Faucet.Budget
import Torium.Faucet.Restart
import Mathlib.Data.List.DropRight

/-!
# Breakers and their history

The breakers keep a window of outcomes and a count of failed probes. What they say is
determined by the calls that were made: by the latest outcomes since the window was reset,
and by the latest probes.
-/

namespace List

variable {α : Type}

theorem rtake_rtake_concat (l : List α) (x : α) (n : Nat) :
    (l.rtake n ++ [x]).rtake n = (l ++ [x]).rtake n := by
  cases n with
  | zero => rw [rtake_zero, rtake_zero]
  | succ n =>
    rw [rtake_concat_succ, rtake_concat_succ]
    simp [rtake_eq_reverse_take_reverse, take_take]

theorem le_length_takeWhile {p : α → Bool} {l : List α} {n : Nat} :
    n ≤ (l.takeWhile p).length ↔ n ≤ l.length ∧ ∀ x ∈ l.take n, p x := by
  induction l generalizing n with
  | nil => simp
  | cons first rest ih =>
    cases n with
    | zero => simp
    | succ n =>
      rw [takeWhile_cons]
      split
      · next holds => simp [ih, holds]
      · next fails => simp [fails]

/-- So many elements at the end satisfy a condition when the longest such end is long enough. -/
theorem le_length_rtakeWhile {p : α → Bool} {l : List α} {n : Nat} :
    n ≤ (l.rtakeWhile p).length ↔ n ≤ l.length ∧ ∀ x ∈ l.rtake n, p x := by
  simp [rtakeWhile, rtake_eq_reverse_take_reverse, le_length_takeWhile]

end List

namespace Torium.Faucet

/-! ## Calls -/

inductive BreakerCall where
  | recordOutcome (success : Bool)
  | recordRPCProbe (healthy : Bool)
  | recordBalance (balance : Int)
  | resetErrorWindow
  deriving DecidableEq

namespace BreakerCall

def outcome? : BreakerCall → Option Bool
  | .recordOutcome success => some success
  | _ => none

def probe? : BreakerCall → Option Bool
  | .recordRPCProbe healthy => some healthy
  | _ => none

end BreakerCall

/-- The outcomes that were recorded since the window was last reset. -/
def outcomesSinceReset (calls : List BreakerCall) : List Bool :=
  (calls.rtakeWhile fun call => call ≠ .resetErrorWindow).filterMap BreakerCall.outcome?

/-- The probes that were recorded. -/
def recordedProbes (calls : List BreakerCall) : List Bool := calls.filterMap BreakerCall.probe?

namespace Breakers

def perform (profile : Profile) (breakers : Breakers) : BreakerCall → Breakers
  | .recordOutcome success => breakers.recordOutcome profile success
  | .recordRPCProbe healthy => breakers.recordRPCProbe profile healthy
  | .recordBalance balance => breakers.recordBalance balance
  | .resetErrorWindow => breakers.resetErrorWindow

/-- The breakers after some calls. -/
def after (profile : Profile) (calls : List BreakerCall) : Breakers :=
  calls.foldl (perform profile) {}

/-- What the breakers remember of the calls. -/
structure Remembers (profile : Profile) (breakers : Breakers) (calls : List BreakerCall) :
    Prop where
  outcomes : breakers.outcomes = (outcomesSinceReset calls).rtake profile.errorRateWindow
  rpcFailures : breakers.rpcFailures = ((recordedProbes calls).rtakeWhile (!·)).length
  rpcDown : breakers.rpcDown = decide (profile.rpcTripAfter ≤ breakers.rpcFailures)

section History

variable {profile : Profile} {breakers : Breakers} {calls : List BreakerCall}

namespace Remembers

theorem start (positive : 0 < profile.rpcTripAfter) : Remembers profile {} [] where
  outcomes := by simp [outcomesSinceReset]
  rpcFailures := by simp [recordedProbes]
  rpcDown := (decide_eq_false (Nat.not_le.mpr positive)).symm

section

variable (remembers : Remembers profile breakers calls)

include remembers

theorem recordOutcome (success : Bool) :
    Remembers profile (breakers.recordOutcome profile success)
      (calls ++ [.recordOutcome success]) where
  outcomes := by
    have latest : outcomesSinceReset (calls ++ [.recordOutcome success]) =
        outcomesSinceReset calls ++ [success] := by
      rw [outcomesSinceReset, List.rtakeWhile_concat_pos _ _ _ (by simp), List.filterMap_append]
      rfl
    rw [latest, ← List.rtake_rtake_concat, ← remembers.outcomes]
    rfl
  rpcFailures := by
    rw [recordedProbes, List.filterMap_append]
    exact (List.append_nil (recordedProbes calls)).symm ▸ remembers.rpcFailures
  rpcDown := remembers.rpcDown

theorem recordRPCProbe (positive : 0 < profile.rpcTripAfter) (healthy : Bool) :
    Remembers profile (breakers.recordRPCProbe profile healthy)
      (calls ++ [.recordRPCProbe healthy]) := by
  have latest : recordedProbes (calls ++ [.recordRPCProbe healthy]) =
      recordedProbes calls ++ [healthy] := List.filterMap_append
  have same : outcomesSinceReset (calls ++ [.recordRPCProbe healthy]) =
      outcomesSinceReset calls := by
    rw [outcomesSinceReset, List.rtakeWhile_concat_pos _ _ _ (by simp), List.filterMap_append]
    exact List.append_nil _
  cases healthy with
  | true =>
    refine ⟨same ▸ remembers.outcomes, ?_, (decide_eq_false (Nat.not_le.mpr positive)).symm⟩
    rw [latest, List.rtakeWhile_concat_neg _ _ _ (by simp)]
    rfl
  | false =>
    refine ⟨same ▸ remembers.outcomes, ?_, ?_⟩
    · rw [latest, List.rtakeWhile_concat_pos _ _ _ rfl, List.length_append, ← remembers.rpcFailures]
      rfl
    · -- The breaker stays open: the count only grows until a probe succeeds.
      change (breakers.rpcDown || _) = decide (profile.rpcTripAfter ≤ breakers.rpcFailures + 1)
      rw [remembers.rpcDown, ← Bool.decide_or]
      exact decide_eq_decide.mpr (by omega)

theorem recordBalance (balance : Int) :
    Remembers profile (breakers.recordBalance balance) (calls ++ [.recordBalance balance]) where
  outcomes := by
    rw [outcomesSinceReset, List.rtakeWhile_concat_pos _ _ _ (by simp), List.filterMap_append]
    exact (List.append_nil (outcomesSinceReset calls)).symm ▸ remembers.outcomes
  rpcFailures := by
    rw [recordedProbes, List.filterMap_append]
    exact (List.append_nil (recordedProbes calls)).symm ▸ remembers.rpcFailures
  rpcDown := remembers.rpcDown

theorem resetErrorWindow :
    Remembers profile breakers.resetErrorWindow (calls ++ [.resetErrorWindow]) where
  outcomes := by
    rw [outcomesSinceReset, List.rtakeWhile_concat_neg _ _ _ (by simp)]
    simp [Breakers.resetErrorWindow]
  rpcFailures := by
    rw [recordedProbes, List.filterMap_append]
    exact (List.append_nil (recordedProbes calls)).symm ▸ remembers.rpcFailures
  rpcDown := remembers.rpcDown

/-- One more call is remembered. -/
theorem perform (positive : 0 < profile.rpcTripAfter) (call : BreakerCall) :
    Remembers profile (breakers.perform profile call) (calls ++ [call]) := by
  cases call with
  | recordOutcome success => exact remembers.recordOutcome success
  | recordRPCProbe healthy => exact remembers.recordRPCProbe positive healthy
  | recordBalance balance => exact remembers.recordBalance balance
  | resetErrorWindow => exact remembers.resetErrorWindow

end

theorem after (positive : 0 < profile.rpcTripAfter) (calls : List BreakerCall) :
    Remembers profile (Breakers.after profile calls) calls := by
  induction calls using List.reverseRecOn with
  | nil => exact start positive
  | append_singleton calls call ih =>
    rw [Breakers.after, List.foldl_append]
    exact ih.perform positive call

end Remembers

theorem evaluate_errorRateTripped_iff {spentToday : Int} :
    (breakers.evaluate profile spentToday).errorRateTripped = true ↔
      breakers.outcomes.length = profile.errorRateWindow ∧
        profile.errorRateTripCount ≤ breakers.outcomes.count false := by
  simp only [evaluate, apply_ite BreakerState.errorRateTripped, ite_self]
  split_ifs with tripped <;> simp [tripped]

theorem evaluate_rpcDown_iff {spentToday : Int} :
    (breakers.evaluate profile spentToday).rpcDown = true ↔ breakers.rpcDown = true := by
  simp only [evaluate, apply_ite BreakerState.rpcDown, ite_self]
  split_ifs with down <;> simp [down]

end History

end Breakers

/-- After any calls, the error-rate breaker is open exactly when enough outcomes were recorded
since the last reset and enough of the latest ones were failures, and the RPC breaker exactly
when the latest probes all failed. -/
theorem breakers_follow_history {profile : Profile} (valid : profile.Valid)
    (calls : List BreakerCall) (spentToday : Int) :
    (((Breakers.after profile calls).evaluate profile spentToday).errorRateTripped = true ↔
      profile.errorRateWindow ≤ (outcomesSinceReset calls).length ∧
        profile.errorRateTripCount ≤
          ((outcomesSinceReset calls).rtake profile.errorRateWindow).count false) ∧
    (((Breakers.after profile calls).evaluate profile spentToday).rpcDown = true ↔
      profile.rpcTripAfter ≤ (recordedProbes calls).length ∧
        ∀ healthy ∈ (recordedProbes calls).rtake profile.rpcTripAfter, healthy = false) := by
  have remembers := Breakers.Remembers.after valid.rpcTripAfter calls
  constructor
  · rw [Breakers.evaluate_errorRateTripped_iff, remembers.outcomes]
    refine and_congr_left fun _ => ?_
    simp only [List.rtake, List.length_drop]
    omega
  · rw [Breakers.evaluate_rpcDown_iff, remembers.rpcDown, decide_eq_true_iff,
      remembers.rpcFailures, List.le_length_rtakeWhile]
    simp

namespace Demo

/-- Failures before a reset, ten outcomes after it, and three failed probes. -/
def observed : List BreakerCall :=
  [.recordOutcome false, .recordRPCProbe true, .resetErrorWindow] ++
    List.replicate 5 (.recordOutcome true) ++ List.replicate 5 (.recordOutcome false) ++
    .recordBalance 5 :: List.replicate 3 (.recordRPCProbe false)

end Demo

theorem breakers_follow_history_demo :
    Demo.profile.Valid ∧
    ((Breakers.after Demo.profile Demo.observed).evaluate Demo.profile 0).errorRateTripped = true ∧
    ((Breakers.after Demo.profile Demo.observed).evaluate Demo.profile 0).rpcDown = true := by
  have valid : Demo.profile.Valid := by
    constructor <;> decide
  obtain ⟨errorRate, rpc⟩ := breakers_follow_history valid Demo.observed 0
  exact ⟨valid, errorRate.mpr (by decide), rpc.mpr (by decide)⟩

end Torium.Faucet
