import Mathlib.Logic.Basic

/-!
# Machines that cannot be told apart

A machine performs operations one after the other; each changes its state and has
a result. Two states are replicas of one another when no sequence of operations
gives different results. The rule to show it is a relation that every operation
respects.
-/

namespace Replica

universe u v w

variable {σ : Type u} {ι : Type v} {ρ : Type w} (perform : σ → ι → σ × ρ)

/-- The final state and the results of a sequence of operations. -/
def performAll (s : σ) : List ι → σ × List ρ
  | [] => (s, [])
  | operation :: rest =>
    let next := perform s operation
    let final := performAll next.1 rest
    (final.1, next.2 :: final.2)

/-- A relation that every operation respects and no result tells apart. -/
structure Bisimulation (R : σ → σ → Prop) : Prop where
  next : ∀ {s t} (operation : ι), R s t → R (perform s operation).1 (perform t operation).1
  result : ∀ {s t} (operation : ι), R s t → (perform s operation).2 = (perform t operation).2

variable {perform} {s t : σ} {operations : List ι}

/-- Related states give the same results and stay related, whatever is performed. -/
theorem Bisimulation.performAll {R : σ → σ → Prop} (bisimulation : Bisimulation perform R)
    (operations : List ι) (related : R s t) :
    R (performAll perform s operations).1 (performAll perform t operations).1 ∧
      (performAll perform s operations).2 = (performAll perform t operations).2 := by
  induction operations generalizing s t with
  | nil => exact ⟨related, rfl⟩
  | cons operation rest ih =>
    obtain ⟨final, results⟩ := ih (bisimulation.next operation related)
    exact ⟨final, congrArg₂ List.cons (bisimulation.result operation related) results⟩

/-- An invariant that survives every operation with a good result holds at the end of
a sequence in which all results are good. -/
theorem performAll_invariant {I : σ → Prop} {good : ρ → Prop}
    (preserved : ∀ {s} (operation : ι), I s → good (perform s operation).2 →
      I (perform s operation).1)
    (start : I s) (fine : ∀ result ∈ (performAll perform s operations).2, good result) :
    I (performAll perform s operations).1 := by
  induction operations generalizing s with
  | nil => exact start
  | cons operation rest ih =>
    obtain ⟨first, later⟩ := List.forall_mem_cons.mp fine
    exact ih (preserved operation start first) later

end Replica
