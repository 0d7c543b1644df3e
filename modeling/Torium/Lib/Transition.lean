import Mathlib.Logic.Basic

/-!
# Runs of labelled transition systems

A label carries everything the environment decides at one step, so a step is a
partial function of the state and its label. A label the system cannot take in
a state yields `none`; it does not stutter.

`Run step allowed ls s t` is a finite run from `s` to `t`. The predicate
`allowed` restricts the labels at the states they are taken in, so a theorem
about every run and a theorem about the runs that avoid some step are the same
kind of statement. The executable runner is proved equivalent to the free run.
-/

namespace Transition

universe u v

variable {σ : Type u} {ℓ : Type v} {ls : List ℓ} {step : σ → ℓ → Option σ}

/-- A finite run whose every label is admitted at the state it is taken in. -/
inductive Run (step : σ → ℓ → Option σ) (allowed : σ → ℓ → Prop) : List ℓ → σ → σ → Prop where
  | refl (s) : Run step allowed [] s s
  | cons {l ls s u t} : allowed s l → step s l = some u → Run step allowed ls u t →
      Run step allowed (l :: ls) s t

/-- No restriction on the labels. -/
def Free (_ : σ) (_ : ℓ) : Prop := True

/-- States at the end of some unrestricted run from an initial state. -/
def Reachable (step : σ → ℓ → Option σ) (init : σ → Prop) (t : σ) : Prop :=
  ∃ s ls, init s ∧ Run step Free ls s t

namespace Run

variable {allowed allowed' : σ → ℓ → Prop}
variable {ls' : List ℓ} {s t u : σ}

theorem single {l : ℓ} (admitted : allowed s l) (taken : step s l = some t) :
    Run step allowed [l] s t := .cons admitted taken (.refl t)

/-- Runs compose at their common state. -/
theorem trans (first : Run step allowed ls s t) (second : Run step allowed ls' t u) :
    Run step allowed (ls ++ ls') s u := by
  induction first with
  | refl => exact second
  | cons admitted taken _ ih => exact .cons admitted taken (ih second)

/-- A run stays one when more labels are admitted. -/
theorem mono (run : Run step allowed ls s t) (implies : ∀ s l, allowed s l → allowed' s l) :
    Run step allowed' ls s t := by
  induction run with
  | refl => exact .refl _
  | cons admitted taken _ ih => exact .cons (implies _ _ admitted) taken ih

/-- The invariant rule: what holds at the start and survives each admitted step
holds at the end. -/
theorem invariant {I : σ → Prop} (run : Run step allowed ls s t) (start : I s)
    (preserved : ∀ {s l t}, I s → allowed s l → step s l = some t → I t) : I t := by
  induction run with
  | refl => exact start
  | cons admitted taken _ ih => exact ih (preserved start admitted taken)

end Run

namespace Reachable

variable {init : σ → Prop} {s t : σ}

theorem start (initial : init s) : Reachable step init s := ⟨s, [], initial, .refl s⟩

theorem run (reached : Reachable step init s) (run : Run step Free ls s t) :
    Reachable step init t := by
  obtain ⟨s₀, ls₀, initial, before⟩ := reached
  exact ⟨s₀, ls₀ ++ ls, initial, before.trans run⟩

theorem next {l : ℓ} (reached : Reachable step init s) (taken : step s l = some t) :
    Reachable step init t := reached.run (.single trivial taken)

theorem invariant {I : σ → Prop} (reached : Reachable step init t)
    (start : ∀ {s}, init s → I s) (preserved : ∀ {s l t}, I s → step s l = some t → I t) :
    I t := by
  obtain ⟨s, ls, initial, run⟩ := reached
  exact run.invariant (start initial) fun hi _ taken => preserved hi taken

end Reachable

/-- Take the given labels one after another; `none` when one of them is refused. -/
def execute (step : σ → ℓ → Option σ) : List ℓ → σ → Option σ
  | [], s => some s
  | l :: ls, s => (step s l).bind (execute step ls)

theorem execute_iff {s t : σ} :
    execute step ls s = some t ↔ Run step Free ls s t := by
  constructor
  · intro h
    induction ls generalizing s with
    | nil =>
      cases h
      exact .refl _
    | cons l ls ih =>
      obtain ⟨u, taken, rest⟩ := Option.bind_eq_some_iff.mp h
      exact .cons trivial taken (ih rest)
  · intro h
    induction h with
    | refl => rfl
    | cons _ taken _ ih => simpa only [execute, taken, Option.bind_some] using ih

/-- Evaluating the runner gives a concrete run. -/
theorem run_of_execute_any {s : σ} {P : σ → Bool} (evaluated : (execute step ls s).any P) :
    ∃ t, Run step Free ls s t ∧ P t := by
  obtain ⟨t, taken, holds⟩ := (Option.any_eq_true _ _).mp evaluated
  exact ⟨t, execute_iff.mp taken, holds⟩

/-- Steps that are not admitted are refused. -/
def restrict (step : σ → ℓ → Option σ) (allowed : σ → ℓ → Prop) [∀ s l, Decidable (allowed s l)]
    (s : σ) (l : ℓ) : Option σ :=
  if allowed s l then step s l else none

theorem Run.of_restrict {allowed : σ → ℓ → Prop} [∀ s l, Decidable (allowed s l)] {s t : σ}
    (run : Run (restrict step allowed) Free ls s t) : Run step allowed ls s t := by
  induction run with
  | refl => exact .refl _
  | cons _ taken _ ih =>
    obtain ⟨admitted, taken⟩ := Option.ite_none_right_eq_some.mp taken
    exact .cons admitted taken ih

end Transition
