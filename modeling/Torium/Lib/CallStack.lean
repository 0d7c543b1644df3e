import Torium.Lib.Transition

/-!
# Nested calls with rollback

A contract that calls out can be called again before that call returns, and a
call that fails takes back everything that happened since it began. The state is
the current world with the stack of the open calls; each of them remembers the
world in which it began. Calls nest to any depth.

An invariant may depend on the open calls. It has to hold in the current world
and also in every remembered one below its own part of the stack, since each of
them may become current again. With that, a rollback never needs an argument.
-/

namespace CallStack

universe u v

/-- An open call and the world in which it began. -/
structure Open (F : Type u) (W : Type v) where
  frame : F
  saved : W

structure State (F : Type u) (W : Type v) where
  current : W
  stack : List (Open F W) := []

/-- What a system does between calls, when it calls out, and when a call
returns with success. -/
structure Rules (F : Type u) (W : Type v) where
  act : List (Open F W) → W → W → Prop
  call : W → F → W → Prop
  commit : F → W → W → Prop

variable {F : Type u} {W : Type v}

inductive Step (rules : Rules F W) : State F W → State F W → Prop where
  | stay {m} : Step rules m m
  | act {stack w w'} : rules.act stack w w' → Step rules ⟨w, stack⟩ ⟨w', stack⟩
  | call {stack w f w'} : rules.call w f w' → Step rules ⟨w, stack⟩ ⟨w', ⟨f, w⟩ :: stack⟩
  | commit {stack w f saved w'} : rules.commit f w w' →
      Step rules ⟨w, ⟨f, saved⟩ :: stack⟩ ⟨w', stack⟩
  | rollback {stack w f saved} : Step rules ⟨w, ⟨f, saved⟩ :: stack⟩ ⟨saved, stack⟩

/-- A property of the open calls and a world. -/
abbrev Assertion (F : Type u) (W : Type v) := List (Open F W) → W → Prop

/-- The assertion holds in the current world and in every remembered one. -/
def HoldsOver (I : Assertion F W) (w : W) : List (Open F W) → Prop
  | [] => I [] w
  | o :: stack => I (o :: stack) w ∧ HoldsOver I o.saved stack

def Holds (I : Assertion F W) (m : State F W) : Prop := HoldsOver I m.current m.stack

/-- The three obligations for an assertion, given one that is already known. -/
structure Preserved (rules : Rules F W) (known I : Assertion F W) : Prop where
  act {stack w w'} : known stack w → I stack w → rules.act stack w w' → I stack w'
  call {stack w f w'} : known stack w → I stack w → rules.call w f w' → I (⟨f, w⟩ :: stack) w'
  commit {stack f saved w w'} : known (⟨f, saved⟩ :: stack) w → I (⟨f, saved⟩ :: stack) w →
    rules.commit f w w' → I stack w'

variable {rules : Rules F W} {known I J : Assertion F W} {m m' : State F W}
variable {stack : List (Open F W)}

theorem HoldsOver.top {w : W} (holds : HoldsOver I w stack) :
    I stack w := by
  cases stack with
  | nil => exact holds
  | cons o stack => exact holds.1

/-- Replace the current world; the remembered ones stay. -/
theorem HoldsOver.replace {w w' : W} (holds : HoldsOver I w stack) (top : I stack w') :
    HoldsOver I w' stack := by
  cases stack with
  | nil => exact top
  | cons o stack => exact ⟨top, holds.2⟩

theorem HoldsOver.and {w : W} (first : HoldsOver I w stack) (second : HoldsOver J w stack) :
    HoldsOver (fun stack w => I stack w ∧ J stack w) w stack := by
  induction stack generalizing w with
  | nil => exact ⟨first, second⟩
  | cons o stack ih => exact ⟨⟨first.1, second.1⟩, ih first.2 second.2⟩

theorem HoldsOver.of_forall {w : W} (always : ∀ stack w, I stack w) :
    HoldsOver I w stack := by
  induction stack generalizing w with
  | nil => exact always [] w
  | cons o stack ih => exact ⟨always _ w, ih⟩

theorem Holds.top (holds : Holds I m) : I m.stack m.current := HoldsOver.top holds

theorem Holds.and (first : Holds I m) (second : Holds J m) :
    Holds (fun stack w => I stack w ∧ J stack w) m := HoldsOver.and first second

/-- One step of the system, with nested calls and rollback. -/
theorem Preserved.step (preserved : Preserved rules known I) (taken : Step rules m m')
    (sure : Holds known m) (holds : Holds I m) : Holds I m' := by
  cases taken with
  | stay => exact holds
  | act does => exact HoldsOver.replace holds (preserved.act sure.top holds.top does)
  | call does => exact ⟨preserved.call sure.top holds.top does, holds⟩
  | commit does => exact HoldsOver.replace holds.2 (preserved.commit sure.top holds.top does)
  | rollback => exact holds.2

end CallStack
