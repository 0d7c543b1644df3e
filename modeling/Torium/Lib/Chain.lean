import Mathlib.Logic.Basic

/-!
# Walks along a successor pointer

`next a` is the element that `a` points to, if any. When a rank strictly grows
along the pointer and is bounded, every walk ends. The end is unique because
the pointer is a function.
-/

namespace Chain

universe u

variable {α : Type u} (next : α → Option α)

/-- The element `n` pointers away, when there are that many. -/
def follow : Nat → α → Option α
  | 0, a => some a
  | n + 1, a => (next a).bind (follow n)

theorem follow_succ_of_next {a b : α} (h : next a = some b) (n : Nat) :
    follow next (n + 1) a = follow next n b := by
  simp [follow, h]

theorem follow_succ (n : Nat) (a : α) : follow next (n + 1) a = (follow next n a).bind next := by
  induction n generalizing a with
  | zero => cases h : next a <;> simp [follow, h]
  | succ n ih =>
    cases h : next a with
    | none => simp [follow, h]
    | some b => simp only [follow_succ_of_next next h, ih b]

variable {next}

/-- Every element on the walk satisfies what the pointer preserves. -/
theorem follow_invariant {P : α → Prop} (preserved : ∀ {a b}, P a → next a = some b → P b)
    {n : Nat} {a b : α} (start : P a) (walk : follow next n a = some b) : P b := by
  induction n generalizing a with
  | zero =>
    cases walk
    exact start
  | succ n ih =>
    obtain ⟨c, pointer, rest⟩ := Option.bind_eq_some_iff.mp walk
    exact ih (preserved start pointer) rest

/-- A bounded rank that grows along the pointer makes every walk end. -/
theorem exists_end {P : α → Prop} (rank : α → Nat) (bound : Nat)
    (preserved : ∀ {a b}, P a → next a = some b → P b)
    (grows : ∀ {a b}, P a → next a = some b → rank a < rank b)
    (bounded : ∀ {a}, P a → rank a ≤ bound) {a : α} (start : P a) :
    ∃ n b, follow next n a = some b ∧ next b = none := by
  induction left : bound - rank a using Nat.strongRecOn generalizing a with
  | ind left ih =>
    cases pointer : next a with
    | none => exact ⟨0, a, rfl, pointer⟩
    | some b =>
      have grown := grows start pointer
      have fits := bounded (preserved start pointer)
      obtain ⟨n, c, walk, stopped⟩ :=
        ih (bound - rank b) (by omega) (preserved start pointer) rfl
      exact ⟨n + 1, c, (follow_succ_of_next next pointer n).trans walk, stopped⟩

/-- Two walks from one element that cannot go on have reached the same end. -/
theorem end_unique {m n : Nat} {a b c : α} (first : follow next m a = some b)
    (second : follow next n a = some c) (hb : next b = none) (hc : next c = none) : b = c := by
  induction m generalizing a n with
  | zero =>
    cases first
    cases n with
    | zero => exact Option.some.inj second
    | succ n => simp [follow, hb] at second
  | succ m ih =>
    obtain ⟨d, pointer, rest⟩ := Option.bind_eq_some_iff.mp first
    cases n with
    | zero =>
      cases second
      simp [hc] at pointer
    | succ n => exact ih rest (by simpa only [follow_succ_of_next next pointer] using second)

end Chain
