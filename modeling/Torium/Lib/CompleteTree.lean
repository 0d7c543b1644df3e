import Mathlib.Algebra.BigOperators.Intervals

/-!
# Complete binary trees in arrays

A tree with `n` leaves lies in an array of `2n - 1` places: the children of place
`i` are `2i + 1` and `2i + 2`, and the leaves are the last `n` places, for every
`n` and not only for powers of two. A place other than the root has a parent and
a sibling; the way up from a place is the list of the siblings met on it.

What is stored in the places and how two children make their parent is left
open. The joining relation need not be a function.
-/

namespace CompleteTree

universe u

def parent (i : Nat) : Nat := (i - 1) / 2

def sibling (i : Nat) : Nat := if i % 2 = 0 then i - 1 else i + 1

/-- The siblings met on the way from a place to the root. Each step goes to a
smaller place, so the place itself bounds the number of steps. -/
def wayUp : Nat → Nat → List Nat
  | 0, _ => []
  | fuel + 1, i => if i = 0 then [] else sibling i :: wayUp fuel (parent i)

variable {α : Type u}

/-- Folding siblings into a value, one after another, can end with the given value. -/
def Ascends (joins : α → α → α → Prop) : α → List α → α → Prop
  | a, [], b => a = b
  | a, s :: rest, b => ∃ c, joins a s c ∧ Ascends joins c rest b

/-- Both children of each inner place make their parent. -/
def Built (joins : α → α → α → Prop) (inner : Nat) (tree : Nat → α) : Prop :=
  ∀ i < inner, joins (tree (2 * i + 1)) (tree (2 * i + 2)) (tree i)

theorem parent_lt {i : Nat} (below : i ≠ 0) : parent i < i := by
  unfold parent
  omega

/-- A place below the root is one of the two children of its parent, its sibling
is the other. -/
theorem child_of_parent {i : Nat} (below : i ≠ 0) :
    (i = 2 * parent i + 1 ∧ sibling i = 2 * parent i + 2) ∨
      (i = 2 * parent i + 2 ∧ sibling i = 2 * parent i + 1) := by
  unfold parent sibling
  split <;> omega

variable {joins : α → α → α → Prop} {inner : Nat} {tree : Nat → α}

theorem Built.join (built : Built joins inner tree)
    (symmetric : ∀ {a b c}, joins a b c → joins b a c) {i : Nat} (below : i ≠ 0)
    (inside : i ≤ 2 * inner) : joins (tree i) (tree (sibling i)) (tree (parent i)) := by
  have place := child_of_parent below
  have joined := built (parent i) (by omega)
  rcases place with ⟨first, second⟩ | ⟨second, first⟩
  · rw [← first, ← second] at joined
    exact joined
  · rw [← first, ← second] at joined
    exact symmetric joined

/-- The way up from every place ends at the root. -/
theorem Built.ascends (built : Built joins inner tree)
    (symmetric : ∀ {a b c}, joins a b c → joins b a c) {fuel i : Nat} (enough : i ≤ fuel)
    (inside : i ≤ 2 * inner) : Ascends joins (tree i) ((wayUp fuel i).map tree) (tree 0) := by
  induction fuel generalizing i with
  | zero =>
    obtain rfl := Nat.le_zero.mp enough
    rfl
  | succ fuel ih =>
    by_cases root : i = 0
    · subst root
      rfl
    · have smaller := parent_lt root
      rw [wayUp, if_neg root]
      exact ⟨_, built.join symmetric root inside, ih (by omega) (by omega)⟩

/-- Places on a way up are places of the tree. -/
theorem wayUp_le {fuel i limit j : Nat} (inside : i ≤ 2 * limit) (member : j ∈ wayUp fuel i) :
    j ≤ 2 * limit := by
  induction fuel generalizing i with
  | zero => exact absurd member List.not_mem_nil
  | succ fuel ih =>
    unfold wayUp at member
    split at member
    · exact absurd member List.not_mem_nil
    · rename_i below
      have place := child_of_parent below
      rcases List.mem_cons.mp member with rfl | later
      · omega
      · exact ih (by omega) later

/-- Every level of a tree of sums adds up to its root. -/
theorem sum_leaves {weight : Nat → Nat} {inner : Nat}
    (adds : ∀ i < inner, weight i = weight (2 * i + 1) + weight (2 * i + 2)) :
    ∑ i ∈ Finset.Ico inner (2 * inner + 1), weight i = weight 0 := by
  induction inner with
  | zero => simp
  | succ k ih =>
    have before := ih fun i less => adds i (by omega)
    rw [Finset.sum_eq_sum_Ico_succ_bot (by omega)] at before
    rw [show 2 * (k + 1) + 1 = 2 * k + 1 + 1 + 1 by omega,
      Finset.sum_Ico_succ_top (by omega), Finset.sum_Ico_succ_top (by omega)]
    have node := adds k (by omega)
    omega

/-- The sum over the last places, when a list was placed there from the end. -/
theorem sum_from_end {weight : Nat → Nat} {list : List Nat} {top : Nat}
    (fits : list.length ≤ top + 1)
    (placed : ∀ j x, list[j]? = some x → weight (top - j) = x) :
    ∑ i ∈ Finset.Ico (top + 1 - list.length) (top + 1), weight i = list.sum := by
  induction list generalizing top with
  | nil => simp
  | cons x rest ih =>
    have last : weight top = x := placed 0 x rfl
    rw [List.length_cons] at fits ⊢
    rw [Finset.sum_Ico_succ_top (by omega), last, List.sum_cons, Nat.add_comm x]
    congr 1
    cases top with
    | zero =>
      obtain rfl := List.length_eq_zero_iff.mp (show rest.length = 0 by omega)
      simp
    | succ top =>
      rw [Nat.add_sub_add_right]
      refine ih (by omega) fun j y at_j => ?_
      rw [← Nat.add_sub_add_right top 1 j]
      exact placed (j + 1) y at_j

end CompleteTree
