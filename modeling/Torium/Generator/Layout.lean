import Torium.Generator.Normalized

/-!
# The array of the generator

Where the loops of `buildMerkleSumTree` put what: the leaves in the last places,
in the order of their hashes from the end, and in every inner place the join of
its two children. The proof stored for an index is the list of the nodes that
stand next to the way from its leaf to the root.
-/

namespace Torium.Generator

open Evm Function

section Leaves

variable {size position : Nat} {tree : Tree} {indexes : Text → Option Nat} {leaves : List Leaf}

theorem placeLeaves_tree_other {place : Nat}
    (other : ∀ j < leaves.length, place ≠ size - 1 - (position + j)) :
    (placeLeaves size position tree indexes leaves).1 place = tree place := by
  induction leaves generalizing position tree indexes with
  | nil => rfl
  | cons leaf rest ih =>
    have first := other 0 (Nat.succ_pos _)
    rw [Nat.add_zero] at first
    rw [placeLeaves, ih fun j less => ?_, update_of_ne first]
    have later := other (j + 1) (Nat.succ_lt_succ less)
    rwa [Nat.add_right_comm]

theorem placeLeaves_tree {j : Nat} {leaf : Leaf} (fits : position + leaves.length ≤ size)
    (at_j : leaves[j]? = some leaf) :
    (placeLeaves size position tree indexes leaves).1 (size - 1 - (position + j)) =
      some leaf.node := by
  induction leaves generalizing position tree indexes j with
  | nil => exact absurd at_j nofun
  | cons first rest ih =>
    rw [List.length_cons] at fits
    cases j with
    | zero =>
      obtain rfl : first = leaf := Option.some.inj at_j
      rw [placeLeaves, placeLeaves_tree_other fun j less => by omega]
      exact update_self _ _ _
    | succ j =>
      rw [placeLeaves, Nat.add_comm j, ← Nat.add_assoc]
      exact ih (by omega) at_j

theorem placeLeaves_indexes_other {key : Text} (other : key ∉ leaves.map Leaf.key) :
    (placeLeaves size position tree indexes leaves).2 key = indexes key := by
  induction leaves generalizing position tree indexes with
  | nil => rfl
  | cons leaf rest ih =>
    rw [List.map_cons, List.mem_cons, not_or] at other
    rw [placeLeaves, ih other.2, update_of_ne other.1]

theorem placeLeaves_indexes {j : Nat} {leaf : Leaf} (distinct : (leaves.map Leaf.key).Nodup)
    (at_j : leaves[j]? = some leaf) :
    (placeLeaves size position tree indexes leaves).2 leaf.key =
      some (size - 1 - (position + j)) := by
  induction leaves generalizing position tree indexes j with
  | nil => exact absurd at_j nofun
  | cons first rest ih =>
    rw [List.map_cons, List.nodup_cons] at distinct
    cases j with
    | zero =>
      obtain rfl : first = leaf := Option.some.inj at_j
      rw [placeLeaves, placeLeaves_indexes_other distinct.1]
      exact update_self _ _ _
    | succ j =>
      rw [placeLeaves, Nat.add_comm j, ← Nat.add_assoc]
      exact ih distinct.2 at_j

end Leaves

section All

variable {sorted : List Leaf} {inner j : Nat} {leaf : Leaf}

theorem placeAll_tree (length : sorted.length = inner + 1) (at_j : sorted[j]? = some leaf) :
    (placeAll sorted).1 (2 * inner - j) = some leaf.node := by
  rw [placeAll, length, show 2 * inner - j = 2 * (inner + 1) - 1 - 1 - (0 + j) by omega]
  exact placeLeaves_tree (by omega) at_j

theorem placeAll_indexes (length : sorted.length = inner + 1)
    (distinct : (sorted.map Leaf.key).Nodup) (at_j : sorted[j]? = some leaf) :
    (placeAll sorted).2 leaf.key = some (2 * inner - j) := by
  rw [placeAll, length, placeLeaves_indexes distinct at_j,
    show 2 * inner - j = 2 * (inner + 1) - 1 - 1 - (0 + j) by omega]

end All

/-- The loop over the inner places changes nothing from its start on, and leaves
the join of its children in every place before. -/
theorem combineAll_spec [Keccak] {inner : Nat} {tree tree' : Tree}
    (done : combineAll inner tree = .ok tree') :
    (∀ i, inner ≤ i → tree' i = tree i) ∧
    ∀ i < inner, ∃ first second node, tree' (2 * i + 1) = some first ∧
      tree' (2 * i + 2) = some second ∧ tree' i = some node ∧
      combine first second = .ok node := by
  induction inner generalizing tree with
  | zero =>
    obtain rfl := pure_eq_ok.mp done
    exact ⟨fun _ _ => rfl, nofun⟩
  | succ k ih =>
    simp only [combineAll, bind_eq_ok] at done
    obtain ⟨first, hfirst, second, hsecond, node, joined, rest⟩ := done
    obtain ⟨kept, built⟩ := ih rest
    have after (i) (above : k < i) : tree' i = tree i := by
      rw [kept i above.le, update_of_ne above.ne']
    refine ⟨fun i above => after i above, fun i below => ?_⟩
    rcases Nat.lt_succ_iff_lt_or_eq.mp below with earlier | rfl
    · exact built i earlier
    · refine ⟨first, second, node, ?_, ?_, ?_, joined⟩
      · rw [after _ (by omega), defined_eq_ok.mp hfirst]
      · rw [after _ (by omega), defined_eq_ok.mp hsecond]
      · rw [kept i (Nat.le_refl i), update_self]

section Combined

variable [Keccak] {sorted : List Leaf} {inner j : Nat} {leaf : Leaf} {tree : Tree}

/-- The leaves stay where they were placed. -/
theorem combined_leaf (length : sorted.length = inner + 1)
    (combined : combineAll inner (placeAll sorted).1 = .ok tree) (at_j : sorted[j]? = some leaf) :
    tree (2 * inner - j) = some leaf.node := by
  have bound : j < sorted.length := (List.getElem?_eq_some_iff.mp at_j).1
  rw [(combineAll_spec combined).1 _ (by omega), placeAll_tree length at_j]

/-- Afterwards no place of the array is a hole. -/
theorem combined_filled (length : sorted.length = inner + 1)
    (combined : combineAll inner (placeAll sorted).1 = .ok tree) {i : Nat}
    (inside : i ≤ 2 * inner) :
    ∃ node, tree i = some node := by
  rcases Nat.lt_or_ge i inner with below | above
  · obtain ⟨_, _, node, -, -, is, -⟩ := (combineAll_spec combined).2 i below
    exact ⟨node, is⟩
  · have bound : 2 * inner - i < sorted.length := by omega
    have is := combined_leaf length combined (List.getElem?_eq_getElem bound)
    rw [show 2 * inner - (2 * inner - i) = i by omega] at is
    exact ⟨_, is⟩

end Combined

/-- The proofs are stored under the keys of their leaves. -/
theorem collectProofs_spec {tree : Tree} {indexes : Text → Option Nat}
    {proofs proofs' : Text → Option (List Node)} {leaves : List Leaf}
    (distinct : (leaves.map Leaf.key).Nodup)
    (done : collectProofs tree indexes proofs leaves = .ok proofs') :
    (∀ key, key ∉ leaves.map Leaf.key → proofs' key = proofs key) ∧
    ∀ leaf ∈ leaves, ∃ treeIndex proof, indexes leaf.key = some treeIndex ∧
      collectProof tree treeIndex = .ok proof ∧ proofs' leaf.key = some proof := by
  induction leaves generalizing proofs with
  | nil =>
    obtain rfl := pure_eq_ok.mp done
    exact ⟨fun _ _ => rfl, nofun⟩
  | cons leaf rest ih =>
    rw [List.map_cons, List.nodup_cons] at distinct
    simp only [collectProofs, bind_eq_ok] at done
    obtain ⟨treeIndex, found, proof, collected, later⟩ := done
    obtain ⟨kept, stored⟩ := ih distinct.2 later
    refine ⟨fun key other => ?_, List.forall_mem_cons.mpr ⟨?_, stored⟩⟩
    · rw [List.map_cons, List.mem_cons, not_or] at other
      rw [kept key other.2, update_of_ne other.1]
    · refine ⟨treeIndex, proof, defined_eq_ok.mp found, collected, ?_⟩
      rw [kept _ distinct.1]
      exact update_self _ _ _

/-- A proof consists of the nodes at the places on the way up. -/
theorem collectProof_spec {tree : Tree} {treeIndex : Nat} {proof : List Node} {node : Nat → Node}
    (collected : collectProof tree treeIndex = .ok proof)
    (filled : ∀ i ∈ CompleteTree.wayUp treeIndex treeIndex, tree i = some (node i)) :
    proof = (CompleteTree.wayUp treeIndex treeIndex).map node := by
  have related := forall₂_of_mapM collected
  clear collected
  generalize CompleteTree.wayUp treeIndex treeIndex = places at related filled
  induction related with
  | nil => rfl
  | cons read _ ih =>
    obtain ⟨first, rest⟩ := List.forall_mem_cons.mp filled
    rw [first, defined_eq_ok, Option.some_inj] at read
    rw [List.map_cons, read, ← ih rest]

end Torium.Generator
