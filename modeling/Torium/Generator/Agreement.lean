import Torium.Generator.Layout
import Torium.Rewards.MerkleSum

/-!
# The generator agrees with the contract

The generator joins two nodes of its array, the contract joins a running pair
with the next sibling of a proof. One join is the same on both sides, whichever
of the two nodes comes first. From there the way up through the array, for any
number of leaves, is the loop of the contract.
-/

namespace Torium.Generator

open Evm

theorem compareHash_eq (left right : Bytes32) :
    compareHash left right = compare left.toNat right.toNat :=
  compareBytes_wordBytes left right

theorem compareHash_ne_gt {left right : Bytes32} :
    compareHash left right ≠ .gt ↔ left < right ∨ left = right := by
  rw [compareHash_eq, Nat.compare_ne_gt, BitVec.lt_def, ← BitVec.toNat_inj]
  omega

theorem compareHash_eq_eq {left right : Bytes32} : compareHash left right = .eq ↔ left = right := by
  rw [compareHash_eq, Nat.compare_eq_eq, BitVec.toNat_inj]

theorem encodeUint256_eq_ok {n : Nat} {w : Word} :
    encodeUint256 n = .ok w ↔ n ≤ UINT256_MAX ∧ BitVec.ofNat 256 n = w := by
  simp only [encodeUint256, bind_eq_ok, revertIf_eq_ok, pure_eq_ok, Nat.not_lt]
  constructor
  · rintro ⟨-, fits, same⟩
    exact ⟨fits, same⟩
  · rintro ⟨fits, same⟩
    exact ⟨(), fits, same⟩

theorem toNat_ofNat_of_le {n : Nat} (fits : n ≤ UINT256_MAX) : (BitVec.ofNat 256 n).toNat = n := by
  rw [BitVec.toNat_ofNat]
  exact Nat.mod_eq_of_lt (Nat.lt_of_le_pred (by decide) fits)

/-- A node of the generator as an argument of the contract. -/
def Node.onChain (node : Node) : Rewards.ProofNode := ⟨node.hash, BitVec.ofNat 256 node.sum⟩

/-! ## Reading a fixture -/

/-- A decimal text as an argument of the contract. -/
def uint256 (text : Text) : Option Word :=
  if Decimal.value text ≤ UINT256_MAX then some (BitVec.ofNat 256 (Decimal.value text)) else none

/-- A proof node of the fixture as an argument. -/
def FixtureNode.onChain (sibling : FixtureNode) : Option Rewards.ProofNode :=
  (uint256 sibling.sum).map fun sum => ⟨sibling.hash, sum⟩

/-- An entry of the fixture as the arguments of a call. -/
def FixtureClaim.call (lib : AddressLibrary) (entry : FixtureClaim) : Option Rewards.Claim := do
  let index ← uint256 entry.index
  let account ← lib.encodeAddress entry.account
  let amount ← uint256 entry.amount
  let proof ← entry.proof.mapM FixtureNode.onChain
  pure { index, account, amount, proof }

theorem uint256_decimal {n : Nat} (fits : n ≤ UINT256_MAX) :
    uint256 (decimal n) = some (BitVec.ofNat 256 n) := by
  rw [uint256, decimal, Decimal.value_toDigits, if_pos fits]

variable {proof : List Node} {leaf : Leaf} {proofs : Text → Option (List Node)} {leaves : List Leaf}

theorem mapM_onChain (fits : ∀ s ∈ proof, s.sum ≤ UINT256_MAX) :
    (proof.map FixtureNode.ofNode).mapM FixtureNode.onChain = some (proof.map Node.onChain) := by
  induction proof with
  | nil => rfl
  | cons s rest ih =>
    obtain ⟨first, later⟩ := List.forall_mem_cons.mp fits
    have node : (FixtureNode.ofNode s).onChain = some s.onChain := by
      rw [FixtureNode.onChain, FixtureNode.ofNode, uint256_decimal first]
      rfl
    rw [List.map_cons, List.mapM_cons, node, ih later]
    rfl

theorem fixtureClaim_spec {entry : FixtureClaim} (emitted : fixtureClaim proofs leaf = .ok entry) :
    ∃ proof, proofs leaf.key = some proof ∧
      entry = { index := decimal leaf.claim.index, account := leaf.claim.account
                amount := decimal leaf.claim.amount, leafHash := leaf.node.hash
                leafSum := decimal leaf.node.sum, proof := proof.map .ofNode } := by
  simp only [fixtureClaim, bind_eq_ok, pure_eq_ok] at emitted
  obtain ⟨proof, found, rfl⟩ := emitted
  exact ⟨proof, defined_eq_ok.mp found, rfl⟩

theorem entries_spec {entries : List FixtureClaim}
    (emitted : List.Forall₂ (fun leaf entry => fixtureClaim proofs leaf = .ok entry)
      leaves entries) :
    (entries.map fun entry => (entry.index, entry.account, entry.amount)) =
      leaves.map fun leaf =>
        (decimal leaf.claim.index, leaf.claim.account, decimal leaf.claim.amount) := by
  induction emitted with
  | nil => rfl
  | cons first _ ih =>
    obtain ⟨_, -, rfl⟩ := fixtureClaim_spec first
    exact congrArg₂ _ rfl ih

/-! ## Joins -/

section Joins

variable [Keccak]

/-- One join of the generator: the bound on the sum, and the words that are hashed. -/
theorem combine_eq_ok {first second node : Node} (joined : combine first second = .ok node) :
    node.sum = first.sum + second.sum ∧ node.sum ≤ UINT256_MAX ∧
    (first.hash = second.hash → first.sum = second.sum) ∧
    node.hash = keccak256 (abiEncode (Rewards.nodeWords first.hash (BitVec.ofNat 256 first.sum)
      second.hash (BitVec.ofNat 256 second.sum))) := by
  simp only [combine, checkedAdd, bind_eq_ok, revertIf_eq_ok, pure_eq_ok, encodeUint256_eq_ok,
    Nat.not_lt, not_and, not_not, compareHash_ne_gt, compareHash_eq_eq] at joined
  obtain ⟨-, unambiguous, sum, ⟨-, bounded, rfl⟩, leftSum, ⟨-, rfl⟩, rightSum, ⟨-, rfl⟩, rfl⟩ :=
    joined
  unfold Rewards.nodeWords
  by_cases order : first.hash < second.hash ∨ first.hash = second.hash
  · simp only [if_pos order] at bounded ⊢
    exact ⟨trivial, bounded, unambiguous, trivial⟩
  · simp only [if_neg order] at bounded ⊢
    exact ⟨Nat.add_comm _ _, bounded, unambiguous, trivial⟩

/-- A join does not depend on which of the two nodes comes first. -/
theorem combine_symm {first second node : Node} (joined : combine first second = .ok node) :
    combine second first = .ok node := by
  by_cases same : first.hash = second.hash
  · have sums := (combine_eq_ok joined).2.2.1 same
    obtain rfl : first = second := by
      cases first
      cases second
      simp_all
    exact joined
  · have apart : first.hash.toNat ≠ second.hash.toNat := fun eq => same (BitVec.eq_of_toNat_eq eq)
    have first_eq : compareHash second.hash first.hash ≠ .eq := fun eq =>
      same (compareHash_eq_eq.mp eq).symm
    have other_eq : compareHash first.hash second.hash ≠ .eq := fun eq =>
      same (compareHash_eq_eq.mp eq)
    have swapped : (compareHash second.hash first.hash ≠ .gt) ↔
        ¬compareHash first.hash second.hash ≠ .gt := by
      rw [compareHash_eq, compareHash_eq, Nat.compare_ne_gt, Nat.compare_ne_gt]
      omega
    rw [← joined]
    unfold combine
    by_cases order : compareHash first.hash second.hash ≠ .gt
    · simp [swapped, order, first_eq, other_eq]
    · simp [swapped, order, first_eq, other_eq]

/-- One join of the generator is one step of the contract. -/
theorem hashNode_eq_of_combine {first second node : Node}
    (joined : combine first second = .ok node) :
    Rewards.hashNode first.hash (BitVec.ofNat 256 first.sum) second.hash
      (BitVec.ofNat 256 second.sum) = .ok (node.hash, BitVec.ofNat 256 node.sum) := by
  obtain ⟨sum, bounded, -, hash⟩ := combine_eq_ok joined
  simp only [Rewards.hashNode, bind_eq_ok, orRevert_eq_ok, pure_eq_ok, Prod.mk.injEq, hash]
  refine ⟨_, checkedAdd_eq_some.mpr ?_, trivial, rfl⟩
  rw [toNat_ofNat_of_le (by omega), toNat_ofNat_of_le (by omega), toNat_ofNat_of_le bounded, sum]

/-- The relation that the array of the generator is built by. -/
def Joins (first second node : Node) : Prop := combine first second = .ok node

/-- Going up by joins, the contract computes the same pair at every step. -/
theorem climb_of_ascends {node root : Node} {proofIndex : Nat}
    (ascends : CompleteTree.Ascends Joins node proof root) (hashes : ∀ s ∈ proof, s.hash ≠ 0)
    (sums : ∀ s ∈ proof, 0 < s.sum ∧ s.sum ≤ UINT256_MAX) :
    Rewards.climb proofIndex node.hash (BitVec.ofNat 256 node.sum) (proof.map Node.onChain) =
      .ok (root.hash, BitVec.ofNat 256 root.sum) := by
  induction proof generalizing node proofIndex with
  | nil =>
    obtain rfl : node = root := ascends
    rfl
  | cons sibling rest ih =>
    obtain ⟨parent, joined, above⟩ := ascends
    obtain ⟨hash, hashes⟩ := List.forall_mem_cons.mp hashes
    obtain ⟨⟨positive, fits⟩, sums⟩ := List.forall_mem_cons.mp sums
    simp only [List.map_cons, Rewards.climb, bind_eq_ok, revertIf_eq_ok]
    refine ⟨(), ?_, _, hashNode_eq_of_combine joined, ih above hashes sums⟩
    rintro (zero | zero)
    · exact hash zero
    · have value := congrArg BitVec.toNat zero
      rw [Node.onChain, toNat_ofNat_of_le fits] at value
      exact positive.ne' value

/-- The array that a run of `buildMerkleSumTree` leaves behind. -/
structure Layout (leaves : List Leaf) (root : Node) (proofs : Text → Option (List Node))
    (sorted : List Leaf) (inner : Nat) (node : Nat → Node) : Prop where
  perm : sorted.Perm leaves
  length : sorted.length = inner + 1
  built : CompleteTree.Built Joins inner node
  root : node 0 = root
  leaf {j : Nat} {leaf : Leaf} : sorted[j]? = some leaf → node (2 * inner - j) = leaf.node
  proof : ∀ leaf ∈ leaves, ∃ place ≤ 2 * inner, node place = leaf.node ∧
    proofs leaf.key = some ((CompleteTree.wayUp place place).map node)

theorem buildMerkleSumTree_layout {root : Node} (distinct : (leaves.map Leaf.key).Nodup)
    (done : buildMerkleSumTree leaves = .ok (root, proofs)) :
    ∃ sorted inner node, Layout leaves root proofs sorted inner node := by
  simp only [buildMerkleSumTree, bind_eq_ok, revertIf_eq_ok, pure_eq_ok, Prod.mk.injEq] at done
  have perm : (sortLeaves leaves).Perm leaves := List.perm_insertionSort _ leaves
  generalize sortLeaves leaves = sorted at done perm
  obtain ⟨-, -, -, nonempty, tree, combined, _, collected, _, top, rfl, rfl⟩ := done
  obtain ⟨inner, length⟩ := Nat.exists_eq_succ_of_ne_zero nonempty
  rw [length, show inner.succ - 1 = inner from rfl] at combined
  have keys : (sorted.map Leaf.key).Nodup := (perm.map _).nodup_iff.mpr distinct
  have filled : ∀ i ≤ 2 * inner, tree i = some ((tree i).getD ⟨0, 0⟩) := by
    intro i inside
    obtain ⟨node, is⟩ := combined_filled length combined inside
    rw [is, Option.getD_some]
  refine ⟨sorted, inner, fun i => (tree i).getD ⟨0, 0⟩, perm, length, fun i below => ?_, ?_,
    ?_, fun leaf member => ?_⟩
  · obtain ⟨first, second, node, hfirst, hsecond, hnode, join⟩ :=
      (combineAll_spec combined).2 i below
    simp only [Joins, hfirst, hsecond, hnode, Option.getD_some]
    exact join
  · rw [defined_eq_ok.mp top, Option.getD_some]
  · intro j leaf at_j
    rw [combined_leaf length combined at_j, Option.getD_some]
  · obtain ⟨treeIndex, proof, found, read, stored⟩ :=
      (collectProofs_spec distinct collected).2 leaf member
    obtain ⟨j, at_j⟩ := List.mem_iff_getElem?.mp (perm.symm.subset member)
    rw [placeAll_indexes length keys at_j] at found
    obtain rfl := Option.some.inj found
    refine ⟨2 * inner - j, Nat.sub_le _ _, ?_, ?_⟩
    · rw [combined_leaf length combined at_j, Option.getD_some]
    · rw [stored, collectProof_spec read fun i member => ?_]
      exact filled i (CompleteTree.wayUp_le (Nat.sub_le _ _) member)

namespace Layout

variable {sorted : List Leaf} {root : Node}
variable {inner : Nat} {node : Nat → Node}
variable (layout : Layout leaves root proofs sorted inner node)

include layout

/-- Every node of the array has a positive sum that fits a word. -/
theorem sum_valid (valid : ∀ leaf ∈ leaves, 0 < leaf.node.sum ∧ leaf.node.sum ≤ UINT256_MAX)
    {i : Nat} (inside : i ≤ 2 * inner) : 0 < (node i).sum ∧ (node i).sum ≤ UINT256_MAX := by
  -- From the last place to the first: children stand behind their parent.
  induction gap : 2 * inner - i using Nat.strongRecOn generalizing i with
  | ind gap ih =>
    rcases Nat.lt_or_ge i inner with below | above
    · obtain ⟨sum, bounded, -, -⟩ := combine_eq_ok (layout.built i below)
      have child := ih (2 * inner - (2 * i + 1)) (by omega) (by omega) rfl
      exact ⟨by omega, bounded⟩
    · have length := layout.length
      have bound : 2 * inner - i < sorted.length := by omega
      have is := layout.leaf (List.getElem?_eq_getElem bound)
      rw [show 2 * inner - (2 * inner - i) = i by omega] at is
      rw [is]
      exact valid _ (layout.perm.subset (List.getElem_mem bound))

/-- The root carries the sum of all leaves. -/
theorem root_sum :
    root.sum = (leaves.map fun leaf => leaf.node.sum).sum := by
  have adds : ∀ i < inner, (node i).sum = (node (2 * i + 1)).sum + (node (2 * i + 2)).sum :=
    fun i below => (combine_eq_ok (layout.built i below)).1
  have level : ∑ i ∈ Finset.Ico inner (2 * inner + 1), (node i).sum = (node 0).sum :=
    CompleteTree.sum_leaves adds
  have placed : ∀ j x, (sorted.map fun leaf => leaf.node.sum)[j]? = some x →
      (node (2 * inner - j)).sum = x := by
    intro j x at_j
    rw [List.getElem?_map] at at_j
    obtain ⟨leaf, is, rfl⟩ := Option.map_eq_some_iff.mp at_j
    rw [layout.leaf is]
  have length : (sorted.map fun leaf => leaf.node.sum).length = inner + 1 := by
    rw [List.length_map, layout.length]
  have fits : (sorted.map fun leaf => leaf.node.sum).length ≤ 2 * inner + 1 := by omega
  have total : ∑ i ∈ Finset.Ico (2 * inner + 1 - (sorted.map fun leaf => leaf.node.sum).length)
      (2 * inner + 1), (node i).sum = (sorted.map fun leaf => leaf.node.sum).sum :=
    CompleteTree.sum_from_end fits placed
  rw [length, show 2 * inner + 1 - (inner + 1) = inner by omega] at total
  rw [← layout.root, ← level, total]
  exact (layout.perm.map _).sum_eq

/-- The emitted proof of a leaf leads the contract to the root. -/
theorem climbs (valid : ∀ leaf ∈ leaves, 0 < leaf.node.sum ∧ leaf.node.sum ≤ UINT256_MAX)
    (member : leaf ∈ leaves) (stored : proofs leaf.key = some proof)
    (hashes : ∀ s ∈ proof, s.hash ≠ 0) :
    Rewards.climb 0 leaf.node.hash (BitVec.ofNat 256 leaf.node.sum) (proof.map Node.onChain) =
      .ok (root.hash, BitVec.ofNat 256 root.sum) ∧ ∀ s ∈ proof, s.sum ≤ UINT256_MAX := by
  obtain ⟨place, inside, is, emitted⟩ := layout.proof leaf member
  obtain rfl := Option.some.inj (stored.symm.trans emitted)
  have sums : ∀ s ∈ (CompleteTree.wayUp place place).map node,
      0 < s.sum ∧ s.sum ≤ UINT256_MAX := by
    intro s sibling
    obtain ⟨i, onWay, rfl⟩ := List.mem_map.mp sibling
    exact layout.sum_valid valid (CompleteTree.wayUp_le inside onWay)
  have ascends := layout.built.ascends combine_symm (Nat.le_refl place) inside
  rw [layout.root, is] at ascends
  exact ⟨climb_of_ascends ascends hashes sums, fun s sibling => (sums s sibling).2⟩

end Layout

variable {lib : AddressLibrary} {epochId : Nat}

/-- A leaf of the generator has the hash that the contract computes. -/
theorem buildLeaf_spec {claim : Claim} (built : buildLeaf lib epochId claim = .ok leaf) :
    leaf.claim = claim ∧ leaf.node.sum = claim.amount ∧
    ∃ account, lib.encodeAddress claim.account = some account ∧
      leaf.node.hash = Rewards.leafHash (BitVec.ofNat 256 epochId) (BitVec.ofNat 256 claim.index)
        account (BitVec.ofNat 256 claim.amount) := by
  simp only [buildLeaf, leafHash, bind_eq_ok, pure_eq_ok, encodeUint256_eq_ok] at built
  obtain ⟨_, ⟨_, ⟨-, rfl⟩, _, ⟨-, rfl⟩, word, encoded, _, ⟨-, rfl⟩, rfl⟩, rfl⟩ := built
  refine ⟨rfl, rfl, ?_⟩
  unfold encodeAddress at encoded
  split at encoded
  · rename_i account is
    obtain rfl := pure_eq_ok.mp encoded
    exact ⟨account, is, rfl⟩
  · cases encoded

theorem leaves_spec {claims : List Claim}
    (built : List.Forall₂ (fun claim leaf => buildLeaf lib epochId claim = .ok leaf)
      claims leaves) :
    leaves.map Leaf.claim = claims ∧
    (leaves.map fun leaf => leaf.node.sum) = claims.map Claim.amount := by
  induction built with
  | nil => exact ⟨rfl, rfl⟩
  | cons first _ ih =>
    obtain ⟨same, sum, -⟩ := buildLeaf_spec first
    exact ⟨congrArg₂ _ same ih.1, congrArg₂ _ sum ih.2⟩

theorem buildFixture_spec {claims : List Claim} {fixture : Fixture}
    (built : buildFixture lib epochId claims = .ok fixture) :
    ∃ leaves root proofs,
      List.Forall₂ (fun claim leaf => buildLeaf lib epochId claim = .ok leaf) claims leaves ∧
      buildMerkleSumTree leaves = .ok (root, proofs) ∧
      List.Forall₂ (fun leaf entry => fixtureClaim proofs leaf = .ok entry) leaves fixture.claims ∧
      fixture.merkleRoot = root.hash ∧ fixture.rootSum = decimal root.sum ∧
      fixture.epochId = decimal epochId ∧ fixture.claimCount = claims.length := by
  simp only [buildFixture, bind_eq_ok, pure_eq_ok] at built
  obtain ⟨leaves, mapped, ⟨root, proofs⟩, tree, entries, emitted, rfl⟩ := built
  exact ⟨leaves, root, proofs, forall₂_of_mapM mapped, tree, forall₂_of_mapM emitted, rfl, rfl, rfl,
    rfl⟩

/-- The call made from one entry returns the root of the fixture. -/
theorem processProof_of_entry {root : Node} {claim : Claim} {entry : FixtureClaim}
    (distinct : (leaves.map Leaf.key).Nodup)
    (valid : ∀ leaf ∈ leaves, 0 < leaf.node.sum ∧ leaf.node.sum ≤ UINT256_MAX)
    (tree : buildMerkleSumTree leaves = .ok (root, proofs)) (member : leaf ∈ leaves)
    (built : buildLeaf lib epochId claim = .ok leaf) (fits : claim.Valid)
    (emitted : fixtureClaim proofs leaf = .ok entry)
    (hashes : ∀ sibling ∈ entry.proof, sibling.hash ≠ 0) :
    ∃ call, entry.call lib = some call ∧
      Rewards.processProof (BitVec.ofNat 256 epochId) call.index call.account call.amount
        call.proof = .ok (root.hash, BitVec.ofNat 256 root.sum) := by
  obtain ⟨sorted, inner, node, layout⟩ := buildMerkleSumTree_layout distinct tree
  obtain ⟨proof, stored, rfl⟩ := fixtureClaim_spec emitted
  obtain ⟨rfl, sum, account, encoded, hash⟩ := buildLeaf_spec built
  have nonzero : ∀ s ∈ proof, s.hash ≠ 0 := fun s sibling =>
    hashes _ (List.mem_map_of_mem sibling)
  obtain ⟨climbs, sums⟩ := layout.climbs valid member stored nonzero
  refine ⟨⟨BitVec.ofNat 256 leaf.claim.index, account, BitVec.ofNat 256 leaf.claim.amount,
    proof.map Node.onChain⟩, ?_, ?_⟩
  · simp only [FixtureClaim.call, uint256_decimal fits.index_le, uint256_decimal fits.amount_le,
      encoded, mapM_onChain sums]
    rfl
  · rw [Rewards.processProof, ← hash, ← sum]
    exact climbs

end Joins

/-- The generator agrees with the contract. For every number of claims the root
sum is the sum of all amounts, there is one entry for each claim, and every entry
is a call that the contract accepts for exactly the emitted root. -/
theorem fixture_agrees_with_contract [Keccak] (lib : AddressLibrary) (epochId : Word)
    (values : List Value) (claims : List Claim) (fixture : Fixture)
    (accepted : normalizeClaims lib values = .ok claims)
    (built : buildFixture lib epochId.toNat claims = .ok fixture)
    (nonzero : ∀ entry ∈ fixture.claims, ∀ sibling ∈ entry.proof, sibling.hash ≠ 0) :
    claims.length = values.length ∧
    (fixture.claims.map fun entry => (entry.index, entry.account, entry.amount)) =
      claims.map (fun claim => (decimal claim.index, claim.account, decimal claim.amount)) ∧
    (fixture.claims.map FixtureClaim.index).Nodup ∧
    ∃ rootSum, uint256 fixture.rootSum = some rootSum ∧
      rootSum.toNat = (claims.map Claim.amount).sum ∧
      ∀ entry ∈ fixture.claims, ∃ call, entry.call lib = some call ∧
        Rewards.processProof epochId call.index call.account call.amount call.proof =
          .ok (fixture.merkleRoot, rootSum) := by
  have normalized := normalizeClaims_spec accepted
  obtain ⟨leaves, root, proofs, mapped, tree, emitted, merkleRoot, rootSum, -⟩ :=
    buildFixture_spec built
  obtain ⟨same, sums⟩ := leaves_spec mapped
  have keys : leaves.map Leaf.key = claims.map Claim.indexKey := by
    rw [← same, List.map_map]
    rfl
  have distinct : (leaves.map Leaf.key).Nodup := keys ▸ normalized.indexes
  have valid : ∀ leaf ∈ leaves, 0 < leaf.node.sum ∧ leaf.node.sum ≤ UINT256_MAX := by
    intro leaf member
    obtain ⟨claim, present, made⟩ := exists_of_mem_right mapped member
    rw [(buildLeaf_spec made).2.1]
    exact ⟨(normalized.valid claim present).amount_pos, (normalized.valid claim present).amount_le⟩
  obtain ⟨sorted, inner, node, layout⟩ := buildMerkleSumTree_layout distinct tree
  have rootFits : root.sum ≤ UINT256_MAX :=
    layout.root ▸ (layout.sum_valid valid (Nat.zero_le _)).2
  have entries := entries_spec emitted
  refine ⟨?_, ?_, ?_, BitVec.ofNat 256 root.sum, ?_, ?_, fun entry member => ?_⟩
  · obtain ⟨collected, perm, read⟩ := normalized.read
    rw [perm.length_eq, read.length_eq]
  · rw [entries, ← same, List.map_map]
    rfl
  · have firsts := congrArg (List.map fun entry => entry.1) entries
    rw [List.map_map, List.map_map] at firsts
    exact (show fixture.claims.map FixtureClaim.index = leaves.map Leaf.key from firsts) ▸ distinct
  · rw [rootSum, uint256_decimal rootFits]
  · rw [toNat_ofNat_of_le rootFits, layout.root_sum, sums]
  · obtain ⟨leaf, inLeaves, made⟩ := exists_of_mem_right emitted member
    obtain ⟨claim, present, leafMade⟩ := exists_of_mem_right mapped inLeaves
    have result := processProof_of_entry distinct valid tree inLeaves leafMade
      (normalized.valid claim present) made (nonzero entry member)
    rw [BitVec.ofNat_toNat, BitVec.setWidth_eq] at result
    rw [merkleRoot]
    exact result

namespace Demo

/-- The library on addresses without letters, whose checksummed spelling is their own. -/
def lib : AddressLibrary where
  isAddress := isHexAddress
  getAddress := some
  encodeAddress text := some (BitVec.ofNat 160 (Nat.ofDigitChars 16 (text.drop 2) 0))

def claim (index : Nat) (digit : Char) (amount : Nat) : Value :=
  .object [("index".toList, .string (decimal index)),
    ("account".toList, .string ('0' :: 'x' :: List.replicate 40 digit)),
    ("amount".toList, .number (some amount))]

/-- Three claims, so that the tree is not a power of two. -/
def values : List Value := [claim 9 '3' 25, claim 0 '1' 1000, claim 1 '2' 2500]

end Demo

theorem fixture_agrees_with_contract_demo :
    letI := Keccak.rolling
    ∃ claims fixture, normalizeClaims Demo.lib Demo.values = .ok claims ∧
      buildFixture Demo.lib (7 : Word).toNat claims = .ok fixture ∧ claims.length = 3 ∧
      ∃ rootSum, uint256 fixture.rootSum = some rootSum ∧
        ∀ entry ∈ fixture.claims, ∃ call, entry.call Demo.lib = some call ∧
          Rewards.processProof 7 call.index call.account call.amount call.proof =
            .ok (fixture.merkleRoot, rootSum) := by
  let := Keccak.rolling
  have evaluated : (match normalizeClaims Demo.lib Demo.values with
    | .ok claims =>
      match buildFixture Demo.lib (7 : Word).toNat claims with
      | .ok fixture => decide (∀ entry ∈ fixture.claims, ∀ s ∈ entry.proof, s.hash ≠ 0)
      | .error _ => false
    | .error _ => false) = true := by decide +kernel
  split at evaluated
  · rename_i claims accepted
    split at evaluated
    · rename_i fixture built
      obtain ⟨count, -, -, rootSum, read, -, calls⟩ := fixture_agrees_with_contract Demo.lib 7
        Demo.values claims fixture accepted built (of_decide_eq_true evaluated)
      exact ⟨claims, fixture, accepted, built, count, rootSum, read, calls⟩
    · exact absurd evaluated Bool.false_ne_true
  · exact absurd evaluated Bool.false_ne_true

end Torium.Generator
