import Mathlib.Data.List.Forall2
import Torium.Generator.Agreement

/-!
# The fixture is canonical

Normalizing sorts the claims by their indexes, which are distinct, so the order of the input has
no influence on anything that is computed later.

Only the sums of pairs of nodes are checked against the bound. The places that are not combined
yet always carry the whole total, so a check fails exactly if the total is too large, unless two
nodes with equal hashes stop the generator first.
-/

namespace Torium.Generator

open Evm

/-! ## The order of the input -/

variable {value : Value} {claim : Claim} {claims : List Claim} {tree : Tree}

section Order

variable {lib : AddressLibrary}

theorem parseUint256_label {label label' : String} {positive : Bool} {n : Nat}
    (parsed : parseUint256 value label positive = .ok n) :
    parseUint256 value label' positive = .ok n := by
  have decimal {m : Nat} (read : parseDecimal value label = .ok m) :
      parseDecimal value label' = .ok m := by
    unfold parseDecimal at read ⊢
    split at read
    · split_ifs at read ⊢
      exact read
    · cases read
    · split_ifs at read ⊢
      exact read
    · cases read
  simp only [parseUint256, bind_eq_ok, revertIf_eq_ok] at parsed ⊢
  obtain ⟨m, read, rest⟩ := parsed
  exact ⟨m, decimal read, rest⟩

theorem parseAddress_label {label label' : String} {nonzero : Bool} {text : Text}
    (parsed : parseAddress lib value label nonzero = .ok text) :
    parseAddress lib value label' nonzero = .ok text := by
  cases value with
  | string spelling =>
    simp only [parseAddress, bind_eq_ok, revertIf_eq_ok] at parsed ⊢
    obtain ⟨_, hexadecimal, _, strict, rest⟩ := parsed
    refine ⟨(), hexadecimal, (), strict, ?_⟩
    cases found : lib.getAddress spelling with
    | none =>
      simp only [found, bind_eq_ok] at rest
      obtain ⟨_, -, failed⟩ := rest
      cases failed
    | some address =>
      simp only [found, bind_eq_ok, revertIf_eq_ok] at rest ⊢
      exact rest
  | _ => cases parsed

theorem validateExactKeys_label {members : List (Text × Value)} {allowed : List Text}
    {label label' : String} (valid : validateExactKeys members allowed label = .ok ()) :
    validateExactKeys members allowed label' = .ok () := by
  unfold validateExactKeys at valid ⊢
  cases unknown : members.find? fun member => !allowed.contains member.1 with
  | some member =>
    rw [unknown] at valid
    cases valid
  | none =>
    cases missing : allowed.find? fun key => !(members.map Prod.fst).contains key with
    | some key =>
      rw [unknown, missing] at valid
      cases valid
    | none => rfl

/-- The position of a claim only appears in messages. -/
theorem parseClaim_label {label label' : String} (parsed : parseClaim lib label value = .ok claim) :
    parseClaim lib label' value = .ok claim := by
  cases value with
  | object members =>
    simp only [parseClaim, bind_eq_ok] at parsed ⊢
    obtain ⟨_, keys, index, indexRead, account, accountRead, amount, amountRead, same⟩ := parsed
    exact ⟨(), validateExactKeys_label keys, index, parseUint256_label indexRead, account,
      parseAddress_label accountRead, amount, parseUint256_label amountRead, same⟩
  | _ => cases parsed

/-- What an element of the input is read as. -/
def ReadsAs (lib : AddressLibrary) (value : Value) (claim : Claim) : Prop :=
  ∃ label, parseClaim lib label value = .ok claim

theorem collectClaims_of_read {indexes accounts : List Text} {position : Nat} {values : List Value}
    (read : List.Forall₂ (ReadsAs lib) values claims) (distinct : (claims.map Claim.indexKey).Nodup)
    (distinct' : (claims.map Claim.accountKey).Nodup)
    (unseen : ∀ claim ∈ claims, claim.indexKey ∉ indexes)
    (unseen' : ∀ claim ∈ claims, claim.accountKey ∉ accounts) :
    collectClaims lib indexes accounts position values = .ok claims := by
  induction read generalizing indexes accounts position with
  | nil => rfl
  | @cons value claim values claims first _ ih =>
    obtain ⟨label, parsed⟩ := first
    rw [List.map_cons, List.nodup_cons] at distinct distinct'
    obtain ⟨newIndex, unseen⟩ := List.forall_mem_cons.mp unseen
    obtain ⟨newAccount, unseen'⟩ := List.forall_mem_cons.mp unseen'
    simp only [collectClaims, bind_eq_ok, revertIf_eq_ok, pure_eq_ok]
    refine ⟨claim, parseClaim_label parsed, (), newIndex, (), newAccount, claims,
      ih distinct.2 distinct'.2 ?_ ?_, rfl⟩
    · intro other member
      rw [List.mem_cons, not_or]
      exact ⟨fun same => distinct.1 (same ▸ List.mem_map_of_mem member), unseen other member⟩
    · intro other member
      rw [List.mem_cons, not_or]
      exact ⟨fun same => distinct'.1 (same ▸ List.mem_map_of_mem member), unseen' other member⟩

/-- An input in another order is normalized to the same claims. -/
theorem normalizeClaims_perm {values values' : List Value} (perm : values.Perm values')
    (accepted : normalizeClaims lib values = .ok claims) :
    normalizeClaims lib values' = .ok claims := by
  simp only [normalizeClaims, bind_eq_ok, revertIf_eq_ok, pure_eq_ok] at accepted ⊢
  obtain ⟨_, nonempty, collected, loop, rfl⟩ := accepted
  obtain ⟨read, indexes, -, accounts, -⟩ := collectClaims_spec loop
  obtain ⟨collected', read', perm'⟩ := List.perm_comp_forall₂ perm.symm read
  have indexes' := (perm'.map Claim.indexKey).nodup_iff.mpr indexes
  have accounts' := (perm'.map Claim.accountKey).nodup_iff.mpr accounts
  refine ⟨(), ?_, collected', collectClaims_of_read read' indexes' accounts' ?_ ?_, ?_⟩
  · rw [List.isEmpty_iff] at nonempty ⊢
    rintro rfl
    exact nonempty perm.eq_nil
  · rintro claim - ⟨⟩
  · rintro claim - ⟨⟩
  · -- Two sorted arrangements of claims with distinct indexes are equal.
    let before (left right : Claim) : Prop := left.index ≤ right.index
    have : Std.Total before := ⟨fun left right => Nat.le_total left.index right.index⟩
    have : IsTrans Claim before := ⟨fun _ _ _ => Nat.le_trans⟩
    have sorted := List.pairwise_insertionSort before collected
    have sorted' := List.pairwise_insertionSort before collected'
    have same : (collected'.insertionSort before).Perm (collected.insertionSort before) :=
      (List.perm_insertionSort _ _).trans (perm'.trans (List.perm_insertionSort _ _).symm)
    refine same.eq_of_pairwise (fun left right inLeft inRight below above => ?_) sorted' sorted
    have member := perm'.subset ((List.perm_insertionSort _ _).subset inLeft)
    have member' := (List.perm_insertionSort _ _).subset inRight
    exact List.inj_on_of_nodup_map indexes member member'
      (congrArg decimal (Nat.le_antisymm below above))

end Order

/-! ## The bound on the total -/

/-- The messages of the checks for equal hashes. -/
def duplicateLeafHash : String := "distinct claims produced an ambiguous duplicate leaf hash"

def ambiguousNodes : String := "ambiguous equal node hashes carry different sums"

/-- Texts that the library has spelled can be encoded. -/
def AddressLibrary.Encodes (lib : AddressLibrary) : Prop :=
  ∀ text address, lib.isAddress text = true → lib.getAddress text = some address →
    lib.encodeAddress address ≠ none

/-- A loop over a list whose body never fails. -/
theorem mapM_ok {ε α β : Type} {f : α → Except ε β} {l : List α}
    (each : ∀ a ∈ l, ∃ b, f a = .ok b) : ∃ l', l.mapM f = .ok l' := by
  induction l with
  | nil => exact ⟨[], rfl⟩
  | cons a l ih =>
    obtain ⟨⟨b, first⟩, later⟩ := List.forall_mem_cons.mp each
    obtain ⟨l', rest⟩ := ih later
    refine ⟨b :: l', ?_⟩
    simp only [List.mapM_cons, bind_eq_ok, pure_eq_ok]
    exact ⟨b, first, l', rest, rfl⟩

/-- The total of the places that are not combined yet. -/
def frontier (index : Nat) (tree : Tree) : Nat :=
  ∑ i ∈ Finset.Ico index (2 * index + 1), ((tree i).getD ⟨0, 0⟩).sum

/-- The two last places are the children of the next place to fill. -/
theorem frontier_succ {index : Nat} {first second : Node}
    (atFirst : tree (2 * index + 1) = some first) (atSecond : tree (2 * index + 2) = some second) :
    frontier (index + 1) tree =
      ∑ i ∈ Finset.Ico (index + 1) (2 * index + 1), ((tree i).getD ⟨0, 0⟩).sum +
        first.sum + second.sum := by
  rw [frontier, show 2 * (index + 1) + 1 = 2 * index + 1 + 1 + 1 by omega,
    Finset.sum_Ico_succ_top (by omega), Finset.sum_Ico_succ_top (by omega), atFirst,
    show 2 * index + 1 + 1 = 2 * index + 2 by omega, atSecond]
  rfl

/-- Replacing two children by their join keeps the total. -/
theorem frontier_step {index : Nat} {first second node : Node}
    (atFirst : tree (2 * index + 1) = some first) (atSecond : tree (2 * index + 2) = some second)
    (sum : node.sum = first.sum + second.sum) :
    frontier index (Function.update tree index (some node)) = frontier (index + 1) tree := by
  have others : ∑ i ∈ Finset.Ico (index + 1) (2 * index + 1),
      ((Function.update tree index (some node) i).getD ⟨0, 0⟩).sum =
      ∑ i ∈ Finset.Ico (index + 1) (2 * index + 1), ((tree i).getD ⟨0, 0⟩).sum := by
    refine Finset.sum_congr rfl fun i member => ?_
    rw [Function.update_of_ne (by have := Finset.mem_Ico.mp member; omega)]
  rw [frontier_succ atFirst atSecond, frontier, Finset.sum_eq_sum_Ico_succ_bot (by omega),
    Function.update_self, others, Option.getD_some, sum]
  omega

/-- Before anything is combined, the array carries the sums of the leaves. -/
theorem frontier_placeAll {sorted : List Leaf} {inner : Nat} (length : sorted.length = inner + 1) :
    frontier inner (placeAll sorted).1 = (sorted.map fun leaf => leaf.node.sum).sum := by
  have placed : ∀ j x, (sorted.map fun leaf => leaf.node.sum)[j]? = some x →
      (((placeAll sorted).1 (2 * inner - j)).getD ⟨0, 0⟩).sum = x := by
    intro j x at_j
    rw [List.getElem?_map] at at_j
    obtain ⟨leaf, is, rfl⟩ := Option.map_eq_some_iff.mp at_j
    rw [placeAll_tree length is, Option.getD_some]
  have count : (sorted.map fun leaf => leaf.node.sum).length = inner + 1 := by
    rw [List.length_map, length]
  have fits : (sorted.map fun leaf => leaf.node.sum).length ≤ 2 * inner + 1 := by omega
  have total : ∑ i ∈ Finset.Ico (2 * inner + 1 - (sorted.map fun leaf => leaf.node.sum).length)
      (2 * inner + 1), (((placeAll sorted).1 i).getD ⟨0, 0⟩).sum =
        (sorted.map fun leaf => leaf.node.sum).sum :=
    CompleteTree.sum_from_end fits placed
  rw [count, show 2 * inner + 1 - (inner + 1) = inner by omega] at total
  exact total

theorem collectProofs_ok {indexes : Text → Option Nat} {leaves : List Leaf}
    (each : ∀ leaf ∈ leaves, ∃ treeIndex proof, indexes leaf.key = some treeIndex ∧
      collectProof tree treeIndex = .ok proof) (proofs : Text → Option (List Node)) :
    ∃ proofs', collectProofs tree indexes proofs leaves = .ok proofs' := by
  induction leaves generalizing proofs with
  | nil => exact ⟨proofs, rfl⟩
  | cons leaf rest ih =>
    obtain ⟨⟨treeIndex, proof, found, collected⟩, later⟩ := List.forall_mem_cons.mp each
    obtain ⟨proofs', done⟩ := ih later (Function.update proofs leaf.key (some proof))
    refine ⟨proofs', ?_⟩
    simp only [collectProofs, bind_eq_ok]
    exact ⟨treeIndex, defined_eq_ok.mpr found, proof, collected, done⟩

theorem account_encodes {lib : AddressLibrary} (encodes : lib.Encodes) {label : String}
    (parsed : parseClaim lib label value = .ok claim) :
    lib.encodeAddress claim.account ≠ none := by
  cases value with
  | object members =>
    simp only [parseClaim, bind_eq_ok, pure_eq_ok] at parsed
    obtain ⟨-, -, index, -, account, accountRead, amount, -, rfl⟩ := parsed
    generalize member members "account".toList = spelled at accountRead
    cases spelled with
    | string text =>
      simp only [parseAddress, bind_eq_ok, revertIf_eq_ok] at accountRead
      obtain ⟨_, -, _, strict, rest⟩ := accountRead
      cases found : lib.getAddress text with
      | none =>
        simp only [found, bind_eq_ok] at rest
        obtain ⟨_, -, failed⟩ := rest
        cases failed
      | some address =>
        simp only [found, bind_eq_ok, revertIf_eq_ok, pure_eq_ok] at rest
        obtain ⟨_, -, rfl⟩ := rest
        exact encodes text address (eq_true_of_ne_false strict) found
    | _ => cases accountRead
  | _ => cases parsed

section Total

variable [Keccak]

/-- A join fails for equal hashes or for a sum that is too large. -/
theorem combine_cases (first second : Node) : combine first second = .error ambiguousNodes ∨
      UINT256_MAX < first.sum + second.sum ∨
      ∃ node, combine first second = .ok node ∧ node.sum = first.sum + second.sum := by
  by_cases ambiguous : compareHash first.hash second.hash = .eq ∧ first.sum ≠ second.sum
  · left
    unfold combine
    simp only [throwIf, revertIf, if_pos ambiguous]
    rfl
  · right
    obtain large | small := Nat.lt_or_ge UINT256_MAX (first.sum + second.sum)
    · exact .inl large
    · right
      have joined : ∃ node, combine first second = .ok node := by
        simp only [combine, checkedAdd, bind_eq_ok, revertIf_eq_ok, pure_eq_ok,
          encodeUint256_eq_ok, Nat.not_lt]
        by_cases order : compareHash first.hash second.hash ≠ .gt
        · simp only [if_pos order]
          exact ⟨_, (), ambiguous, _, ⟨(), small, rfl⟩, _, ⟨by omega, rfl⟩, _, ⟨by omega, rfl⟩, rfl⟩
        · simp only [if_neg order]
          exact ⟨_, (), ambiguous, _, ⟨(), by omega, rfl⟩, _, ⟨by omega, rfl⟩, _,
            ⟨by omega, rfl⟩, rfl⟩
      obtain ⟨node, joined⟩ := joined
      exact ⟨node, joined, (combine_eq_ok joined).1⟩

/-- The loop over the inner places fails for equal hashes or for a total that is too large. -/
theorem combineAll_cases {index : Nat} (filled : ∀ i, index ≤ i → i ≤ 2 * index → tree i ≠ none) :
    combineAll index tree = .error ambiguousNodes ∨ UINT256_MAX < frontier index tree ∨
      ∃ tree', combineAll index tree = .ok tree' := by
  induction index generalizing tree with
  | zero => exact .inr (.inr ⟨tree, rfl⟩)
  | succ index ih =>
    obtain ⟨first, atFirst⟩ := Option.ne_none_iff_exists'.mp
      (filled (2 * index + 1) (by omega) (by omega))
    obtain ⟨second, atSecond⟩ := Option.ne_none_iff_exists'.mp
      (filled (2 * index + 2) (by omega) (by omega))
    have step : combineAll (index + 1) tree = combine first second >>= fun node =>
        combineAll index (Function.update tree index (some node)) := by
      rw [combineAll, atFirst, atSecond]
      rfl
    rw [step]
    obtain ambiguous | large | ⟨node, joined, sum⟩ := combine_cases first second
    · rw [ambiguous]
      exact .inl rfl
    · rw [frontier_succ atFirst atSecond]
      exact .inr (.inl (by omega))
    · rw [joined, ← frontier_step atFirst atSecond sum]
      refine ih fun i above below => ?_
      by_cases here : i = index
      · rw [here, Function.update_self]
        exact Option.some_ne_none node
      · rw [Function.update_of_ne here]
        exact filled i (by omega) (by omega)

/-- The tree is built, unless equal hashes or a total that is too large prevent it. -/
theorem buildMerkleSumTree_cases {leaves : List Leaf} (nonempty : leaves ≠ [])
    (distinct : (leaves.map Leaf.key).Nodup) :
    buildMerkleSumTree leaves = .error duplicateLeafHash ∨
      buildMerkleSumTree leaves = .error ambiguousNodes ∨
      UINT256_MAX < (leaves.map fun leaf => leaf.node.sum).sum ∨
      ∃ root proofs, buildMerkleSumTree leaves = .ok (root, proofs) := by
  have perm : (sortLeaves leaves).Perm leaves := List.perm_insertionSort _ leaves
  have total := (perm.map fun leaf => leaf.node.sum).sum_eq
  unfold buildMerkleSumTree
  generalize sortLeaves leaves = sorted at perm total
  rw [← total]
  by_cases duplicate : hasDuplicateHash sorted = true
  · left
    simp only [throwIf, revertIf, if_pos duplicate]
    rfl
  · right
    have many : sorted.length ≠ 0 := by
      rw [perm.length_eq]
      exact fun empty => nonempty (List.length_eq_zero_iff.mp empty)
    obtain ⟨inner, length⟩ := Nat.exists_eq_succ_of_ne_zero many
    have keys : (sorted.map Leaf.key).Nodup := (perm.map _).nodup_iff.mpr distinct
    have filled : ∀ i, inner ≤ i → i ≤ 2 * inner → (placeAll sorted).1 i ≠ none := by
      intro i above inside
      have bound : 2 * inner - i < sorted.length := by omega
      have is := placeAll_tree length (List.getElem?_eq_getElem bound)
      rw [show 2 * inner - (2 * inner - i) = i by omega] at is
      rw [is]
      exact Option.some_ne_none _
    have count : sorted.length - 1 = inner := by omega
    simp only [throwIf, revertIf, if_neg duplicate, if_neg many, count]
    obtain ambiguous | large | ⟨tree, combined⟩ := combineAll_cases filled
    · left
      rw [ambiguous]
      rfl
    · rw [frontier_placeAll length] at large
      exact .inr (.inl large)
    · right
      right
      have each : ∀ leaf ∈ leaves, ∃ treeIndex proof,
          (placeAll sorted).2 leaf.key = some treeIndex ∧
            collectProof tree treeIndex = .ok proof := by
        intro leaf member
        obtain ⟨j, at_j⟩ := List.mem_iff_getElem?.mp (perm.symm.subset member)
        have proof : ∃ proof, collectProof tree (2 * inner - j) = .ok proof := by
          refine mapM_ok fun place onWay => ?_
          obtain ⟨node, is⟩ := combined_filled length combined
            (CompleteTree.wayUp_le (Nat.sub_le _ _) onWay)
          exact ⟨node, defined_eq_ok.mpr is⟩
        obtain ⟨proof, collected⟩ := proof
        exact ⟨_, proof, placeAll_indexes length keys at_j, collected⟩
      obtain ⟨proofs, collected⟩ := collectProofs_ok each fun _ => none
      obtain ⟨root, top⟩ := combined_filled length combined (Nat.zero_le _)
      refine ⟨root, proofs, ?_⟩
      simp only [bind_eq_ok, pure_eq_ok]
      exact ⟨(), trivial, (), trivial, tree, combined, proofs, collected, root,
        defined_eq_ok.mpr top, rfl⟩

variable {lib : AddressLibrary} (epochId : Word)

theorem buildLeaf_ok (valid : claim.Valid) (encodes : lib.encodeAddress claim.account ≠ none) :
    ∃ leaf, buildLeaf lib epochId.toNat claim = .ok leaf := by
  obtain ⟨account, encoded⟩ := Option.ne_none_iff_exists'.mp encodes
  have word : encodeAddress lib claim.account = .ok (account.setWidth 256) := by
    rw [encodeAddress, encoded]
    rfl
  have epoch : epochId.toNat ≤ UINT256_MAX := Nat.le_pred_of_lt epochId.isLt
  simp only [buildLeaf, leafHash, bind_eq_ok, pure_eq_ok, encodeUint256_eq_ok]
  exact ⟨_, _, ⟨_, ⟨epoch, rfl⟩, _, ⟨valid.index_le, rfl⟩, _, word, _, ⟨valid.amount_le, rfl⟩, rfl⟩,
    rfl⟩

/-- The fixture is built, unless equal hashes or a total that is too large prevent it. -/
theorem buildFixture_cases (nonempty : claims ≠ []) (distinct : (claims.map Claim.indexKey).Nodup)
    (valid : ∀ claim ∈ claims, claim.Valid)
    (encodes : ∀ claim ∈ claims, lib.encodeAddress claim.account ≠ none) :
    buildFixture lib epochId.toNat claims = .error duplicateLeafHash ∨
      buildFixture lib epochId.toNat claims = .error ambiguousNodes ∨
      UINT256_MAX < (claims.map Claim.amount).sum ∨
      ∃ fixture, buildFixture lib epochId.toNat claims = .ok fixture := by
  obtain ⟨leaves, mapped⟩ := mapM_ok fun claim member =>
    buildLeaf_ok epochId (valid claim member) (encodes claim member)
  obtain ⟨same, sums⟩ := leaves_spec (forall₂_of_mapM mapped)
  have keys : leaves.map Leaf.key = claims.map Claim.indexKey := by
    rw [← same, List.map_map]
    rfl
  have some : leaves ≠ [] := by
    rintro rfl
    exact nonempty same.symm
  have step : buildFixture lib epochId.toNat claims = buildMerkleSumTree leaves >>= fun built =>
      leaves.mapM (fixtureClaim built.2) >>= fun entries =>
        pure { epochId := decimal epochId.toNat, merkleRoot := built.1.hash
               rootSum := decimal built.1.sum, claimCount := claims.length
               claims := entries } := by
    rw [buildFixture, mapped]
    rfl
  rw [step, ← sums]
  obtain duplicate | ambiguous | large | ⟨root, proofs, built⟩ :=
    buildMerkleSumTree_cases some (keys ▸ distinct)
  · rw [duplicate]
    exact .inl rfl
  · rw [ambiguous]
    exact .inr (.inl rfl)
  · exact .inr (.inr (.inl large))
  · obtain ⟨sorted, inner, node, layout⟩ := buildMerkleSumTree_layout (keys ▸ distinct) built
    obtain ⟨entries, emitted⟩ := mapM_ok (f := fixtureClaim proofs) fun leaf member => by
      obtain ⟨place, -, -, stored⟩ := layout.proof leaf member
      simp only [fixtureClaim, bind_eq_ok, pure_eq_ok]
      exact ⟨_, _, defined_eq_ok.mpr stored, rfl⟩
    rw [built]
    refine .inr (.inr (.inr ?_))
    simp only [bind_eq_ok, pure_eq_ok]
    exact ⟨_, _, rfl, entries, emitted, rfl⟩

/-- A fixture is only built for a total that fits a word. -/
theorem total_le_of_buildFixture {fixture : Fixture} (distinct : (claims.map Claim.indexKey).Nodup)
    (valid : ∀ claim ∈ claims, claim.Valid)
    (built : buildFixture lib epochId.toNat claims = .ok fixture) :
    (claims.map Claim.amount).sum ≤ UINT256_MAX := by
  obtain ⟨leaves, root, proofs, mapped, tree, -⟩ := buildFixture_spec built
  obtain ⟨same, sums⟩ := leaves_spec mapped
  have keys : leaves.map Leaf.key = claims.map Claim.indexKey := by
    rw [← same, List.map_map]
    rfl
  obtain ⟨sorted, inner, node, layout⟩ := buildMerkleSumTree_layout (keys ▸ distinct) tree
  rw [← sums, ← layout.root_sum, ← layout.root]
  refine (layout.sum_valid (fun leaf member => ?_) (Nat.zero_le _)).2
  obtain ⟨claim, present, made⟩ := exists_of_mem_right mapped member
  rw [(buildLeaf_spec made).2.1]
  exact ⟨(valid claim present).amount_pos, (valid claim present).amount_le⟩

end Total

/-- What is generated does not depend on the order of the input, and unless a check for equal
hashes stops it, a fixture is built exactly if the total fits a word. -/
theorem fixture_canonical [Keccak] {lib : AddressLibrary} (encodes : lib.Encodes) (epochId : Word)
    {values : List Value} {claims : List Claim}
    (accepted : normalizeClaims lib values = .ok claims) :
    (∀ values', values.Perm values' →
      (normalizeClaims lib values' >>= buildFixture lib epochId.toNat) =
        (normalizeClaims lib values >>= buildFixture lib epochId.toNat)) ∧
    (buildFixture lib epochId.toNat claims = .error duplicateLeafHash ∨
      buildFixture lib epochId.toNat claims = .error ambiguousNodes ∨
      ((∃ fixture, buildFixture lib epochId.toNat claims = .ok fixture) ↔
        (claims.map Claim.amount).sum ≤ UINT256_MAX)) := by
  have normalized := normalizeClaims_spec accepted
  constructor
  · intro values' perm
    rw [normalizeClaims_perm perm accepted, accepted]
  · have encoded : ∀ claim ∈ claims, lib.encodeAddress claim.account ≠ none := by
      intro claim member
      obtain ⟨collected, perm, read⟩ := normalized.read
      obtain ⟨value, -, label, parsed⟩ := exists_of_mem_right read (perm.subset member)
      exact account_encodes encodes parsed
    obtain duplicate | ambiguous | large | built :=
      buildFixture_cases epochId normalized.nonempty normalized.indexes
        normalized.valid encoded
    · exact .inl duplicate
    · exact .inr (.inl ambiguous)
    · refine .inr (.inr (iff_of_false ?_ (Nat.not_le_of_lt large)))
      rintro ⟨fixture, built⟩
      exact Nat.not_le_of_lt large
        (total_le_of_buildFixture epochId normalized.indexes normalized.valid built)
    · obtain ⟨fixture, built⟩ := built
      exact .inr (.inr (iff_of_true ⟨fixture, built⟩
        (total_le_of_buildFixture epochId normalized.indexes normalized.valid built)))

theorem fixture_canonical_demo :
    letI := Keccak.rolling
    ∃ claims, normalizeClaims Demo.lib Demo.values = .ok claims ∧
      (normalizeClaims Demo.lib Demo.values.reverse >>= buildFixture Demo.lib (7 : Word).toNat) =
        (normalizeClaims Demo.lib Demo.values >>= buildFixture Demo.lib (7 : Word).toNat) ∧
      ((∃ fixture, buildFixture Demo.lib (7 : Word).toNat claims = .ok fixture) ↔
        (claims.map Claim.amount).sum ≤ UINT256_MAX) := by
  let := Keccak.rolling
  have encodes : Demo.lib.Encodes := fun text address _ _ => Option.some_ne_none _
  have evaluated : (match normalizeClaims Demo.lib Demo.values with
    | .ok claims => (buildFixture Demo.lib (7 : Word).toNat claims).isOk
    | .error _ => false) = true := by decide +kernel
  split at evaluated
  · rename_i claims accepted
    obtain ⟨order, checks⟩ := fixture_canonical encodes 7 accepted
    refine ⟨claims, accepted, order _ (List.reverse_perm _).symm, ?_⟩
    obtain duplicate | ambiguous | fits := checks
    · rw [duplicate] at evaluated
      exact absurd evaluated Bool.false_ne_true
    · rw [ambiguous] at evaluated
      exact absurd evaluated Bool.false_ne_true
    · exact fits
  · exact absurd evaluated Bool.false_ne_true

end Torium.Generator
