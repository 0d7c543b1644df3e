import Torium.Lib.SumTree
import Torium.Rewards.Basic

/-!
# Merkle-sum proofs

`processProof` folds a list of siblings upward from a leaf. A leaf and an inner
node are both hashed as four words without a tag, the publisher chooses the root
and the claimants choose their proofs. The soundness theorem therefore assumes
nothing about a root: if distinct claims are all accepted for one root hash and
root sum, their amounts add up to at most the sum, or two encodings that were
hashed along the way collide.
-/

namespace Torium.Rewards

open Evm

/-- The words of a leaf, in the order in which they are encoded. -/
def leafWords (epochId index : Word) (account : Address) (amount : Word) : List Word :=
  [epochId, index, account.setWidth 256, amount]

/-- The words of an inner node, sorted by hash; equal hashes keep their order. -/
def nodeWords (firstHash : Bytes32) (firstSum : Word) (secondHash : Bytes32) (secondSum : Word) :
    List Word :=
  if firstHash < secondHash ∨ firstHash = secondHash then
    [firstHash, firstSum, secondHash, secondSum]
  else [secondHash, secondSum, firstHash, firstSum]

/-- One claim on an epoch, with the proof it comes with. -/
structure Claim where
  index : Word
  account : Address
  amount : Word
  proof : List ProofNode
  deriving DecidableEq

section Hashing

variable [Keccak] {rootHash : Bytes32} {epochId : Word}

def leafHash (epochId index : Word) (account : Address) (amount : Word) : Bytes32 :=
  keccak256 (abiEncode (leafWords epochId index account amount))

def hashNode (firstHash : Bytes32) (firstSum : Word) (secondHash : Bytes32) (secondSum : Word) :
    Except Error (Bytes32 × Word) := do
  let parentSum ← orRevert .arithmeticPanic (checkedAdd firstSum secondSum)
  pure (keccak256 (abiEncode (nodeWords firstHash firstSum secondHash secondSum)), parentSum)

/-- The loop of `processProof` from position `proofIndex` on. -/
def climb (proofIndex : Nat) (hash : Bytes32) (sum : Word) :
    List ProofNode → Except Error (Bytes32 × Word)
  | [] => pure (hash, sum)
  | sibling :: rest => do
      revertIf (sibling.nodeHash = 0 ∨ sibling.sum = 0) (.malformedProof proofIndex)
      let parent ← hashNode hash sum sibling.nodeHash sibling.sum
      climb (proofIndex + 1) parent.1 parent.2 rest

def processProof (epochId index : Word) (account : Address) (amount : Word)
    (proof : List ProofNode) : Except Error (Bytes32 × Word) :=
  climb 0 (leafHash epochId index account amount) amount proof

/-- The words that the loop hashes, one list for each sibling. -/
def climbWords (hash : Bytes32) (sum : Word) : List ProofNode → List (List Word)
  | [] => []
  | sibling :: rest =>
    let words := nodeWords hash sum sibling.nodeHash sibling.sum
    words :: climbWords (keccak256 (abiEncode words)) (sum + sibling.sum) rest

/-- The encodings that `processProof` hashes for one claim. -/
def proofEncodings (epochId : Word) (claim : Claim) : List (List Byte) :=
  (leafWords epochId claim.index claim.account claim.amount ::
    climbWords (leafHash epochId claim.index claim.account claim.amount) claim.amount
      claim.proof).map abiEncode

/-- The two untagged readings of four words. -/
def reading : SumTree.Reading Bytes32 (List Word) where
  hash words := keccak256 (abiEncode words)
  first words := (words.getD 0 0, (words.getD 1 0).toNat)
  second words := (words.getD 2 0, (words.getD 3 0).toNat)
  amount words := (words.getD 3 0).toNat

/-- The path of a proof, extended upward from the part that was already climbed. -/
def climbPath (below : SumTree.Path (List Word)) (hash : Bytes32) (sum : Word) :
    List ProofNode → SumTree.Path (List Word)
  | [] => below
  | sibling :: rest =>
    let words := nodeWords hash sum sibling.nodeHash sibling.sum
    let path := if hash < sibling.nodeHash ∨ hash = sibling.nodeHash then
      SumTree.Path.first words below else SumTree.Path.second words below
    climbPath path (keccak256 (abiEncode words)) (sum + sibling.sum) rest

theorem bottom_climbPath (proof : List ProofNode) (below : SumTree.Path (List Word))
    (hash : Bytes32) (sum : Word) :
    (climbPath below hash sum proof).bottom = below.bottom := by
  induction proof generalizing below hash sum with
  | nil => rfl
  | cons sibling rest ih =>
    simp only [climbPath, ih]
    split <;> rfl

theorem codes_climbPath (proof : List ProofNode) (below : SumTree.Path (List Word))
    (hash : Bytes32) (sum : Word) :
    (climbPath below hash sum proof).codes ⊆ below.codes ++ climbWords hash sum proof := by
  induction proof generalizing below hash sum with
  | nil => simp [climbPath]
  | cons sibling rest ih =>
    refine List.Subset.trans (ih _ _ _) ?_
    simp only [climbWords]
    split <;> simp [SumTree.Path.codes]

/-- One step upward. A node is never confused with a leaf, because neither of
the sums it adds is zero. -/
theorem opens_node {below : SumTree.Path (List Word)} {hash siblingHash : Bytes32}
    {sum siblingSum parentSum : Word} (opens : SumTree.Opens reading below hash sum.toNat)
    (positive : 0 < sum.toNat) (sibling : 0 < siblingSum.toNat)
    (adds : sum.toNat + siblingSum.toNat = parentSum.toNat) :
    SumTree.Opens reading
      (if hash < siblingHash ∨ hash = siblingHash then
        SumTree.Path.first (nodeWords hash sum siblingHash siblingSum) below
      else SumTree.Path.second (nodeWords hash sum siblingHash siblingSum) below)
      (keccak256 (abiEncode (nodeWords hash sum siblingHash siblingSum))) parentSum.toNat := by
  unfold nodeWords
  split
  · refine ⟨rfl, ?_, ?_, opens⟩
    · simpa [reading] using adds
    · simp only [reading, List.getD_cons_succ, List.getD_cons_zero]
      omega
  · refine ⟨rfl, ?_, ?_, opens⟩
    · simpa [reading, Nat.add_comm] using adds
    · simp only [reading, List.getD_cons_succ, List.getD_cons_zero]
      omega

theorem opens_climbPath {proof : List ProofNode} {proofIndex : Nat} {hash : Bytes32}
    {sum rootSum : Word} {below : SumTree.Path (List Word)}
    (accepted : climb proofIndex hash sum proof = .ok (rootHash, rootSum))
    (positive : 0 < sum.toNat) (opens : SumTree.Opens reading below hash sum.toNat) :
    SumTree.Opens reading (climbPath below hash sum proof) rootHash rootSum.toNat := by
  induction proof generalizing proofIndex hash sum below with
  | nil =>
    obtain ⟨rfl, rfl⟩ := Prod.mk.inj (pure_eq_ok.mp accepted)
    exact opens
  | cons sibling rest ih =>
    simp only [climb, hashNode, bind_eq_ok, revertIf_eq_ok, orRevert_eq_ok, pure_eq_ok]
      at accepted
    obtain ⟨_, wellFormed, _, ⟨parentSum, added, rfl⟩, above⟩ := accepted
    have adds := checkedAdd_eq_some.mp added
    have siblingPositive : 0 < sibling.sum.toNat := by
      refine Nat.pos_of_ne_zero fun zero => wellFormed (.inr ?_)
      exact BitVec.eq_of_toNat_eq zero
    have parent : sum + sibling.sum = parentSum := by
      rw [checkedAdd] at added
      split at added
      · exact Option.some.inj added
      · cases added
    simp only [climbPath, parent]
    exact ih above (by omega) (opens_node opens positive siblingPositive adds)

/-- The path that a claim's proof opens. -/
def claimPath (epochId : Word) (claim : Claim) : SumTree.Path (List Word) :=
  climbPath (.leaf (leafWords epochId claim.index claim.account claim.amount))
    (leafHash epochId claim.index claim.account claim.amount) claim.amount claim.proof

theorem bottom_claimPath (epochId : Word) (claim : Claim) :
    (claimPath epochId claim).bottom =
      leafWords epochId claim.index claim.account claim.amount :=
  bottom_climbPath _ _ _ _

theorem codes_claimPath (epochId : Word) (claim : Claim) {words : List Word}
    (member : words ∈ (claimPath epochId claim).codes) :
    abiEncode words ∈ proofEncodings epochId claim :=
  List.mem_map_of_mem (codes_climbPath _ _ _ _ member)

theorem opens_claimPath {claim : Claim} {rootSum : Word} (positive : claim.amount ≠ 0)
    (accepted : processProof epochId claim.index claim.account claim.amount claim.proof =
      .ok (rootHash, rootSum)) :
    SumTree.Opens reading (claimPath epochId claim) rootHash rootSum.toNat := by
  refine opens_climbPath accepted ?_ ⟨rfl, rfl⟩
  exact Nat.pos_of_ne_zero fun zero => positive (BitVec.eq_of_toNat_eq zero)

/-- Every list of words that a proof hashes has four entries. -/
theorem length_climbWords {proof : List ProofNode} {hash : Bytes32} {sum : Word}
    {words : List Word} (member : words ∈ climbWords hash sum proof) : words.length = 4 := by
  induction proof generalizing hash sum with
  | nil => exact absurd member List.not_mem_nil
  | cons sibling rest ih =>
    rcases List.mem_cons.mp member with rfl | later
    · unfold nodeWords
      split <;> rfl
    · exact ih later

theorem length_proofEncodings {claim : Claim} {encoding : List Byte}
    (member : encoding ∈ proofEncodings epochId claim) : encoding.length = 128 := by
  obtain ⟨words, hashed, rfl⟩ := List.mem_map.mp member
  have four : words.length = 4 := by
    rcases List.mem_cons.mp hashed with rfl | node
    · rfl
    · exact length_climbWords node
  rw [abiEncode_length, four]

/-- Claims that are accepted for one root under distinct indexes add up to at
most its sum, as long as nothing hashed for them collides. -/
theorem sum_amounts_le {claims : List Claim} {rootSum : Word}
    (distinct : (claims.map Claim.index).Nodup) (positive : ∀ claim ∈ claims, claim.amount ≠ 0)
    (accepted : ∀ claim ∈ claims,
      processProof epochId claim.index claim.account claim.amount claim.proof =
        .ok (rootHash, rootSum)) (free : CollisionFree (claims.flatMap (proofEncodings epochId))) :
    (claims.map fun claim => claim.amount.toNat).sum ≤ rootSum.toNat := by
  have opened : ∀ path ∈ claims.map (claimPath epochId),
      SumTree.Opens reading path rootHash rootSum.toNat := by
    intro path member
    obtain ⟨claim, inClaims, rfl⟩ := List.mem_map.mp member
    exact opens_claimPath (positive claim inClaims) (accepted claim inClaims)
  -- The leaf encodings contain the index, so distinct indexes keep them apart.
  have apart : ((claims.map (claimPath epochId)).map SumTree.Path.bottom).Nodup := by
    rw [List.map_map]
    refine List.Nodup.of_map (fun words : List Word => words.getD 1 0) ?_
    simpa [Function.comp_def, bottom_claimPath, leafWords] using distinct
  have separated : SumTree.Distinguishes reading (claims.map (claimPath epochId)) := by
    intro p hp q hq x hx y hy same
    obtain ⟨claim, inClaims, rfl⟩ := List.mem_map.mp hp
    obtain ⟨claim', inClaims', rfl⟩ := List.mem_map.mp hq
    exact abiEncode_injective (free _ (List.mem_flatMap_of_mem inClaims (codes_claimPath _ _ hx))
      _ (List.mem_flatMap_of_mem inClaims' (codes_claimPath _ _ hy)) same)
  simpa [Function.comp_def, bottom_claimPath, leafWords, reading] using
    SumTree.sum_le opened apart separated

end Hashing

/-- Soundness against any publisher. Either the accepted amounts add up to at
most the root sum, or two encodings hashed for these proofs collide. -/
theorem accepted_sum_le_or_collision [Keccak] (rootHash : Bytes32) (rootSum epochId : Word)
    (claims : List Claim) (distinct : (claims.map Claim.index).Nodup)
    (positive : ∀ claim ∈ claims, 0 < claim.amount)
    (accepted : ∀ claim ∈ claims,
      processProof epochId claim.index claim.account claim.amount claim.proof =
        .ok (rootHash, rootSum)) :
    (claims.map fun claim => claim.amount.toNat).sum ≤ rootSum.toNat ∨
      ∃ x ∈ claims.flatMap (proofEncodings epochId),
        ∃ y ∈ claims.flatMap (proofEncodings epochId),
          x.length = 128 ∧ y.length = 128 ∧ x ≠ y ∧ keccak256 x = keccak256 y := by
  by_cases free : CollisionFree (claims.flatMap (proofEncodings epochId))
  · refine .inl (sum_amounts_le distinct (fun claim member zero => ?_) accepted free)
    exact absurd (positive claim member) (by simp [zero])
  · right
    simp only [CollisionFree, not_forall] at free
    obtain ⟨x, hx, y, hy, same, different⟩ := free
    obtain ⟨claim, -, inClaim⟩ := List.mem_flatMap.mp hx
    obtain ⟨claim', -, inClaim'⟩ := List.mem_flatMap.mp hy
    exact ⟨x, hx, y, hy, length_proofEncodings inClaim, length_proofEncodings inClaim', different,
      same⟩

/-- Two leaves of 3 and 5 below one root of 8, for the stand-in hash. -/
theorem accepted_sum_le_or_collision_pair :
    letI := Keccak.rolling
    let leaf := leafHash 7 0 0xa 3
    let leaf' := leafHash 7 1 0xb 5
    let claims : List Claim := [⟨0, 0xa, 3, [⟨leaf', 5⟩]⟩, ⟨1, 0xb, 5, [⟨leaf, 3⟩]⟩]
    (claims.map fun claim => claim.amount.toNat).sum ≤ (8 : Word).toNat ∨
      ∃ x ∈ claims.flatMap (proofEncodings 7), ∃ y ∈ claims.flatMap (proofEncodings 7),
        x.length = 128 ∧ y.length = 128 ∧ x ≠ y ∧ keccak256 x = keccak256 y := by
  let := Keccak.rolling
  exact accepted_sum_le_or_collision
    (keccak256 (abiEncode (nodeWords (leafHash 7 0 0xa 3) 3 (leafHash 7 1 0xb 5) 5))) 8 7 _
    (by decide) (by decide) (by decide +kernel)

end Torium.Rewards
