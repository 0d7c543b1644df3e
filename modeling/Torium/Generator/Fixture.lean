import Mathlib.Logic.Function.Basic
import Torium.Evm.ByteOrder
import Torium.Generator.Input
import Torium.Lib.CompleteTree

/-!
# The Merkle-sum tree of the generator

Leaves are sorted by hash and placed from the end of an array of `2n - 1` places,
then every inner place combines its two children. The array starts with holes, so
a place holds an optional node; reading a hole is an error, as it is for a missing
entry of a map. Sums are big integers with an explicit bound.
-/

namespace Torium.Generator

open Evm

structure Node where
  hash : Bytes32
  sum : Nat
  deriving DecidableEq

structure Leaf where
  claim : Claim
  node : Node

/-- The text under which a leaf is stored in the maps. -/
def Leaf.key (leaf : Leaf) : Text := decimal leaf.claim.index

/-- Reading a property of `undefined`. -/
def typeError : String := "Cannot read properties of undefined"

/-- A value that was looked up and may be undefined. -/
def defined {α : Type} : Option α → Except String α
  | some a => pure a
  | none => throw typeError

theorem defined_eq_ok {α : Type} {o : Option α} {a : α} : defined o = .ok a ↔ o = some a := by
  cases o with
  | none => exact ⟨nofun, nofun⟩
  | some b => exact ⟨fun same => congrArg some (Except.ok.inj same), fun same => by cases same; rfl⟩

def compareHash (left right : Bytes32) : Ordering :=
  compareBytes (wordBytes left) (wordBytes right)

def checkedAdd (left right : Nat) (label : String) : Except String Nat := do
  let value := left + right
  throwIf (UINT256_MAX < value) (label ++ " exceeds uint256")
  pure value

/-- A big integer as an ABI word. -/
def encodeUint256 (n : Nat) : Except String Word := do
  throwIf (UINT256_MAX < n) "IntegerOutOfRangeError"
  pure (BitVec.ofNat 256 n)

def encodeAddress (lib : AddressLibrary) (text : Text) : Except String Word :=
  match lib.encodeAddress text with
  | some address => pure (address.setWidth 256)
  | none => throw "InvalidAddressError"

section Hashing

variable [Keccak]

def leafHash (lib : AddressLibrary) (epochId : Nat) (claim : Claim) : Except String Bytes32 := do
  let epochId ← encodeUint256 epochId
  let index ← encodeUint256 claim.index
  let account ← encodeAddress lib claim.account
  let amount ← encodeUint256 claim.amount
  pure (keccak256 (abiEncode [epochId, index, account, amount]))

def combine (first second : Node) : Except String Node := do
  let order := compareHash first.hash second.hash
  throwIf (order = .eq ∧ first.sum ≠ second.sum)
    "ambiguous equal node hashes carry different sums"
  let left := if order ≠ .gt then first else second
  let right := if order ≠ .gt then second else first
  let sum ← checkedAdd left.sum right.sum "Merkle parent sum"
  let leftSum ← encodeUint256 left.sum
  let rightSum ← encodeUint256 right.sum
  pure { hash := keccak256 (abiEncode [left.hash, leftSum, right.hash, rightSum]), sum }

end Hashing

abbrev Tree : Type := Nat → Option Node

/-- The leaves in the order of their hashes. -/
def sortLeaves (leaves : List Leaf) : List Leaf :=
  leaves.insertionSort fun left right => compareHash left.node.hash right.node.hash ≠ .gt

/-- Two neighbours of the sorted leaves with one hash. -/
def hasDuplicateHash : List Leaf → Bool
  | first :: second :: rest =>
    first.node.hash == second.node.hash || hasDuplicateHash (second :: rest)
  | _ => false

/-- Place the sorted leaves from position `position` on; `size` is the length of the array. -/
def placeLeaves (size : Nat) (position : Nat) (tree : Tree) (indexes : Text → Option Nat) :
    List Leaf → Tree × (Text → Option Nat)
  | [] => (tree, indexes)
  | leaf :: rest =>
    let treeIndex := size - 1 - position
    placeLeaves size (position + 1) (Function.update tree treeIndex (some leaf.node))
      (Function.update indexes leaf.key (some treeIndex)) rest

/-- The array and the map of indexes after all leaves were placed. -/
def placeAll (sorted : List Leaf) : Tree × (Text → Option Nat) :=
  placeLeaves (2 * sorted.length - 1) 0 (fun _ => none) (fun _ => none) sorted

/-- The loop over the inner places, from `index - 1` down to the root. -/
def combineAll [Keccak] : Nat → Tree → Except String Tree
  | 0, tree => pure tree
  | index + 1, tree => do
      let first ← defined (tree (2 * index + 1))
      let second ← defined (tree (2 * index + 2))
      let node ← combine first second
      combineAll index (Function.update tree index (some node))

/-- The siblings from a place up to the root. -/
def collectProof (tree : Tree) (treeIndex : Nat) : Except String (List Node) :=
  (CompleteTree.wayUp treeIndex treeIndex).mapM fun place => defined (tree place)

def collectProofs (tree : Tree) (indexes : Text → Option Nat) (proofs : Text → Option (List Node)) :
    List Leaf → Except String (Text → Option (List Node))
  | [] => pure proofs
  | leaf :: rest => do
      let treeIndex ← defined (indexes leaf.key)
      let proof ← collectProof tree treeIndex
      collectProofs tree indexes (Function.update proofs leaf.key (some proof)) rest

def buildMerkleSumTree [Keccak] (leaves : List Leaf) :
    Except String (Node × (Text → Option (List Node))) := do
  let sorted := sortLeaves leaves
  throwIf (hasDuplicateHash sorted = true)
    "distinct claims produced an ambiguous duplicate leaf hash"
  throwIf (sorted.length = 0) "Invalid array length"
  let placed := placeAll sorted
  let tree ← combineAll (sorted.length - 1) placed.1
  let proofs ← collectProofs tree placed.2 (fun _ => none) leaves
  let root ← defined (tree 0)
  pure (root, proofs)

structure FixtureNode where
  hash : Bytes32
  sum : Text
  deriving DecidableEq

structure FixtureClaim where
  index : Text
  account : Text
  amount : Text
  leafHash : Bytes32
  leafSum : Text
  proof : List FixtureNode
  deriving DecidableEq

/-- The computed part of the fixture; the constant description of the format is left out. -/
structure Fixture where
  epochId : Text
  merkleRoot : Bytes32
  rootSum : Text
  claimCount : Nat
  claims : List FixtureClaim
  deriving DecidableEq

def buildLeaf [Keccak] (lib : AddressLibrary) (epochId : Nat) (claim : Claim) :
    Except String Leaf := do
  let hash ← leafHash lib epochId claim
  pure { claim, node := { hash, sum := claim.amount } }

def FixtureNode.ofNode (sibling : Node) : FixtureNode := ⟨sibling.hash, decimal sibling.sum⟩

def fixtureClaim (proofs : Text → Option (List Node)) (leaf : Leaf) :
    Except String FixtureClaim := do
  let proof ← defined (proofs leaf.key)
  pure {
    index := decimal leaf.claim.index
    account := leaf.claim.account
    amount := decimal leaf.claim.amount
    leafHash := leaf.node.hash
    leafSum := decimal leaf.node.sum
    proof := proof.map .ofNode }

def buildFixture [Keccak] (lib : AddressLibrary) (epochId : Nat) (claims : List Claim) :
    Except String Fixture := do
  let leaves ← claims.mapM (buildLeaf lib epochId)
  let built ← buildMerkleSumTree leaves
  let entries ← leaves.mapM (fixtureClaim built.2)
  pure {
    epochId := decimal epochId
    merkleRoot := built.1.hash
    rootSum := decimal built.1.sum
    claimCount := claims.length
    claims := entries }

end Torium.Generator
