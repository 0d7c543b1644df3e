import Torium.Rewards.Machine
import Torium.Sdk.Values

/-!
# The reward-claim preflight

`preflightToriumRewardClaim` rebuilds the Merkle-sum root of a claim and reads the epoch, the
claim bit, the pause flag and the time. Node hashes are compared as lower-case texts and sums are
big integers with an explicit bound, where the contract compares words and adds with checks.

`distributorClient` is the client that answers every read from one state of the contract.
-/

namespace Torium.Sdk

open Evm Generator

structure RewardProofNode where
  nodeHash : Text
  sum : Int
  deriving DecidableEq

structure RewardClaimLeaf where
  epochId : Int
  index : Int
  account : Text
  amount : Int

section Hashing

variable [Keccak] (format : AddressFormat)

def hashToriumRewardLeaf (leaf : RewardClaimLeaf) : Except String Text := do
  let epochId ← encodeUint (← assertToriumUint256 leaf.epochId)
  let index ← encodeUint (← assertToriumUint256 leaf.index)
  let account ← encodeAddress format (← getAddress format leaf.account)
  let amount ← encodeUint (← assertToriumUint256 leaf.amount)
  pure (hashText (keccak256 (abiEncode [epochId, index, account.setWidth 256, amount])))

def hashToriumRewardNode (first second : RewardProofNode) : Except String RewardProofNode := do
  let sum ← assertToriumUint256
    ((← assertToriumUint256 first.sum) + (← assertToriumUint256 second.sum))
  let ordered := Hexadecimal.textLe (toLowerCase first.nodeHash) (toLowerCase second.nodeHash)
  let left := if ordered then first else second
  let right := if ordered then second else first
  let leftHash ← encodeBytes32 left.nodeHash
  let leftSum ← encodeUint left.sum
  let rightHash ← encodeBytes32 right.nodeHash
  let rightSum ← encodeUint right.sum
  pure { nodeHash := hashText (keccak256 (abiEncode [leftHash, leftSum, rightHash, rightSum]))
         sum }

/-- The loop of `processToriumRewardProof` from position `proofIndex` on. -/
def climbProof (proofIndex : Nat) (node : RewardProofNode) :
    List RewardProofNode → Except String RewardProofNode
  | [] => pure node
  | sibling :: rest => do
      throwIf (sibling.nodeHash = zeroHash ∨ sibling.sum = 0)
        ("Torium reward proof node " ++ toString proofIndex ++ " is malformed.")
      let node ← hashToriumRewardNode node sibling
      climbProof (proofIndex + 1) node rest

/-- The root hash and the root sum of a claim path. -/
def processToriumRewardProof (leaf : RewardClaimLeaf) (proof : List RewardProofNode) :
    Except String RewardProofNode := do
  let nodeHash ← hashToriumRewardLeaf format leaf
  let sum ← assertToriumUint256 leaf.amount
  climbProof 0 { nodeHash, sum } proof

end Hashing

/-! ## Reads -/

inductive RewardRead where
  | epochs (epochId : Int)
  | isClaimed (epochId index : Int)
  | paused

structure RewardClient where
  readContract : (address : Text) → RewardRead → Except String Raw
  /-- The timestamp of the latest block. -/
  getBlockTimestamp : Raw

def distributorName : String := "toriumRewardDistributor"

structure RewardEpoch where
  epochId : Int
  rootHash : Text
  funded : Int
  claimStart : Int
  claimEnd : Int
  claimed : Int
  clawed : Int

/-- An epoch that was never published has the zero root. -/
def parseRewardEpoch (raw : Raw) (epochId : Int) : Except String (Option RewardEpoch) := do
  match raw with
  | .array items => throwIf (items.length ≠ 6) (invalidContractResponse distributorName "epochs")
  | _ => throw (invalidContractResponse distributorName "epochs")
  let rootHash ← parseHashValue distributorName "epochs.rootHash" (raw.item 0)
  if rootHash = zeroHash then pure none
  else do
    let funded ← parseUint distributorName "epochs.funded" (raw.item 1)
    let claimStart ← parseUint distributorName "epochs.claimStart" (raw.item 2)
    let claimEnd ← parseUint distributorName "epochs.claimEnd" (raw.item 3)
    let claimed ← parseUint distributorName "epochs.claimed" (raw.item 4)
    let clawed ← parseUint distributorName "epochs.clawed" (raw.item 5)
    pure (some { epochId, rootHash, funded, claimStart, claimEnd, claimed, clawed })

/-! ## The preflight -/

inductive RewardClaimBlocker where
  | epochNotFound
  | distributorPaused
  | claimNotStarted
  | claimWindowClosed
  | alreadyClaimed
  | malformedProof
  | invalidProof
  deriving DecidableEq

structure RewardClaimPreflight where
  canClaim : Bool
  blockers : List RewardClaimBlocker
  epoch : Option RewardEpoch
  currentTimestamp : Int
  /-- The computed root hash and root sum; both are null if the proof is malformed. -/
  computed : Option RewardProofNode

structure RewardClaimParameters where
  deployment : Option Text
  epochId : Int
  index : Int
  account : Text
  amount : Int
  proof : List RewardProofNode

def epochBlockers (computed : Option RewardProofNode) (currentTimestamp : Int) :
    Option RewardEpoch → List RewardClaimBlocker
  | none => [.epochNotFound]
  | some epoch =>
    blockIf (currentTimestamp < epoch.claimStart) .claimNotStarted ++
    blockIf (epoch.claimEnd ≤ currentTimestamp) .claimWindowClosed ++
    blockIf (∃ root ∈ computed, root.nodeHash ≠ epoch.rootHash ∨ root.sum ≠ epoch.funded)
      .invalidProof

def preflightToriumRewardClaim [Keccak] (format : AddressFormat) (registryEntry : RegistryEntry)
    (client : RewardClient) (parameters : RewardClaimParameters) :
    Except String RewardClaimPreflight := do
  let address ← resolveToriumContractDeployment format distributorName registryEntry
    parameters.deployment
  let leaf : RewardClaimLeaf :=
    { epochId := ← assertToriumUint256 parameters.epochId
      index := ← assertToriumUint256 parameters.index
      account := ← getAddress format parameters.account
      amount := ← assertToriumUint256 parameters.amount }
  let computed := (processToriumRewardProof format leaf parameters.proof).toOption
  let rawEpoch ← client.readContract address (.epochs leaf.epochId)
  let rawClaimed ← client.readContract address (.isClaimed leaf.epochId leaf.index)
  let rawPaused ← client.readContract address .paused
  let epoch ← parseRewardEpoch rawEpoch leaf.epochId
  let alreadyClaimed ← parseBooleanValue distributorName "isClaimed" rawClaimed
  let paused ← parseBooleanValue distributorName "paused" rawPaused
  let currentTimestamp ← parseUint distributorName "block.timestamp" client.getBlockTimestamp
  let blockers := blockIf (computed = none) .malformedProof ++
    blockIf (paused = true) .distributorPaused ++
    epochBlockers computed currentTimestamp epoch ++
    blockIf (alreadyClaimed = true) .alreadyClaimed
  pure { canClaim := blockers.isEmpty, blockers, epoch, currentTimestamp, computed }

/-! ## A client of one state -/

def decodeEpoch (epoch : Rewards.Epoch) : Raw :=
  .array [.string (hashText epoch.rootHash), .bigint epoch.funded.toNat,
    .bigint epoch.claimStart.toNat, .bigint epoch.claimEnd.toNat, .bigint epoch.claimed.toNat,
    .bigint epoch.clawed.toNat]

/-- The answers of a node at which the distributor has the given state. There is no contract at
any other address. -/
def distributorClient (format : AddressFormat) (cfg : Rewards.Config) (w : Rewards.World) :
    RewardClient where
  readContract address read := do
    throwIf (format.parse address ≠ some cfg.self) "ContractFunctionZeroDataError"
    match read with
    | .epochs epochId => do
        let epochId ← encodeUint epochId
        pure (decodeEpoch (w.storage.epochs epochId))
    | .isClaimed epochId index => do
        let epochId ← encodeUint epochId
        let index ← encodeUint index
        pure (.bool (Rewards.isClaimed w.storage epochId index))
    | .paused => pure (.bool w.storage.paused)
  getBlockTimestamp := .bigint w.now.toNat

end Torium.Sdk
