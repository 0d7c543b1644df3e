import Torium.Evm.Abi

/-!
# Data of the reward distributor

The structs, errors and events of `ToriumRewardDistributor`, with the errors of
the three OpenZeppelin components it inherits from.
-/

namespace Torium.Rewards

open Evm

structure Epoch where
  rootHash : Bytes32 := 0
  funded : Word := 0
  claimStart : Uint64 := 0
  claimEnd : Uint64 := 0
  claimed : Word := 0
  clawed : Word := 0
  deriving DecidableEq

structure ProofNode where
  nodeHash : Bytes32
  sum : Word
  deriving DecidableEq

inductive Role where
  | defaultAdmin
  | epochPublisher
  | pauser
  | clawback
  deriving DecidableEq

inductive Error where
  | zeroAddress
  | zeroDelay
  | zeroRootHash
  | zeroFunding
  | zeroAmount
  | unexpectedEpochId (expectedEpochId actualEpochId : Word)
  | epochNotFound (epochId : Word)
  | rootHashAlreadyUsed (rootHash : Bytes32)
  | fundingDoesNotMatchRootSum (funding rootSum : Word)
  | claimStartTooEarly (minimumStart actualStart : Word)
  | invalidClaimWindow (claimStart claimEnd : Word)
  | claimNotStarted (claimStart currentTime : Word)
  | claimWindowClosed (claimEnd currentTime : Word)
  | claimAlreadyProcessed (epochId index : Word)
  | malformedProof (proofIndex : Nat)
  | invalidProof (computedRootHash : Bytes32) (computedRootSum : Word)
  | clawbackNotReady (availableAt currentTime : Word)
  | nothingToClawback (epochId : Word)
  | nativeTransferFailed (recipient : Address) (amount : Word)
  | accountingInsolvent (nativeBalance outstanding : Word)
  | accessControlUnauthorizedAccount (account : Address) (role : Role)
  | accessControlInvalidDefaultAdmin (defaultAdmin : Address)
  | enforcedPause
  | expectedPause
  | reentrancyGuardReentrantCall
  | arithmeticPanic
  deriving DecidableEq

inductive Event where
  | epochPublished (epochId : Word) (rootHash : Bytes32) (publisher : Address) (funded : Word)
      (claimStart claimEnd : Uint64)
  | rewardClaimed (epochId index : Word) (account : Address)
      (amount epochClaimed totalClaimed : Word)
  | epochClawedBack (epochId : Word) (operator treasury : Address)
      (amount epochClawed totalClawed : Word)
  | accountingReconciled (epochId epochOutstanding totalOutstanding nativeBalance
      forcedSurplus : Word)
  | paused (account : Address)
  | unpaused (account : Address)
  deriving DecidableEq

end Torium.Rewards
