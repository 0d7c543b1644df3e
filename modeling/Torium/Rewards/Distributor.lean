import Mathlib.Logic.Function.Basic
import Torium.Rewards.MerkleSum

/-!
# The reward distributor

The functions of `ToriumRewardDistributor` over the state they read and write:
the contract's storage, its native balance, the clock and the logs. `claim` and
`clawback` hand control to another account in the middle, so each of them is
given by the part before the payout and the part after it; what runs in between
is the business of the call machine.

`paid` and `forced` are history variables. They record the claims whose payout
was made and the value that reached the contract without a call; no function
reads them.
-/

namespace Torium.Rewards

open Evm

/-- The choices made at deployment. None of them can change later. -/
structure Config where
  self : Address
  treasury : Address
  publicationDelay : Uint64
  clawbackDelay : Uint64
  treasury_ne_zero : treasury ≠ 0
  publicationDelay_pos : publicationDelay ≠ 0
  clawbackDelay_pos : clawbackDelay ≠ 0

structure Storage where
  nextEpochId : Word := 1
  totalFunded : Word := 0
  totalClaimed : Word := 0
  totalClawed : Word := 0
  epochs : Word → Epoch := fun _ => {}
  usedRootHashes : Bytes32 → Bool := fun _ => false
  claimedBitMaps : Word → Word → Word := fun _ _ => 0
  hasRole : Role → Address → Bool := fun _ _ => false
  paused : Bool := false
  entered : Bool := false

structure World where
  storage : Storage := {}
  balance : Word := 0
  now : Word := 0
  logs : List (Word × Event) := []
  paid : List (Word × Claim) := []
  forced : Nat := 0

def World.emit (w : World) (event : Event) : World :=
  { w with logs := w.logs ++ [(w.now, event)] }

/-- The bit of an index within its word. -/
def claimMask (index : Word) : Word := (1 : Word) <<< (index &&& 255)

def isClaimed (s : Storage) (epochId index : Word) : Bool :=
  let word := s.claimedBitMaps epochId (index >>> 8)
  let mask := claimMask index
  word &&& mask == mask

def setClaimed (s : Storage) (epochId index : Word) : Word → Word → Word :=
  let wordIndex := index >>> 8
  Function.update s.claimedBitMaps epochId
    (Function.update (s.claimedBitMaps epochId) wordIndex
      (s.claimedBitMaps epochId wordIndex ||| claimMask index))

def requireEpoch (s : Storage) (epochId : Word) : Except Error Epoch := do
  let epoch := s.epochs epochId
  revertIf (epoch.rootHash = 0) (.epochNotFound epochId)
  pure epoch

def remaining (epoch : Epoch) : Except Error Word := do
  let unclaimed ← orRevert .arithmeticPanic (checkedSub epoch.funded epoch.claimed)
  orRevert .arithmeticPanic (checkedSub unclaimed epoch.clawed)

def remainingForEpoch (s : Storage) (epochId : Word) : Except Error Word := do
  let epoch ← requireEpoch s epochId
  remaining epoch

def totalOutstanding (s : Storage) : Except Error Word := do
  let unclaimed ← orRevert .arithmeticPanic (checkedSub s.totalFunded s.totalClaimed)
  orRevert .arithmeticPanic (checkedSub unclaimed s.totalClawed)

def forcedSurplus (w : World) : Except Error Word := do
  let outstanding ← totalOutstanding w.storage
  revertIf (w.balance < outstanding) (.accountingInsolvent w.balance outstanding)
  orRevert .arithmeticPanic (checkedSub w.balance outstanding)

def isRootHashUsed (s : Storage) (rootHash : Bytes32) : Bool := s.usedRootHashes rootHash

/-- The sum of two `uint64` values always fits a word. -/
def clawbackAvailableAt (cfg : Config) (s : Storage) (epochId : Word) : Except Error Word := do
  let epoch ← requireEpoch s epochId
  orRevert .arithmeticPanic
    (checkedAdd (epoch.claimEnd.setWidth 256) (cfg.clawbackDelay.setWidth 256))

def emitAccounting (w : World) (epochId epochOutstanding : Word) : Except Error World := do
  let outstanding ← totalOutstanding w.storage
  let surplus ← forcedSurplus w
  pure (w.emit (.accountingReconciled epochId epochOutstanding outstanding w.balance surplus))

section Guards

variable (s : Storage)

def onlyRole (role : Role) (account : Address) : Except Error Unit :=
  revertIf (s.hasRole role account = false) (.accessControlUnauthorizedAccount account role)

def whenNotPaused : Except Error Unit := revertIf (s.paused = true) .enforcedPause

def nonReentrant : Except Error Unit :=
  revertIf (s.entered = true) .reentrancyGuardReentrantCall

end Guards

structure Publication where
  epochId : Word
  rootHash : Bytes32
  rootSum : Word
  claimStart : Uint64
  claimEnd : Uint64

/-- The contract after it took the value and stored the epoch. -/
def World.publish (w : World) (p : Publication) (nextEpochId totalFunded : Word) : World :=
  { w with
    balance := w.balance + p.rootSum
    storage := { w.storage with
      epochs := Function.update w.storage.epochs p.epochId
        { rootHash := p.rootHash, funded := p.rootSum, claimStart := p.claimStart,
          claimEnd := p.claimEnd }
      usedRootHashes := Function.update w.storage.usedRootHashes p.rootHash true
      nextEpochId := nextEpochId
      totalFunded := totalFunded } }

/-- `publishEpoch` up to its accounting event. -/
def storeEpoch (cfg : Config) (sender : Address) (value : Word) (p : Publication) (w : World) :
    Except Error World := do
  onlyRole w.storage .epochPublisher sender
  whenNotPaused w.storage
  let expectedEpochId := w.storage.nextEpochId
  revertIf (p.epochId ≠ expectedEpochId) (.unexpectedEpochId expectedEpochId p.epochId)
  revertIf (p.rootHash = 0) .zeroRootHash
  revertIf (w.storage.usedRootHashes p.rootHash = true) (.rootHashAlreadyUsed p.rootHash)
  revertIf (p.rootSum = 0 ∨ value = 0) .zeroFunding
  revertIf (value ≠ p.rootSum) (.fundingDoesNotMatchRootSum value p.rootSum)
  let minimumStart ← orRevert .arithmeticPanic
    (checkedAdd w.now (cfg.publicationDelay.setWidth 256))
  revertIf (p.claimStart.setWidth 256 < minimumStart)
    (.claimStartTooEarly minimumStart (p.claimStart.setWidth 256))
  revertIf (p.claimEnd ≤ p.claimStart)
    (.invalidClaimWindow (p.claimStart.setWidth 256) (p.claimEnd.setWidth 256))
  let nextEpochId ← orRevert .arithmeticPanic (checkedAdd expectedEpochId 1)
  let totalFunded ← orRevert .arithmeticPanic (checkedAdd w.storage.totalFunded p.rootSum)
  pure ((w.publish p nextEpochId totalFunded).emit
    (.epochPublished p.epochId p.rootHash sender p.rootSum p.claimStart p.claimEnd))

def publishEpoch (cfg : Config) (sender : Address) (value : Word) (p : Publication) (w : World) :
    Except Error World := do
  let w ← storeEpoch cfg sender value p w
  emitAccounting w p.epochId p.rootSum

/-- What a call with value does to the balance. The distributor has no receive
function, so a payout to itself fails. -/
def sendValue (cfg : Config) (w : World) (recipient : Address) (amount : Word) :
    Except Error Word := do
  revertIf (recipient = cfg.self ∨ w.balance < amount) (.nativeTransferFailed recipient amount)
  pure (w.balance - amount)

/-- The contract at the moment the payout of a claim reaches the recipient. -/
def World.payClaim (w : World) (epochId : Word) (claim : Claim)
    (epochClaimed totalClaimed balance : Word) : World :=
  { w with
    balance := balance
    paid := w.paid ++ [(epochId, claim)]
    storage := { w.storage with
      entered := true
      claimedBitMaps := setClaimed w.storage epochId claim.index
      epochs := Function.update w.storage.epochs epochId
        { w.storage.epochs epochId with claimed := epochClaimed }
      totalClaimed := totalClaimed } }

/-- `claim` up to its payout. -/
def beginClaim [Keccak] (cfg : Config) (epochId : Word) (claim : Claim) (w : World) :
    Except Error World := do
  nonReentrant w.storage
  whenNotPaused w.storage
  let epoch ← requireEpoch w.storage epochId
  revertIf (claim.account = 0) .zeroAddress
  revertIf (claim.amount = 0) .zeroAmount
  let currentTime := w.now
  revertIf (currentTime < epoch.claimStart.setWidth 256)
    (.claimNotStarted (epoch.claimStart.setWidth 256) currentTime)
  revertIf (epoch.claimEnd.setWidth 256 ≤ currentTime)
    (.claimWindowClosed (epoch.claimEnd.setWidth 256) currentTime)
  revertIf (isClaimed w.storage epochId claim.index = true)
    (.claimAlreadyProcessed epochId claim.index)
  let root ← processProof epochId claim.index claim.account claim.amount claim.proof
  revertIf (root.1 ≠ epoch.rootHash ∨ root.2 ≠ epoch.funded) (.invalidProof root.1 root.2)
  let epochClaimed ← orRevert .arithmeticPanic (checkedAdd epoch.claimed claim.amount)
  let totalClaimed ← orRevert .arithmeticPanic (checkedAdd w.storage.totalClaimed claim.amount)
  let balance ← sendValue cfg w claim.account claim.amount
  pure (w.payClaim epochId claim epochClaimed totalClaimed balance)

def World.release (w : World) : World :=
  { w with storage := { w.storage with entered := false } }

/-- `claim` after its payout succeeded. -/
def endClaim (epochId : Word) (claim : Claim) (w : World) : Except Error World := do
  let epoch := w.storage.epochs epochId
  let w := w.emit (.rewardClaimed epochId claim.index claim.account claim.amount epoch.claimed
    w.storage.totalClaimed)
  let epochOutstanding ← remaining epoch
  let w ← emitAccounting w epochId epochOutstanding
  pure w.release

/-- The contract at the moment the payout of a clawback reaches the treasury. -/
def World.payClawback (w : World) (epochId epochClawed totalClawed balance : Word) : World :=
  { w with
    balance := balance
    storage := { w.storage with
      entered := true
      epochs := Function.update w.storage.epochs epochId
        { w.storage.epochs epochId with clawed := epochClawed }
      totalClawed := totalClawed } }

/-- `clawback` up to its payout, with the amount it pays. -/
def beginClawback (cfg : Config) (sender : Address) (epochId : Word) (w : World) :
    Except Error (Word × World) := do
  onlyRole w.storage .clawback sender
  nonReentrant w.storage
  whenNotPaused w.storage
  let epoch ← requireEpoch w.storage epochId
  let availableAt ← orRevert .arithmeticPanic
    (checkedAdd (epoch.claimEnd.setWidth 256) (cfg.clawbackDelay.setWidth 256))
  let currentTime := w.now
  revertIf (currentTime < availableAt) (.clawbackNotReady availableAt currentTime)
  let amount ← remaining epoch
  revertIf (amount = 0) (.nothingToClawback epochId)
  let epochClawed ← orRevert .arithmeticPanic (checkedAdd epoch.clawed amount)
  let totalClawed ← orRevert .arithmeticPanic (checkedAdd w.storage.totalClawed amount)
  let balance ← sendValue cfg w cfg.treasury amount
  pure (amount, w.payClawback epochId epochClawed totalClawed balance)

/-- `clawback` after its payout succeeded. -/
def endClawback (cfg : Config) (sender : Address) (epochId amount : Word) (w : World) :
    Except Error World := do
  let epoch := w.storage.epochs epochId
  let w := w.emit (.epochClawedBack epochId sender cfg.treasury amount epoch.clawed
    w.storage.totalClawed)
  let w ← emitAccounting w epochId 0
  pure w.release

/-- `pause` and `unpause` differ in the value they set and the one they expect. -/
def setPaused (paused : Bool) (unexpected : Error) (event : Address → Event) (sender : Address)
    (w : World) : Except Error World := do
  onlyRole w.storage .pauser sender
  revertIf (w.storage.paused = paused) unexpected
  pure ({ w with storage := { w.storage with paused := paused } }.emit (event sender))

def pause : Address → World → Except Error World := setPaused true .enforcedPause .paused

def unpause : Address → World → Except Error World := setPaused false .expectedPause .unpaused

/-- What the constructor is called with. -/
structure Deployment where
  self : Address
  defaultAdminDelay : BitVec 48
  initialAdmin : Address
  initialPublisher : Address
  initialPauser : Address
  initialClawbackOperator : Address
  treasury : Address
  publicationDelay : Uint64
  clawbackDelay : Uint64

/-- The account that each role is granted to at deployment. -/
def Deployment.holder (d : Deployment) : Role → Address
  | .defaultAdmin => d.initialAdmin
  | .epochPublisher => d.initialPublisher
  | .pauser => d.initialPauser
  | .clawback => d.initialClawbackOperator

/-- The constructor. The base contract refuses a zero admin before any other check. -/
def deploy (d : Deployment) : Except Error (Config × Storage) :=
  if d.initialAdmin = 0 then .error (.accessControlInvalidDefaultAdmin 0)
  else if d.initialAdmin = 0 ∨ d.initialPublisher = 0 ∨ d.initialPauser = 0 ∨
      d.initialClawbackOperator = 0 then .error .zeroAddress
  else if treasury : d.treasury = 0 then .error .zeroAddress
  else if d.defaultAdminDelay = 0 then .error .zeroDelay
  else if publication : d.publicationDelay = 0 then .error .zeroDelay
  else if clawback : d.clawbackDelay = 0 then .error .zeroDelay
  else .ok
    ({ self := d.self, treasury := d.treasury, publicationDelay := d.publicationDelay,
       clawbackDelay := d.clawbackDelay, treasury_ne_zero := treasury,
       publicationDelay_pos := publication, clawbackDelay_pos := clawback },
      { hasRole := fun role account => account == d.holder role })

end Torium.Rewards
