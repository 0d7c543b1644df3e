import Mathlib.Data.List.Pairwise
import Torium.Faucet.Go

/-!
# The chain

The chain keeps the next nonce of every account, the transactions that have reached
some node, and those that have landed in a block. A transaction of the pool can land
at any time while its nonce is the next one of its sender. Blocks are final.

Nothing leaves the pool: a transaction that a node drops is one that does not land.
-/

namespace Torium.Faucet

open Evm

structure UnsignedTransaction where
  chainID : Int
  nonce : Nat
  gasTipCap : Int
  gasFeeCap : Int
  gas : Nat
  recipient : Address
  value : Int
  deriving DecidableEq

structure Transaction extends UnsignedTransaction where
  sender : Address
  hash : Bytes32
  deriving DecidableEq

/-- The sender and the nonce: at most one transaction of a slot lands. -/
def Transaction.slot (transaction : Transaction) : Address × Nat :=
  (transaction.sender, transaction.nonce)

structure Receipt where
  transaction : Transaction
  successful : Bool
  blockNumber : Nat
  deriving DecidableEq

structure Chain where
  nonces : Address → Nat := fun _ => 0
  pool : List Transaction := []
  landed : List Receipt := []
  height : Nat := 0

inductive ChainStep where
  /-- A transaction of the pool lands. -/
  | land (index : Nat) (successful : Bool) (blockNumber : Nat)
  /-- A transaction that was signed elsewhere uses the next nonce of an account. -/
  | foreign (account : Address)
  deriving DecidableEq

namespace Chain

def useNonce (chain : Chain) (account : Address) : Chain :=
  { chain with nonces := Function.update chain.nonces account (chain.nonces account + 1) }

/-- The transaction of the receipt lands and uses the nonce of its sender. -/
def addReceipt (chain : Chain) (receipt : Receipt) : Chain :=
  { chain.useNonce receipt.transaction.sender with
    landed := chain.landed ++ [receipt]
    height := receipt.blockNumber }

def step (chain : Chain) : ChainStep → Option Chain
  | .land index successful blockNumber =>
    match chain.pool[index]? with
    | none => none
    | some transaction =>
      if transaction.nonce = chain.nonces transaction.sender ∧ chain.height ≤ blockNumber then
        some (chain.addReceipt { transaction, successful, blockNumber })
      else none
  | .foreign account => some (chain.useNonce account)

def receipt? (chain : Chain) (hash : Bytes32) : Option Receipt :=
  chain.landed.find? fun receipt => receipt.transaction.hash = hash

def Succeeded (chain : Chain) (transaction : Transaction) : Prop :=
  ∃ receipt ∈ chain.landed, receipt.transaction = transaction ∧ receipt.successful = true

instance (chain : Chain) (transaction : Transaction) : Decidable (chain.Succeeded transaction) :=
  inferInstanceAs (Decidable (∃ receipt ∈ chain.landed, _))

/-- The nonce is used and the transaction did not succeed, so it never will. -/
def Dead (chain : Chain) (transaction : Transaction) : Prop :=
  transaction.nonce < chain.nonces transaction.sender ∧ ¬ chain.Succeeded transaction

/-- Landed transactions have used their slots, each its own. -/
structure WellFormed (chain : Chain) : Prop where
  used : ∀ receipt ∈ chain.landed,
    receipt.transaction.nonce < chain.nonces receipt.transaction.sender
  once : chain.landed.Pairwise fun first second =>
    first.transaction.slot ≠ second.transaction.slot

variable {chain chain' : Chain} {transaction : Transaction}

theorem le_useNonce (chain : Chain) (account other : Address) :
    chain.nonces other ≤ (chain.useNonce account).nonces other := by
  by_cases same : other = account
  · subst same
    simp [useNonce]
  · simp [useNonce, Function.update_of_ne same]

/-- What a step of the chain can do: a nonce is used, and a transaction of the pool with that
nonce may land. -/
theorem step_cases {step : ChainStep} (taken : chain.step step = some chain') :
    (∃ account, chain' = chain.useNonce account) ∨
      ∃ receipt, receipt.transaction ∈ chain.pool ∧
        receipt.transaction.nonce = chain.nonces receipt.transaction.sender ∧
        chain' = chain.addReceipt receipt := by
  cases step with
  | foreign account => exact .inl ⟨account, (Option.some.inj taken).symm⟩
  | land index successful blockNumber =>
    simp only [Chain.step] at taken
    split at taken
    next => cases taken
    next transaction found =>
        split_ifs at taken with next
        exact .inr ⟨_, List.mem_of_getElem? found, next.1, (Option.some.inj taken).symm⟩

/-- A dead transaction stays dead. -/
theorem Dead.step {step : ChainStep} (dead : chain.Dead transaction)
    (taken : chain.step step = some chain') : chain'.Dead transaction := by
  obtain ⟨used, failed⟩ := dead
  obtain ⟨account, rfl⟩ | ⟨receipt, -, next, rfl⟩ := step_cases taken
  · exact ⟨used.trans_le (le_useNonce chain account _), failed⟩
  · refine ⟨used.trans_le (le_useNonce chain receipt.transaction.sender _), ?_⟩
    rintro ⟨other, member, rfl, success⟩
    obtain old | new := List.mem_append.mp member
    · exact failed ⟨other, old, rfl, success⟩
    · cases List.mem_singleton.mp new
      exact absurd used (by rw [next]; exact lt_irrefl _)

theorem WellFormed.step {step : ChainStep} (wellFormed : chain.WellFormed)
    (taken : chain.step step = some chain') : chain'.WellFormed := by
  obtain ⟨account, rfl⟩ | ⟨receipt, -, next, rfl⟩ := step_cases taken
  · exact ⟨fun receipt member =>
      (wellFormed.used receipt member).trans_le (le_useNonce chain account _), wellFormed.once⟩
  · constructor
    · intro other member
      obtain old | new := List.mem_append.mp member
      · exact (wellFormed.used other old).trans_le
          (le_useNonce chain receipt.transaction.sender _)
      · cases List.mem_singleton.mp new
        simp [addReceipt, useNonce, next]
    · refine List.pairwise_append.mpr ⟨wellFormed.once, List.pairwise_singleton _ _, ?_⟩
      rintro first old second new same
      cases List.mem_singleton.mp new
      have used := wellFormed.used first old
      obtain ⟨sender, nonce⟩ := Prod.mk.inj same
      rw [sender, nonce, next] at used
      exact lt_irrefl _ used

/-- Only one transaction of a slot lands. -/
theorem WellFormed.eq_of_slot {first second : Receipt} (wellFormed : chain.WellFormed)
    (here : first ∈ chain.landed) (there : second ∈ chain.landed)
    (same : first.transaction.slot = second.transaction.slot) : first = second := by
  have symmetric : Std.Symm fun first second : Receipt =>
      first.transaction.slot ≠ second.transaction.slot := ⟨fun _ _ => Ne.symm⟩
  by_contra different
  exact wellFormed.once.forall here there different same

end Chain

end Torium.Faucet
