import Torium.Faucet.World

/-!
# What a command changes

Most commands read. Each part of the shared state is changed by a few commands only, and
in one way.
-/

namespace Torium.Faucet

open Evm

section Effects

variable [EthText] [Digest]

/-- What a command changes. -/
inductive World.Effect (world : World) : Command → World → Prop where
  | nothing {c} : Effect world c world
  | store {operation fault} : operation.Fresh world.store →
      Effect world (.perform operation)
        { world with store := (world.store.perform ⟨operation, fault⟩).1 }
  | breakers {c breakers} : Effect world c { world with breakers }
  | signer {address} : Effect world (.rotate address) { world with signer := address }
  | enqueued {requestID} : Effect world (.tryEnqueue requestID)
      { world with queue := world.queue ++ [requestID] }
  | dequeued {requestID queue} : world.queue = requestID :: queue →
      Effect world .dequeue { world with queue }
  | signed {purpose unsigned hash} :
      (∀ other ∈ world.signed, other.hash = hash →
        other = { unsigned with sender := world.signer, hash }) →
      Effect world (.sign purpose unsigned)
        { world with signed := world.signed ++ [{ unsigned with sender := world.signer, hash }] }
  | sent {purpose transaction reached} : Effect world (.sendTransaction purpose transaction)
      (world.send purpose transaction reached)

variable {world world' : World} {c : Command} {choice : Choice}

theorem World.reads_effect {ρ : Type} {value value' : ρ}
    (executed : world.reads value choice = some (value', world')) : world.Effect c world' := by
  cases choice <;> cases executed
  exact .nothing

theorem World.answered_effect {answer : Except GoError Int}
    (executed : world.answered choice = some (answer, world')) : world.Effect c world' := by
  cases choice <;> cases executed <;> exact .nothing

theorem World.adjust_effect {breakers : Breakers} {answer : Unit}
    (executed : world.adjust breakers choice = some (answer, world')) : world.Effect c world' := by
  cases choice <;> cases executed
  exact .breakers

theorem execute_effect {response : Response c}
    (executed : execute c choice world = some (response, world')) : world.Effect c world' := by
  cases c with
  | chainID => exact World.answered_effect executed
  | pendingNonceAt =>
    cases choice <;> simp only [execute, World.pendingNonceAt] at executed <;> try cases executed
    · exact .nothing
    · split_ifs at executed
      cases executed
      exact .nothing
  | nonceAt => cases choice <;> cases executed <;> exact .nothing
  | balanceAt | headBaseFee | suggestGasTipCap => exact World.answered_effect executed
  | sendTransaction => cases choice <;> cases executed <;> exact .sent
  | transactionReceipt =>
    cases choice <;> simp only [execute, World.transactionReceipt] at executed <;>
      try cases executed
    · split at executed <;> cases executed <;> exact .nothing
    · split_ifs at executed
      cases executed
      exact .nothing
  | signerAddress => exact World.reads_effect executed
  | sign =>
    cases choice <;> simp only [execute, World.sign] at executed <;> try cases executed
    · exact .nothing
    · split_ifs at executed with unique
      cases executed
      exact .signed fun other member => (unique other member).mp
  | rotate =>
    cases choice <;> cases executed
    exact .signer
  | get => exact World.reads_effect executed
  | findReplay => exact World.reads_effect executed
  | isPaused | signerFenced | spentToday | pendingRequests => exact World.reads_effect executed
  | perform operation =>
    cases choice <;> simp only [execute, World.perform, World.perform.run] at executed <;>
      try cases executed
    all_goals
      split_ifs at executed with fresh
      cases executed
      exact .store fresh
  | evaluate => exact World.reads_effect executed
  | recordOutcome => exact World.adjust_effect executed
  | recordRPCProbe | recordBalance | resetErrorWindow => exact World.adjust_effect executed
  | tryEnqueue =>
    cases choice <;> simp only [execute, World.tryEnqueue] at executed <;> try cases executed
    split_ifs at executed <;> cases executed
    · exact .enqueued
    · exact .nothing
  | dequeue =>
    cases choice <;> simp only [execute, World.dequeue] at executed <;> try cases executed
    · split at executed <;> cases executed
      exact .dequeued ‹_›
    · split_ifs at executed
      cases executed
      exact .nothing
  | now =>
    cases choice <;> cases executed
    exact .nothing
  | sleep =>
    cases choice <;> simp only [execute, World.sleep] at executed <;> try cases executed
    · exact .nothing
    · split_ifs at executed
      cases executed
      exact .nothing
  | contextErr =>
    cases choice <;> simp only [execute, World.contextErr] at executed <;> try cases executed
    · exact .nothing
    · split_ifs at executed
      cases executed
      exact .nothing
  | deadline =>
    cases choice <;> cases executed
    exact .nothing
  | newRequestID => cases choice <;> cases executed <;> exact .nothing

end Effects

namespace World

/-! ## Answers -/

section Answers

variable {world world' : World} {choice : Choice}

theorem reads_value {ρ : Type} {value value' : ρ}
    (executed : world.reads value choice = some (value', world')) : value = value' := by
  cases choice <;> cases executed
  rfl

/-- A signature is made by the active key. -/
theorem sign_signed {unsigned : UnsignedTransaction} {transaction : Transaction}
    {signedBy : Address}
    (executed : world.sign unsigned choice = some (.ok (transaction, signedBy), world')) :
    transaction ∈ world'.signed ∧ signedBy = world.signer ∧
      transaction.slot = (signedBy, unsigned.nonce) := by
  cases choice <;> simp only [sign] at executed <;> try cases executed
  split_ifs at executed
  cases executed
  exact ⟨by simp, rfl, rfl⟩

theorem nonceAt_answer {account : Address} {confirmedNonce : Nat}
    (executed : world.nonceAt account choice = some (.ok confirmedNonce, world')) :
    confirmedNonce = world.chain.nonces account := by
  cases choice <;> cases executed
  rfl

/-- An operation is performed, with or without a fault. -/
theorem perform_run [EthText] [Digest] {operation : Operation} {fault : Option GoString}
    {outcome : Outcome} (executed : perform.run world operation fault = some (outcome, world')) :
    operation.Fresh world.store ∧ (world.store.perform ⟨operation, fault⟩).2 = outcome ∧
      world' = { world with store := (world.store.perform ⟨operation, fault⟩).1 } := by
  unfold perform.run at executed
  split_ifs at executed with fresh
  cases executed
  exact ⟨fresh, rfl, rfl⟩

/-- An operation is performed, and its journal write may fail. -/
theorem perform_faults [EthText] [Digest] {operation : Operation} {outcome : Outcome}
    (executed : world.perform operation choice = some (outcome, world')) :
    ∃ fault, (∀ message, fault = some message → choice = .write message) ∧
      operation.Fresh world.store ∧ (world.store.perform ⟨operation, fault⟩).2 = outcome ∧
      world' = { world with store := (world.store.perform ⟨operation, fault⟩).1 } := by
  cases choice <;> simp only [perform] at executed <;> try cases executed
  · exact ⟨none, nofun, perform_run executed⟩
  · exact ⟨_, fun _ same => congrArg Choice.write (Option.some.inj same), perform_run executed⟩

theorem perform_cases [EthText] [Digest] {operation : Operation} {outcome : Outcome}
    (executed : world.perform operation choice = some (outcome, world')) :
    ∃ fault, operation.Fresh world.store ∧ (world.store.perform ⟨operation, fault⟩).2 = outcome ∧
      world' = { world with store := (world.store.perform ⟨operation, fault⟩).1 } := by
  obtain ⟨fault, -, rest⟩ := perform_faults executed
  exact ⟨fault, rest⟩

theorem transactionReceipt_answer {hash : Bytes32} {receipt : Receipt}
    (executed : world.transactionReceipt hash choice = some (.ok receipt, world')) :
    receipt ∈ world.chain.landed ∧ receipt.transaction.hash = hash := by
  cases choice <;> simp only [transactionReceipt] at executed <;> try cases executed
  · split at executed <;> cases executed
    next found =>
        have same := List.find?_some found
        exact ⟨List.mem_of_find?_eq_some found, by simpa using same⟩
  · split_ifs at executed
    cases executed

theorem pendingNonceAt_answer {account : Address} {nonce : Nat}
    (executed : world.pendingNonceAt account choice = some (.ok nonce, world')) :
    nonce < 2 ^ 64 := by
  cases choice <;> simp only [pendingNonceAt] at executed <;> try cases executed
  split_ifs at executed with range
  cases executed
  omega

end Answers

end World

end Torium.Faucet
