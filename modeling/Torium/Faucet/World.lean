import Torium.Faucet.Breakers
import Torium.Faucet.Chain
import Torium.Lib.Program

/-!
# What the threads of the service share

The worker, the probe and the request handlers run at the same time. Each access to
the store, the breakers, the signer or the queue happens under a lock and each RPC
call takes effect at one instant, so these are the commands of their programs. What
the environment decides about a command (the answer of the node, the time, whether a
journal write fails) is the choice that comes with it.

Private keys are represented by their addresses. A signature gives a transaction its
hash; the choice of the hash respects that different transactions have different
hashes.

Two fields of the shared state are not there in the service: the transactions that
have been signed, and those that were handed to the node for a request.
-/

namespace Torium.Faucet

open Evm Concurrent

/-- An error value: its text, and what `errors.Is` finds in it. -/
structure GoError where
  message : GoString
  canceled : Bool := false
  notFound : Bool := false
  deriving DecidableEq

/-- `fmt.Errorf` with a text before `%w`. -/
def GoError.wrap (error : GoError) (context : String) : GoError :=
  { error with message := text context ++ error.message }

/-- What a transaction is signed and sent for. -/
inductive Purpose where
  | fund (requestID : GoString)
  | replace (request : Request)
  | drain
  deriving DecidableEq

def Purpose.requestID? : Purpose → Option GoString
  | .fund requestID => some requestID
  | .replace request => some request.id
  | .drain => none

structure World where
  store : Store
  breakers : Breakers := {}
  signer : Address
  queue : List GoString := []
  stopping : Bool := false
  chain : Chain := {}
  signed : List Transaction := []
  sent : List (GoString × Transaction) := []

/-- The commands. A nonce is read for the request that is being settled, and signing
and sending have a purpose; the node does not see either. -/
inductive Command where
  | chainID
  | pendingNonceAt (account : Address)
  | nonceAt (settling : Request) (account : Address)
  | balanceAt (account : Address)
  | headBaseFee
  | suggestGasTipCap
  | sendTransaction (purpose : Purpose) (transaction : Transaction)
  | transactionReceipt (hash : Bytes32)
  | signerAddress
  | sign (purpose : Purpose) (unsigned : UnsignedTransaction)
  | rotate (address : Address)
  | get (requestID : GoString)
  | findReplay (clientKey : GoString) (address : Address) (at_ : Time)
  | isPaused
  | signerFenced (address : Address)
  | spentToday (at_ : Time)
  | pendingRequests
  | perform (operation : Operation)
  | evaluate (spentToday : Int)
  | recordOutcome (success : Bool)
  | recordRPCProbe (healthy : Bool)
  | recordBalance (balance : Int)
  | resetErrorWindow
  | tryEnqueue (requestID : GoString)
  | dequeue
  | now
  | sleep
  | contextErr (ofClient : Bool)
  | deadline
  | newRequestID

@[reducible] def Response : Command → Type
  | .chainID | .balanceAt _ | .headBaseFee | .suggestGasTipCap => Except GoError Int
  | .pendingNonceAt _ | .nonceAt _ _ => Except GoError Nat
  | .sendTransaction _ _ => Option GoError
  | .transactionReceipt _ => Except GoError Receipt
  | .signerAddress | .rotate _ => Address
  | .sign _ _ => Except GoError (Transaction × Address)
  | .get _ | .findReplay _ _ _ => Option Request
  | .isPaused => Bool × GoString
  | .signerFenced _ => Bool
  | .spentToday _ => Int
  | .pendingRequests => List Request
  | .perform _ => Outcome
  | .evaluate _ => BreakerState
  | .recordOutcome _ | .recordRPCProbe _ | .recordBalance _ | .resetErrorWindow => Unit
  | .tryEnqueue _ => Bool
  | .dequeue => Option GoString
  | .now => Time
  | .sleep | .contextErr _ => Bool
  | .deadline => Nat
  | .newRequestID => Except GoError GoString

@[reducible] def service : Interface := ⟨Command, Response⟩

/-- A command of the service, as a program. -/
@[reducible] def call (c : Command) : Program service (Response c) := command (F := service) c

inductive Choice where
  /-- The command takes its course. -/
  | ok
  /-- A call to the node or to a library fails. -/
  | fail (error : GoError)
  /-- Sending fails after the transaction has reached the node. -/
  | failAfter (error : GoError)
  /-- The node answers with a number. -/
  | answer (number : Int)
  | hash (hash : Bytes32)
  | clock (time : Time)
  | identifier (requestID : GoString)
  /-- The journal write fails. -/
  | write (message : GoString)
  /-- How often a receipt is polled before the deadline passes. -/
  | polls (count : Nat)
  /-- A wait ends because the service stops. -/
  | expire
  deriving DecidableEq

namespace World

/-- An answer that the node gives as it likes. -/
def answered (world : World) : Choice → Option (Except GoError Int × World)
  | .answer number => some (.ok number, world)
  | .fail error => some (.error error, world)
  | _ => none

def pendingNonceAt (world : World) (account : Address) :
    Choice → Option (Except GoError Nat × World)
  | .answer number =>
    if world.chain.nonces account ≤ number ∧ number < 2 ^ 64 then
      some (.ok number.toNat, world)
    else none
  | .fail error => some (.error error, world)
  | _ => none

def nonceAt (world : World) (account : Address) : Choice → Option (Except GoError Nat × World)
  | .ok => some (.ok (world.chain.nonces account), world)
  | .fail error => some (.error error, world)
  | _ => none

/-- Handing a transaction to the node for a purpose. -/
def send (world : World) (purpose : Purpose) (transaction : Transaction) (reached : Bool) : World :=
  { world with
    chain := { world.chain with
      pool := if reached then world.chain.pool ++ [transaction] else world.chain.pool }
    sent := match purpose.requestID? with
      | some requestID => world.sent ++ [(requestID, transaction)]
      | none => world.sent }

def sendTransaction (world : World) (purpose : Purpose) (transaction : Transaction) :
    Choice → Option (Option GoError × World)
  | .ok => some (none, world.send purpose transaction true)
  | .fail error => some (some error, world.send purpose transaction false)
  | .failAfter error => some (some error, world.send purpose transaction true)
  | _ => none

/-- Receipts are read correctly: not found is answered only when there is none. -/
def transactionReceipt (world : World) (hash : Bytes32) :
    Choice → Option (Except GoError Receipt × World)
  | .ok =>
    match world.chain.receipt? hash with
    | some receipt => some (.ok receipt, world)
    | none => some (.error { message := text "not found", notFound := true }, world)
  | .fail error => if error.notFound then none else some (.error error, world)
  | _ => none

def sign (world : World) (unsigned : UnsignedTransaction) :
    Choice → Option (Except GoError (Transaction × Address) × World)
  | .hash hash =>
    let transaction : Transaction := { unsigned with sender := world.signer, hash }
    if ∀ other ∈ world.signed, other.hash = hash ↔ other = transaction then
      some (.ok (transaction, world.signer),
        { world with signed := world.signed ++ [transaction] })
    else none
  | .fail error => some (.error error, world)
  | _ => none

def perform [EthText] [Digest] (world : World) (operation : Operation) :
    Choice → Option (Outcome × World)
  | .ok => run none
  | .write message => run (some message)
  | _ => none
where
  run (fault : Option GoString) : Option (Outcome × World) :=
    if operation.Fresh world.store then
      let after := world.store.perform ⟨operation, fault⟩
      some (after.2, { world with store := after.1 })
    else none

def rotate (world : World) (address : Address) : Choice → Option (Address × World)
  | .ok => some (world.signer, { world with signer := address })
  | _ => none

/-- The queue is bounded; sending to it never blocks. -/
def tryEnqueue (world : World) (requestID : GoString) : Choice → Option (Bool × World)
  | .ok =>
    if world.queue.length < world.store.profile.queueCapacity then
      some (true, { world with queue := world.queue ++ [requestID] })
    else some (false, world)
  | _ => none

def dequeue (world : World) : Choice → Option (Option GoString × World)
  | .ok =>
    match world.queue with
    | [] => none
    | requestID :: queue => some (some requestID, { world with queue })
  | .expire => if world.stopping then some (none, world) else none
  | _ => none

def now (world : World) : Choice → Option (Time × World)
  | .clock time => some (time, world)
  | _ => none

/-- A sleep is cut short only when the service stops. -/
def sleep (world : World) : Choice → Option (Bool × World)
  | .ok => some (true, world)
  | .expire => if world.stopping then some (false, world) else none
  | _ => none

/-- A context is cancelled when the service stops; that of a client's request also when
the client goes away. -/
def contextErr (world : World) (ofClient : Bool) : Choice → Option (Bool × World)
  | .ok => some (world.stopping, world)
  | .expire => if ofClient then some (true, world) else none
  | _ => none

def deadline (world : World) : Choice → Option (Nat × World)
  | .polls count => some (count, world)
  | _ => none

def newRequestID (world : World) : Choice → Option (Except GoError GoString × World)
  | .identifier requestID => some (.ok requestID, world)
  | .fail error => some (.error error, world)
  | _ => none

/-- A command that reads the shared state. -/
def reads {ρ : Type} (world : World) (value : ρ) : Choice → Option (ρ × World)
  | .ok => some (value, world)
  | _ => none

/-- A command that changes the breakers. -/
def adjust (world : World) (breakers : Breakers) : Choice → Option (Unit × World)
  | .ok => some ((), { world with breakers })
  | _ => none

end World

def execute [EthText] [Digest] : (c : Command) → Choice → World → Option (Response c × World)
  | .chainID, choice, world => world.answered choice
  | .pendingNonceAt account, choice, world => world.pendingNonceAt account choice
  | .nonceAt _ account, choice, world => world.nonceAt account choice
  | .balanceAt _, choice, world => world.answered choice
  | .headBaseFee, choice, world => world.answered choice
  | .suggestGasTipCap, choice, world => world.answered choice
  | .sendTransaction purpose transaction, choice, world =>
    world.sendTransaction purpose transaction choice
  | .transactionReceipt hash, choice, world => world.transactionReceipt hash choice
  | .signerAddress, choice, world => world.reads world.signer choice
  | .sign _ unsigned, choice, world => world.sign unsigned choice
  | .rotate address, choice, world => world.rotate address choice
  | .get requestID, choice, world => world.reads (world.store.get requestID) choice
  | .findReplay clientKey address at_, choice, world =>
    world.reads (world.store.findReplay clientKey address at_) choice
  | .isPaused, choice, world => world.reads world.store.isPaused choice
  | .signerFenced address, choice, world => world.reads (world.store.signerFenced address) choice
  | .spentToday at_, choice, world => world.reads (world.store.spentToday at_) choice
  | .pendingRequests, choice, world => world.reads world.store.pendingRequests choice
  | .perform operation, choice, world => world.perform operation choice
  | .evaluate spentToday, choice, world =>
    world.reads (world.breakers.evaluate world.store.profile spentToday) choice
  | .recordOutcome success, choice, world =>
    world.adjust (world.breakers.recordOutcome world.store.profile success) choice
  | .recordRPCProbe healthy, choice, world =>
    world.adjust (world.breakers.recordRPCProbe world.store.profile healthy) choice
  | .recordBalance balance, choice, world =>
    world.adjust (world.breakers.recordBalance balance) choice
  | .resetErrorWindow, choice, world => world.adjust world.breakers.resetErrorWindow choice
  | .tryEnqueue requestID, choice, world => world.tryEnqueue requestID choice
  | .dequeue, choice, world => world.dequeue choice
  | .now, choice, world => world.now choice
  | .sleep, choice, world => world.sleep choice
  | .contextErr ofClient, choice, world => world.contextErr ofClient choice
  | .deadline, choice, world => world.deadline choice
  | .newRequestID, choice, world => world.newRequestID choice

end Torium.Faucet
