import Torium.Lib.Transition
import Torium.LocalFaucet.Limiter

/-!
# The local faucet as a transition system

A request handler reads the clock, takes the lock of the limiter and holds it until its funding is
over. So at any time at most one handler is past the check, and a step of the system is a handler
that gets the lock, an answer to the call of the chain client that the handler is waiting for, or
the chain including a transaction.

A call may fail at any time, also because the client has gone and the context of the request is
cancelled. What has been recorded, by which transaction, and which reading of the clock was the
last one, is kept in the state for the statements about runs.
-/

namespace Torium.LocalFaucet

open Evm Faucet SlidingWindow

structure Transaction where
  nonce : Nat
  gasTipCap : Int
  gasFeeCap : Int
  recipient : Address
  value : Int
  deriving DecidableEq

/-- What has become of a transaction that the node has accepted. -/
inductive Status where
  | pending
  | succeeded
  | failed
  deriving DecidableEq

/-- The call of the chain client that `Fund` waits for, with what it has learnt so far. -/
inductive Phase where
  | chainID
  | pendingNonce
  | header (nonce : Nat)
  | tip (nonce : Nat) (baseFee : Int)
  | send (transaction : Transaction)
  | receipt (index : Nat)
  deriving DecidableEq

/-- The handler that holds the lock. -/
structure Handler where
  recipient : Address
  amount : Int
  now : Time
  phase : Phase
  deriving DecidableEq

/-- A call of `recordLocked`, and the transaction whose receipt led to it. -/
structure Recorded where
  recipient : Address
  record : FundingRecord
  transaction : Nat
  deriving DecidableEq

structure State where
  limiter : Limiter
  handler : Option Handler
  chain : List (Transaction × Status)
  recorded : List Recorded
  lastReading : Option Time
  panicked : Bool

def State.initial : State where
  limiter := fun _ => []
  handler := none
  chain := []
  recorded := []
  lastReading := none
  panicked := false

inductive Label where
  /-- A handler whose request has been parsed gets the lock. -/
  | request (recipient : Address) (amount : GoString) (now : Time)
  | chainID (id : Int)
  | pendingNonce (nonce : Nat)
  | header (baseFee : Option Int)
  | tip (suggested : Option Int)
  | sent
  /-- The node has accepted the transaction, but its answer does not arrive. -/
  | sentUnanswered
  | receiptNotFound
  | receipt
  /-- The call that the handler waits for returns an error, or its context is done. A tip that
  cannot be read is no error. -/
  | failed
  /-- The chain includes a transaction. -/
  | included (index : Nat) (succeeded : Bool)
  deriving DecidableEq

/-- The address and the reading of a check. -/
def Label.reading? : Label → Option (Address × Time)
  | .request recipient _ now => some (recipient, now)
  | _ => none

def defaultTip : Int := 1000000000

/-- The tip of a transaction: the suggested one if there is one and it is positive. -/
def tipCap (suggested : Option Int) : Int :=
  match suggested with
  | some tip => if tip ≤ 0 then defaultTip else tip
  | none => defaultTip

def buildTransaction (handler : Handler) (nonce : Nat) (baseFee tip : Int) : Transaction where
  nonce := nonce
  gasTipCap := tip
  gasFeeCap := baseFee * 2 + tip
  recipient := handler.recipient
  value := handler.amount

/-- The handler goes on with another call. -/
def State.await (s : State) (handler : Handler) (phase : Phase) : State :=
  { s with handler := some { handler with phase } }

/-- The handler gives up: the lock is released and nothing is recorded. -/
def State.release (s : State) : State := { s with handler := none }

def State.record (s : State) (handler : Handler) (index : Nat) : State :=
  { s with
    limiter := recordLocked s.limiter handler.recipient handler.amount handler.now
    recorded := s.recorded ++ [
      { recipient := handler.recipient
        record := { at_ := handler.now, amount := handler.amount }
        transaction := index }]
    handler := none }

def State.accept (s : State) (transaction : Transaction) : State :=
  { s with chain := s.chain ++ [(transaction, .pending)] }

def State.settle (s : State) (index : Nat) (transaction : Transaction) (succeeded : Bool) : State :=
  let status := if succeeded then Status.succeeded else .failed
  { s with chain := s.chain.set index (transaction, status) }

variable (policy : Policy) (expectedChainID : Int)

/-- The check under the lock. A handler that panics never releases the lock. -/
def State.check (s : State) (recipient : Address) (amount : Int) (now : Time) : State :=
  let (limiter, outcome) := checkLocked s.limiter recipient amount now policy
  let s := { s with limiter, lastReading := some now }
  match outcome with
  | .passed => { s with handler := some { recipient, amount, now, phase := .chainID } }
  | .denied _ _ => s
  | .indexOutOfRange => { s with panicked := true }

/-- The answer to the call that the handler waits for. -/
def State.answer (s : State) (handler : Handler) : Label → Option State
  | .failed =>
    match handler.phase with
    | .tip _ _ => none
    | _ => some s.release
  | .chainID id =>
    if handler.phase = .chainID then
      some (if id = expectedChainID then s.await handler .pendingNonce else s.release)
    else none
  | .pendingNonce nonce =>
    if handler.phase = .pendingNonce then some (s.await handler (.header nonce)) else none
  | .header baseFee =>
    match handler.phase with
    | .header nonce =>
      some (match baseFee with
        | some baseFee => s.await handler (.tip nonce baseFee)
        | none => s.release)
    | _ => none
  | .tip suggested =>
    match handler.phase with
    | .tip nonce baseFee =>
      some (s.await handler (.send (buildTransaction handler nonce baseFee (tipCap suggested))))
    | _ => none
  | .sent =>
    match handler.phase with
    | .send transaction =>
      some ((s.accept transaction).await handler (.receipt s.chain.length))
    | _ => none
  | .sentUnanswered =>
    match handler.phase with
    | .send transaction => some (s.accept transaction).release
    | _ => none
  | .receiptNotFound =>
    match handler.phase with
    | .receipt _ => some s
    | _ => none
  | .receipt =>
    match handler.phase with
    | .receipt index =>
      match s.chain[index]? with
      | some (_, .succeeded) => some (s.record handler index)
      | some (_, .failed) => some s.release
      | _ => none
    | _ => none
  | _ => none

/-- One step. Only a pending transaction is included in a block. -/
def step (s : State) (label : Label) : Option State :=
  match label with
  | .request recipient value now =>
    if s.handler = none ∧ s.panicked = false then
      match parseAmount policy value with
      | .ok amount => some (s.check policy recipient amount now)
      | .error _ => none
    else none
  | .included index succeeded =>
    match s.chain[index]? with
    | some (transaction, .pending) =>
      some (s.settle index transaction succeeded)
    | _ => none
  | label => s.handler.bind fun handler => s.answer expectedChainID handler label

/-- What has been recorded for an address, in the order in which it was recorded. -/
def State.history (s : State) (address : Address) : List FundingRecord :=
  (s.recorded.filter fun recorded => recorded.recipient = address).map Recorded.record

variable {policy expectedChainID}

/-! ## What a step does -/

inductive Effect (policy : Policy) (s t : State) : Label → Prop
  | checked (recipient : Address) (value : GoString) (now : Time) (amount : Int)
      (idle : s.handler = none) (parsed : parseAmount policy value = .ok amount)
      (result : t = s.check policy recipient amount now) :
      Effect policy s t (.request recipient value now)
  | awaits (label : Label) (handler : Handler) (phase : Phase) (active : s.handler = some handler)
      (builds : ∀ transaction, phase = .send transaction →
        transaction.recipient = handler.recipient ∧ transaction.value = handler.amount)
      (unsent : ∀ index, phase ≠ .receipt index ∧ handler.phase ≠ .receipt index)
      (result : t = s.await handler phase) : Effect policy s t label
  | sent (handler : Handler) (transaction : Transaction) (active : s.handler = some handler)
      (ready : handler.phase = .send transaction)
      (result : t = (s.accept transaction).await handler (.receipt s.chain.length)) :
      Effect policy s t .sent
  | unanswered (handler : Handler) (transaction : Transaction) (active : s.handler = some handler)
      (ready : handler.phase = .send transaction) (result : t = (s.accept transaction).release) :
      Effect policy s t .sentUnanswered
  | released (label : Label) (handler : Handler) (active : s.handler = some handler)
      (reason : label = .failed ∨ ∀ index, handler.phase = .receipt index →
        ∃ transaction, s.chain[index]? = some (transaction, .failed))
      (result : t = s.release) : Effect policy s t label
  | polled (result : t = s) : Effect policy s t .receiptNotFound
  | recorded (handler : Handler) (index : Nat) (transaction : Transaction)
      (active : s.handler = some handler) (waiting : handler.phase = .receipt index)
      (found : s.chain[index]? = some (transaction, .succeeded))
      (result : t = s.record handler index) : Effect policy s t .receipt
  | included (index : Nat) (succeeded : Bool) (transaction : Transaction)
      (found : s.chain[index]? = some (transaction, .pending))
      (result : t = s.settle index transaction succeeded) :
      Effect policy s t (.included index succeeded)

theorem effect_of_answer {s t : State} {handler : Handler} {label : Label}
    (active : s.handler = some handler)
    (answered : s.answer expectedChainID handler label = some t) : Effect policy s t label := by
  have other {phase : Phase} (same : handler.phase = phase)
    (other : ∀ index, phase ≠ .receipt index)
      (index : Nat) : handler.phase ≠ .receipt index := same ▸ other index
  cases label with
  | request | included => cases answered
  | failed =>
    simp only [State.answer] at answered
    split at answered
    · cases answered
    · exact .released _ handler active (.inl rfl) (Option.some.inj answered).symm
  | chainID id =>
    simp only [State.answer] at answered
    split_ifs at answered with here known
    · exact .awaits _ handler _ active (fun _ => Phase.noConfusion)
        (fun index => ⟨Phase.noConfusion, other here nofun index⟩)
        (Option.some.inj answered).symm
    · exact .released _ handler active
        (.inr fun index waiting => absurd waiting (other here nofun index))
        (Option.some.inj answered).symm
  | pendingNonce nonce =>
    simp only [State.answer] at answered
    split_ifs at answered with here
    exact .awaits _ handler _ active (fun _ => Phase.noConfusion)
      (fun index => ⟨Phase.noConfusion, other here nofun index⟩)
      (Option.some.inj answered).symm
  | header baseFee =>
    simp only [State.answer] at answered
    split at answered
    · rename_i nonce here
      cases baseFee with
      | some baseFee =>
        exact .awaits _ handler _ active (fun _ => Phase.noConfusion)
          (fun index => ⟨Phase.noConfusion, other here nofun index⟩)
          (Option.some.inj answered).symm
      | none =>
        exact .released _ handler active
          (.inr fun index waiting =>
            absurd waiting (other here nofun index))
          (Option.some.inj answered).symm
    · cases answered
  | tip suggested =>
    simp only [State.answer] at answered
    split at answered
    · rename_i nonce baseFee here
      refine .awaits _ handler _ active ?_
        (fun index => ⟨Phase.noConfusion, other here nofun index⟩)
        (Option.some.inj answered).symm
      intro transaction same
      obtain rfl := Phase.send.inj same
      exact ⟨rfl, rfl⟩
    · cases answered
  | sent =>
    simp only [State.answer] at answered
    split at answered
    · rename_i transaction here
      exact .sent handler transaction active here (Option.some.inj answered).symm
    · cases answered
  | sentUnanswered =>
    simp only [State.answer] at answered
    split at answered
    · rename_i transaction here
      exact .unanswered handler transaction active here (Option.some.inj answered).symm
    · cases answered
  | receiptNotFound =>
    simp only [State.answer] at answered
    split at answered
    · exact .polled (Option.some.inj answered).symm
    · cases answered
  | receipt =>
    simp only [State.answer] at answered
    split at answered
    · rename_i index here
      split at answered
      · rename_i transaction found
        exact .recorded handler index transaction active here found
          (Option.some.inj answered).symm
      · rename_i transaction found
        refine .released _ handler active (.inr fun other waiting => ⟨transaction, ?_⟩)
          (Option.some.inj answered).symm
        obtain rfl := Phase.receipt.inj (here.symm.trans waiting)
        exact found
      · cases answered
    · cases answered

theorem effect_of_step {s t : State} {label : Label}
    (taken : step policy expectedChainID s label = some t) : Effect policy s t label := by
  have answers {label : Label}
      (taken : (s.handler.bind fun handler => s.answer expectedChainID handler label) = some t) :
      Effect policy s t label := by
    obtain ⟨handler, active, answered⟩ := Option.bind_eq_some_iff.mp taken
    exact effect_of_answer active answered
  cases label with
  | request recipient value now =>
    simp only [step] at taken
    split_ifs at taken with free
    split at taken
    · rename_i amount parsed
      exact .checked recipient value now amount free.1 parsed (Option.some.inj taken).symm
    · cases taken
  | included index succeeded =>
    simp only [step] at taken
    split at taken
    · rename_i transaction found
      exact .included index succeeded transaction found (Option.some.inj taken).symm
    · cases taken
  | _ => exact answers taken

end Torium.LocalFaucet
