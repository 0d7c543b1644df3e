import Torium.Faucet.Worker
import Torium.Lib.Transition

/-!
# The service

A process of the service first puts the pending requests into the queue again and then
runs the worker, the probe and one thread for each client request. The handlers are
modelled from the point on where a request is well formed and its client is admitted;
before that they touch nothing that is shared here.

A crash takes everything but the journal. The next start opens the journal, replays it
and refuses a signer that was rotated out. The chain goes on all the time.
-/

namespace Torium.Faucet

open Evm Concurrent Attempt

/-- What a handler answers. -/
inductive Reply where
  | request (status : Nat) (request : Request) (replayed : Bool)
  | error (status : Nat) (message : GoString) (retryAfterSeconds : Int)
  | paused (reason : GoString)
  | resumed
  | rotated (oldSigner newSigner : Address)
  | drained (transactionHash : Bytes32) (amount : Int) (reserve : Address)
  | panicked
  deriving DecidableEq

def Reply.deny (status : Nat) (message : GoString) : Reply := .error status message 0

section Handlers

variable [EthText] (profile : Profile)

/-- The reply to an accepted request, after it was put into the queue. -/
def enqueueAccepted (accepted : Request) (now : Time) : Program service Reply := do
  if ← call (.tryEnqueue accepted.id) then pure (.request 202 accepted false)
  else
    let _ ← call (.perform (.recordFailed accepted.id (text "queue is full") now))
    pure (.deny 503 (text "funding queue is full; retry later"))

def acceptNew (idempotencyKey : GoString) (recipient : Address) (now : Time) :
    Program service Reply := do
  match ← call .newRequestID with
  | .error _ => pure (.deny 500 (text "request identifier generation failed"))
  | .ok requestID =>
    match ← call (.perform (.accept idempotencyKey recipient now requestID)) with
    | .denied denial => pure (.error 429 denial.reason denial.retryAfterSeconds)
    | .request existing true => pure (.request 200 existing true)
    | .request accepted false => enqueueAccepted accepted now
    | .failed _ => pure (.deny 500 (text "request could not be recorded"))
    | .panicked | .done => pure .panicked

def handleFund (idempotencyKey : GoString) (recipient : Address) : Program service Reply := do
  let now ← call .now
  match ← call (.findReplay idempotencyKey recipient now) with
  | some existing => pure (.request 200 existing true)
  | none => do
      let spent ← call (.spentToday now)
      let state ← call (.evaluate spent)
      if state.openReason ≠ [] then pure (.deny 503 state.openReason)
      else acceptNew idempotencyKey recipient now

def handlePause (reason : GoString) : Program service Reply := do
  let reason := if reason = [] then text "operator pause" else reason
  let now ← call .now
  match ← call (.perform (.pause reason now)) with
  | .failed error => pure (.deny 500 error.message)
  | .done | .request _ _ | .denied _ | .panicked => pure (.paused reason)

def handleResume : Program service Reply := do
  let now ← call .now
  match ← call (.perform (.resume now)) with
  | .failed error => pure (.deny 500 error.message)
  | .done | .request _ _ | .denied _ | .panicked => do
      call .resetErrorWindow
      pure .resumed

/-- The key file is loaded before; a key is its address. -/
def handleRotate (newAddress : Address) : Program service Reply := do
  if ← call (.signerFenced newAddress) then
    pure (.deny 409 (text "replacement key was previously fenced and can never sign again"))
  else
    let active ← call .signerAddress
    if newAddress = active then
      pure (.deny 409 (text "replacement key matches the active signer"))
    else
      let oldAddress ← call (.rotate newAddress)
      let now ← call .now
      match ← call (.perform (.recordRotation oldAddress newAddress now)) with
      | .failed error => pure (.deny 500 error.message)
      | .done | .request _ _ | .denied _ | .panicked => do
          call .resetErrorWindow
          pure (.rotated oldAddress newAddress)

def handleDrain (reserve : Address) : Program service Reply := do
  match ← (drain profile reserve).run with
  | .error error => pure (.deny 409 error.message)
  | .ok (hash, value) => pure (.drained hash value reserve)

end Handlers

/-- A client request that reaches its handler. -/
inductive ClientRequest where
  | fund (idempotencyKey : GoString) (recipient : Address)
  | pause (reason : GoString)
  | resume
  | rotate (newAddress : Address)
  | drain (reserve : Address)
  deriving DecidableEq

def ClientRequest.handler [EthText] (profile : Profile) : ClientRequest → Program service Reply
  | .fund idempotencyKey recipient => handleFund idempotencyKey recipient
  | .pause reason => handlePause reason
  | .resume => handleResume
  | .rotate newAddress => handleRotate newAddress
  | .drain reserve => handleDrain profile reserve

/-- The threads of a process that serves requests. -/
structure Threads where
  worker : Program service WorkerState
  probe : Program service Probed
  handlers : List (Program service Reply) := []

inductive Stage where
  | down
  | starting (reconcile : Program service (Except GoError Unit))
  | serving (threads : Threads)

structure System where
  world : World
  stage : Stage := .down

inductive Label where
  /-- The process starts, with the signer's key from its file. -/
  | start (key : Address)
  | crash
  | shutdown
  /-- A step of the start-up. -/
  | main (choice : Choice)
  | worker (choice : Choice)
  | probe (choice : Choice)
  | open_ (request : ClientRequest)
  | handler (index : Nat) (choice : Choice)
  | chain (step : ChainStep)
  deriving DecidableEq

section Step

variable [EthText] [Digest] (profile : Profile)

/-- A new process: the store is rebuilt from the journal. -/
def boot (world : World) (key : Address) : Option System :=
  let entries := world.store.journal.entries
  match newStore (openJournal entries) entries profile with
  | .error _ => none
  | .ok store =>
    if store.signerFenced key then none
    else some
      { world :=
          { world with store, breakers := {}, signer := key, queue := [], stopping := false }
        stage := .starting reconcile.run }

/-- The start-up, and the threads that it ends with. -/
def stepMain (world : World) (program : Program service (Except GoError Unit)) (choice : Choice) :
    Option System :=
  match program with
  | .done (.ok ()) => some
      { world, stage := .serving { worker := workerTurn profile .waiting
                                   probe := probeOnce profile none } }
  | .done (.error _) => some { world, stage := .down }
  | .call c next =>
    (Program.step execute choice world (.call c next)).map fun (program, world) =>
      { world, stage := .starting program }

/-- A thread that runs in a loop goes on with its next turn when one is done. -/
def stepLoop {ω : Type} (turn : ω → Program service ω) (world : World)
    (program : Program service ω) (choice : Choice) : Option (Program service ω × World) :=
  match program with
  | .done state => some (turn state, world)
  | .call c next => Program.step execute choice world (.call c next)

def System.step (system : System) : Label → Option System
  | .start key =>
    match system.stage with
    | .down => boot profile system.world key
    | .starting _ | .serving _ => none
  | .crash => some { system with stage := .down }
  | .shutdown => some { system with world := { system.world with stopping := true } }
  | .main choice =>
    match system.stage with
    | .starting program => stepMain profile system.world program choice
    | .down | .serving _ => none
  | .worker choice =>
    match system.stage with
    | .serving threads =>
      (stepLoop (workerTurn profile) system.world threads.worker choice).map
        fun (worker, world) => { world, stage := .serving { threads with worker } }
    | .down | .starting _ => none
  | .probe choice =>
    match system.stage with
    | .serving threads =>
      (stepLoop (probeOnce profile) system.world threads.probe choice).map
        fun (probe, world) => { world, stage := .serving { threads with probe } }
    | .down | .starting _ => none
  | .open_ request =>
    match system.stage with
    | .serving threads => some { system with
        stage := .serving { threads with
          handlers := threads.handlers ++ [request.handler profile] } }
    | .down | .starting _ => none
  | .handler index choice =>
    match system.stage with
    | .serving threads => do
        let program ← threads.handlers[index]?
        let (program, world) ← program.step execute choice system.world
        some { world, stage := .serving { threads with
          handlers := threads.handlers.set index program } }
    | .down | .starting _ => none
  | .chain step => do
      let chain ← system.world.chain.step step
      some { system with world := { system.world with chain } }

/-- Before the first start: the journal is empty and nothing was sent. -/
def System.Initial (system : System) : Prop :=
  ∃ signer nonces height, system =
    { world :=
        { store := { journal := openJournal [], profile }
          signer
          chain := { nonces, height } } }

end Step

end Torium.Faucet
