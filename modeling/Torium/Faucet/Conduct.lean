import Torium.Faucet.Quiet
import Torium.Faucet.Steps
import Torium.Lib.Protocol

/-!
# Threads that follow a protocol

When all programs of the service follow a protocol, its invariant holds in every state
that is reached, and its guarantee holds of every command that is executed.
-/

namespace Torium.Faucet

open Evm Concurrent

/-- The threads of a process. -/
inductive Role where
  | main
  | worker
  | probe
  | handler
  deriving DecidableEq

/-- The thread that takes a step; the start-up stands for the steps that no thread takes. -/
def Label.role : Label → Role
  | .worker _ => .worker
  | .probe _ => .probe
  | .handler _ _ => .handler
  | .start _ | .crash | .shutdown | .main _ | .open_ _ | .chain _ => .main

/-! ## The worker -/

section Worker

variable [EthText] {σ τ : Type}
variable {execute : (c : Command) → Choice → σ → Option (Response c × σ)}

/-- The tokens of the worker between its turns. -/
def WorkerState.hands (resting : Multiset τ) (holding : GoString → Multiset τ) :
    WorkerState → Multiset τ
  | .processing requestID _ => holding requestID
  | .waiting | .stopped => resting

/-- What the worker owns at the parts of its loop. It holds tokens for the request that it
drives, and has those of a worker at rest again when it leaves the request. -/
structure Tends (P : Protocol (F := service) execute τ) (profile : Profile)
    (resting : Multiset τ) (holding : GoString → Multiset τ) : Prop where
  idle : ∀ {c : Command} {owned}, c.inert = true ∧ c.keyless = true →
    (owned = resting ∨ ∃ requestID, owned = holding requestID) →
      Follows P (call c) (fun _ kept => kept = owned) owned
  awake : ∀ requestID, Follows P (call .sleep)
    (fun awake owned => owned = if awake then holding requestID else resting) (holding requestID)
  running : ∀ requestID, Follows P (call (.contextErr false))
    (fun stopping owned => owned = if stopping then resting else holding requestID)
    (holding requestID)
  dequeue : Follows P (call .dequeue) (fun found owned => owned = found.elim resting holding)
    resting
  get : ∀ requestID, Follows P (call (.get requestID)) (fun found owned =>
    (∀ request : Request, found = some request → request.status.isPending = true →
      owned = holding requestID ∧ holding request.id = holding requestID) ∧
    ((∀ request : Request, found = some request → request.status.isPending = false) →
      owned = resting)) (holding requestID)
  settle : ∀ request, FollowsAttempt P (settleSubmission request)
    (fun outcome owned => owned = if outcome = .confirmed then resting else holding request.id)
    (fun _ owned => owned = holding request.id) (holding request.id)
  replace : ∀ request bump, FollowsAttempt P (replaceSubmission profile request bump)
    (fun _ owned => owned = holding request.id) (fun _ owned => owned = holding request.id)
    (holding request.id)
  fund : ∀ requestID, FollowsAttempt P (fundOnce profile requestID)
    (fun _ owned => owned = resting)
    (fun error owned => owned = if error.canceled then resting else holding requestID)
    (holding requestID)
  fail : ∀ requestID reason time,
    Follows P (call (.perform (.recordFailed requestID reason time)))
      (fun _ owned => owned = resting) (holding requestID)

namespace Tends

variable {P : Protocol (F := service) execute τ} {profile : Profile}
variable {resting : Multiset τ} {holding : GoString → Multiset τ}
variable (tends : Tends P profile resting holding)
variable {requestID : GoString} {progress : Progress} {request : Request}

/-- What the worker owns when it goes round again, and when it leaves. -/
def After (resting : Multiset τ) (holding : GoString → Multiset τ) (requestID : GoString)
    (again : Option Progress) (owned : Multiset τ) : Prop :=
  owned = if again.isSome then holding requestID else resting

include tends

theorem call_idle {α : Type} {c : Command} {next : Response c → Program service α}
    {post : α → Multiset τ → Prop} (idle : c.inert = true ∧ c.keyless = true)
    (rest : ∀ response, Follows P (next response) post (holding requestID)) :
    Follows P (call c >>= next) post (holding requestID) :=
  .retains_bind (only_call (tends.idle idle (.inr ⟨requestID, rfl⟩))) rest

theorem retryLater :
    Follows P (retryLater progress) (After resting holding requestID) (holding requestID) := by
  refine .bind ((tends.awake requestID).mono fun awake owned holds => ?_)
  subst holds
  cases awake <;> exact .done rfl

theorem giveUp {reason : GoString} :
    Follows P (giveUp requestID reason) (After resting holding requestID) (holding requestID) := by
  refine tends.call_idle ⟨rfl, rfl⟩ fun _ => tends.call_idle ⟨rfl, rfl⟩ fun time => .bind ?_
  exact (tends.fail requestID reason time).mono fun _ _ none => .done none

theorem leave : Follows P (call (.recordOutcome true) >>= fun _ => pure none)
    (After resting holding requestID) resting :=
  .retains_bind (only_call (tends.idle ⟨rfl, rfl⟩ (.inl rfl))) fun _ => .done rfl

theorem attemptFunding :
    Follows P (attemptFunding profile requestID progress) (After resting holding requestID)
      (holding requestID) := by
  refine tends.call_idle ⟨rfl, rfl⟩ fun signerAddress =>
    tends.call_idle ⟨rfl, rfl⟩ fun fenced => ?_
  split_ifs
  · exact tends.retryLater
  · refine .bind ((tends.fund requestID).mono fun result owned holds => ?_)
    rcases result with error | _
    · dsimp only at holds ⊢
      subst holds
      split_ifs
      · exact .done rfl
      · exact tends.giveUp
      · exact tends.retryLater
    · subst holds
      exact tends.leave

theorem awaitOrReplace (same : holding request.id = holding requestID) :
    Follows P (awaitOrReplace profile request progress) (After resting holding requestID)
      (holding requestID) := by
  refine tends.call_idle ⟨rfl, rfl⟩ fun now => ?_
  extract_lets since
  split
  · rw [← same]
    refine .bind ((tends.replace request _).mono fun result owned holds => ?_)
    rw [same] at holds
    rcases result with error | _ <;> subst holds <;> exact tends.retryLater
  · exact tends.retryLater

theorem settleAndContinue (same : holding request.id = holding requestID) :
    Follows P (settleAndContinue profile requestID request progress)
      (After resting holding requestID)
      (holding requestID) := by
  have settle := tends.settle request
  rw [same] at settle
  refine .bind (settle.mono fun result owned holds => ?_)
  rcases result with error | outcome
  · subst holds
    exact tends.retryLater
  · subst holds
    cases outcome with
    | confirmed => exact tends.leave
    | reverted => exact tends.giveUp
    | gone => exact tends.attemptFunding
    | unknown => exact tends.awaitOrReplace same

theorem advance (same : holding request.id = holding requestID) :
    Follows P (advance profile requestID request progress) (After resting holding requestID)
      (holding requestID) := by
  refine tends.call_idle ⟨rfl, rfl⟩ fun paused => ?_
  split
  · exact tends.retryLater
  · refine tends.call_idle ⟨rfl, rfl⟩ fun state => ?_
    split_ifs
    · exact tends.retryLater
    · exact tends.settleAndContinue same
    · exact tends.attemptFunding

theorem processOnce :
    Follows P (processOnce profile requestID progress) (After resting holding requestID)
      (holding requestID) := by
  refine .bind ((tends.running requestID).mono fun stopping owned holds => ?_)
  subst holds
  split_ifs
  · exact .done rfl
  · refine .bind ((tends.get requestID).mono fun found owned ⟨pending, settled⟩ => ?_)
    cases found with
    | none => exact .done (settled nofun)
    | some request =>
      have left (terminal : request.status.isPending = false) : owned = resting :=
        settled fun _ same => Option.some.inj same ▸ terminal
      have advances (waits : request.status.isPending = true) :
          Follows P (Faucet.advance profile requestID request progress)
            (After resting holding requestID) owned := by
        obtain ⟨rfl, same⟩ := pending request rfl waits
        exact tends.advance same
      dsimp only
      cases status : request.status with
      | confirmed | failed | denied => exact .done (left (by rw [status]; rfl))
      | queued | submitted => exact advances (by rw [status]; rfl)

theorem workerTurn (state : WorkerState) :
    Follows P (workerTurn profile state) (fun state owned => owned = state.hands resting holding)
      (state.hands resting holding) := by
  cases state with
  | waiting =>
    refine .bind (tends.dequeue.mono fun found owned holds => ?_)
    subst holds
    cases found <;> exact .done rfl
  | processing requestID progress =>
    refine .bind (tends.processOnce.mono fun again owned holds => ?_)
    cases again <;> exact .done holds
  | stopped => exact .done rfl

end Tends

/-- The handlers own nothing but a request that they have accepted and not yet handed on. -/
theorem handler_follows {P : Protocol (F := service) execute τ} {profile : Profile}
    (holding : GoString → Multiset τ)
    (neutral : ∀ {c : Command}, c.neutral = true → Follows P (call c) (fun _ kept => kept = 0) 0)
    (accepts : ∀ clientKey address at_ requestID,
      Follows P (call (.perform (.accept clientKey address at_ requestID))) (fun outcome owned =>
        (∀ accepted, outcome = .request accepted false → owned = holding accepted.id) ∧
          ((∀ accepted, outcome ≠ .request accepted false) → owned = 0)) 0)
    (enqueues : ∀ accepted now, Follows P (enqueueAccepted accepted now) (fun _ owned => owned = 0)
      (holding accepted.id)) (request : ClientRequest) :
    Follows P (request.handler profile) (fun _ owned => owned = 0) 0 := by
  have ask {c : Command} {next : Response c → Program service Reply} (here : c.neutral = true)
      (rest : ∀ response, Follows P (next response) (fun _ owned => owned = 0) 0) :
      Follows P (call c >>= next) (fun _ owned => owned = 0) 0 :=
    .retains_bind (only_call (neutral here)) rest
  cases request with
  | fund idempotencyKey recipient =>
    refine ask rfl fun now => ask rfl fun existing => ?_
    cases existing with
    | some existing => exact .done rfl
    | none =>
      refine ask rfl fun spent => ask rfl fun state => ?_
      split_ifs
      · exact .done rfl
      · refine ask rfl fun identifier => ?_
        cases identifier with
        | error error => exact .done rfl
        | ok requestID =>
          refine .bind ((accepts idempotencyKey recipient now requestID).mono ?_)
          rintro outcome owned ⟨accepted, refused⟩
          rcases outcome with _ | ⟨request, _ | _⟩ | _ | _ | _
          case request.false =>
            cases accepted request rfl
            exact enqueues request now
          all_goals exact .done (refused (by simp))
  | pause | resume | rotate | drain =>
    exact .retains (Program.Only.mono (fun _ => neutral)
      (neutral_handler profile fun _ _ => by simp)) fun _ => rfl

end Worker

section Conduct

variable [EthText] [Digest] {τ : Type}

/-- The start-up runs alone and may have a protocol of its own. The threads of a process that
serves requests share one; what they guarantee depends on the thread. -/
structure Regime (τ : Type) where
  starting : Protocol (F := service) execute τ
  serving : Protocol (F := service) execute τ
  grants : Role → (c : Command) → World → Response c → World → Prop

namespace Regime

/-- The protocol of a thread. -/
def protocol (R : Regime τ) (role : Role) : Protocol (F := service) execute τ :=
  match role with
  | .main => R.starting.granting (R.grants .main)
  | .worker | .probe | .handler => R.serving.granting (R.grants role)

/-- One protocol for all. -/
def uniform (P : Protocol (F := service) execute τ) : Regime τ := ⟨P, P, fun _ => P.guarantee⟩

end Regime

variable (R : Regime τ) (profile : Profile) (turn : WorkerState → Multiset τ)

/-- All programs of the service follow their protocols. Between its turns the worker owns the
tokens that go with its state. -/
structure Conduct : Prop where
  lenient : R.starting.lenient ∧ R.serving.lenient := by exact ⟨trivial, trivial⟩
  boots : ∀ {world key system}, R.serving.invariant 0 world → boot profile world key = some system →
    ∃ owned, R.starting.invariant owned system.world ∧ ∃ program,
      system.stage = .starting program ∧ Follows (R.protocol .main) program (fun _ _ => True) owned
  ready : ∀ {owned world}, R.starting.invariant owned world → R.serving.invariant 0 world
  stops : ∀ role {owned} {world : World}, (R.protocol role).invariant owned world →
    (R.protocol role).invariant owned { world with stopping := true }
  lands : ∀ role {owned} {world : World} {step chain}, (R.protocol role).invariant owned world →
    world.chain.step step = some chain → (R.protocol role).invariant owned { world with chain }
  waiting : turn .waiting = 0
  worker : ∀ state, Follows (R.protocol .worker) (workerTurn profile state)
    (fun state owned => owned = turn state) (turn state)
  probe : ∀ probed, Follows (R.protocol .probe) (probeOnce profile probed) (fun _ _ => True) 0
  handler : ∀ request : ClientRequest,
    Follows (R.protocol .handler) (request.handler profile) (fun _ _ => True) 0

/-- What the threads of a process that serves requests own. -/
def Threads.Own (threads : Threads) (owned : Multiset τ) : Prop :=
  ∃ worker probe handlers, owned = worker + (probe + handlers) ∧
    Follows (R.protocol .worker) threads.worker (fun state owned => owned = turn state) worker ∧
    Follows (R.protocol .probe) threads.probe (fun _ _ => True) probe ∧
    Shares (fun program => Follows (R.protocol .handler) program (fun _ _ => True))
      threads.handlers handlers

/-- The invariant holds of the tokens that the threads own. -/
def System.Follows (system : System) : Prop :=
  match system.stage with
  | .down => R.serving.invariant 0 system.world
  | .starting program => ∃ owned, R.starting.invariant owned system.world ∧
      Concurrent.Follows (R.protocol .main) program (fun _ _ => True) owned
  | .serving threads => ∃ owned, R.serving.invariant owned system.world ∧ threads.Own R turn owned

/-- The command of the step is permitted. -/
def System.Permits (system : System) (label : Label) : Prop :=
  ∀ c, system.stage.next? label = some c →
    (R.protocol label.role).permitted c label.choice system.world

/-- The command of the step, if there is one, does what the thread guarantees. -/
def System.Grants (system : System) (label : Label) (system' : System) : Prop :=
  ∀ c, system.stage.next? label = some c → ∃ response,
    execute c label.choice system.world = some (response, system'.world) ∧
      R.grants label.role c system.world response system'.world

section Attempts

variable {P : Protocol (F := service) execute τ} {α : Type} {post : α → Multiset τ → Prop}
variable {failed : Multiset τ → Prop} {owned : Multiset τ}

theorem follows_rpc {context : String} {program : Program service (Except GoError α)}
    (follows : FollowsAttempt P (ExceptT.mk program) post (fun _ => failed) owned) :
    FollowsAttempt P (Attempt.rpc context program) post (fun _ => failed) owned := by
  refine Follows.bind (follows.mono fun result owned holds => ?_)
  cases result with
  | ok value => exact .done holds
  | error error => exact .done holds

theorem follows_require {condition : Prop} [Decidable condition] {message : GoString}
    {post : Unit → Multiset τ → Prop} (holds : condition → post () owned) (kept : failed owned) :
    FollowsAttempt P (Attempt.require condition message) post (fun _ => failed) owned := by
  unfold Attempt.require
  split_ifs with here
  · exact .done (holds here)
  · exact .done kept

/-- An operation that is recorded at some time. -/
theorem follows_record {context : String} {operation : Time → Operation}
    {post : Unit → Multiset τ → Prop} (lenient : P.lenient) (clock : Respects P .now)
    (performs : ∀ time, Follows P (call (.perform (operation time))) (fun outcome owned =>
      match outcome with
      | .failed _ => failed owned
      | .done | .request _ _ | .denied _ | .panicked => post () owned) owned) :
    FollowsAttempt P (Attempt.record context operation) post (fun _ => failed) owned := by
  refine .bind (.lift (.respects lenient (only_command clock) fun time => ?_))
  refine .bind (.lift ((performs time).mono fun outcome owned holds => ?_))
  cases outcome <;> exact .done holds

end Attempts

/-! ## The worker -/

/-- The worker holds tokens for the request that it drives. They come with the request from
the queue, and the worker keeps them until the request is in a terminal state. -/
structure Drives (P : Protocol (F := service) execute τ) (profile : Profile)
    (holding : GoString → Multiset τ) : Prop where
  inert : ∀ {c : Command}, c.inert = true → Respects P c
  dequeue : Follows P (call .dequeue)
    (fun found owned => ∀ requestID, found = some requestID → owned = holding requestID) 0
  get : ∀ requestID, Follows P (call (.get requestID)) (fun found owned =>
    owned = holding requestID ∧
      ∀ request, found = some request → holding request.id = holding requestID) (holding requestID)
  settle : ∀ request, FollowsAttempt P (settleSubmission request)
    (fun outcome owned => outcome ≠ .confirmed → owned = holding request.id)
    (fun _ owned => owned = holding request.id) (holding request.id)
  replace : ∀ request bump, FollowsAttempt P (replaceSubmission profile request bump)
    (fun _ owned => owned = holding request.id) (fun _ owned => owned = holding request.id)
    (holding request.id)
  fund : ∀ requestID, FollowsAttempt P (fundOnce profile requestID) (fun _ _ => True)
    (fun _ owned => owned = holding requestID) (holding requestID)
  fail : ∀ requestID reason time,
    Follows P (call (.perform (.recordFailed requestID reason time))) (fun _ _ => True)
      (holding requestID)

/-- The worker gives the tokens of a request up when it leaves the request. -/
theorem Drives.tends {P : Protocol (F := service) execute τ} {profile : Profile}
    {holding : GoString → Multiset τ} (drives : Drives P profile holding) (lenient : P.lenient) :
    Tends P profile 0 holding := by
  have gives {owned kept : Multiset τ} (part : kept = owned ∨ kept = 0) : P.Gives owned kept := by
    refine part.imp_right fun nothing => ⟨lenient, ?_⟩
    rw [nothing]
    exact Multiset.zero_le owned
  have shed {α : Type} {program : Program service α} {post : α → Multiset τ → Prop}
      {target : α → Multiset τ} {owned : Multiset τ} (follows : Follows P program post owned)
      (part : ∀ value owned, post value owned → target value = owned ∨ target value = 0) :
      Follows P program (fun value owned => owned = target value) owned :=
    follows.relax fun value owned holds => ⟨_, gives (part value owned holds), rfl⟩
  have inert {c : Command} (owned : Multiset τ) (inert : c.inert = true) :
      Follows P (call c) (fun _ kept => kept = owned) owned :=
    .respects lenient (only_call (drives.inert inert)) fun _ => rfl
  exact
  { idle := fun idle _ => inert _ idle.1
    awake := fun requestID => shed (inert _ rfl) fun awake owned held => by
      cases awake
      · exact .inr rfl
      · exact .inl held.symm
    running := fun requestID => shed (inert _ rfl) fun stopping owned held => by
      cases stopping
      · exact .inl held.symm
      · exact .inr rfl
    dequeue := shed drives.dequeue fun found owned held => by
      cases found with
      | none => exact .inr rfl
      | some requestID => exact .inl (held requestID rfl).symm
    get := fun requestID => (drives.get requestID).relax fun found owned ⟨held, same⟩ => by
      by_cases waits : ∃ request, found = some request ∧ request.status.isPending = true
      · obtain ⟨request, rfl, waits⟩ := waits
        refine ⟨owned, gives (.inl rfl), fun other found _ => ⟨held, same other found⟩, ?_⟩
        intro settled
        rw [settled request rfl] at waits
        cases waits
      · exact ⟨0, gives (.inr rfl), fun request found pending =>
          absurd ⟨request, found, pending⟩ waits, fun _ => rfl⟩
    settle := fun request => (drives.settle request).relax fun result owned holds => by
      rcases result with error | outcome
      · exact ⟨owned, gives (.inl rfl), holds⟩
      · refine ⟨_, gives ?_, rfl⟩
        split_ifs with confirmed
        · exact .inr rfl
        · exact .inl (holds confirmed).symm
    replace := drives.replace
    fund := fun requestID => (drives.fund requestID).relax fun result owned holds => by
      rcases result with error | _
      · refine ⟨_, gives ?_, rfl⟩
        split_ifs
        · exact .inr rfl
        · exact .inl holds.symm
      · exact ⟨0, gives (.inr rfl), rfl⟩
    fail := fun requestID reason time => (drives.fail requestID reason time).release lenient }

/-! ## Steps -/

variable {R profile turn} {world world' : World} {system system' : System} {label : Label}
variable {choice : Choice}

section Threads

variable {P : Protocol (F := service) execute τ} {owned others : Multiset τ}

/-- A step of a thread, while the others keep their tokens. -/
theorem thread_step {α : Type} {program program' : Program service α}
    {post : α → Multiset τ → Prop}
    (follows : Follows P program post owned) (holds : P.invariant (owned + others) world)
    (may : ∀ c, program.next? = some c → P.permitted c choice world)
    (taken : program.step execute choice world = some (program', world')) :
    (∃ owned', P.invariant (owned' + others) world' ∧ Follows P program' post owned') ∧
      ∀ c, program.next? = some c → ∃ response,
        execute c choice world = some (response, world') ∧ P.guarantee c world response world' := by
  obtain ⟨⟨c, response, next, executed, granted⟩, later⟩ := follows.step holds may taken
  refine ⟨later, fun c' next' => ?_⟩
  cases next.symm.trans next'
  exact ⟨response, executed, granted⟩

/-- A step of a thread that runs in a loop. -/
theorem loop_step {ω : Type} {body : ω → Program service ω} {program program' : Program service ω}
    {post : ω → Multiset τ → Prop}
    (again : ∀ state owned, post state owned → Follows P (body state) post owned)
    (follows : Follows P program post owned) (holds : P.invariant (owned + others) world)
    (may : ∀ c, program.next? = some c → P.permitted c choice world)
    (taken : stepLoop body world program choice = some (program', world')) :
    (∃ owned', P.invariant (owned' + others) world' ∧ Follows P program' post owned') ∧
      ∀ c, program.next? = some c → ∃ response,
        execute c choice world = some (response, world') ∧ P.guarantee c world response world' := by
  obtain ⟨state, rfl, rfl, rfl⟩ | stepped := stepLoop_cases taken
  · obtain ⟨kept, gives, here⟩ := follows
    exact ⟨⟨owned, holds, (again state kept here).weaken gives⟩, fun _ next => nomatch next⟩
  · exact thread_step follows holds may stepped

end Threads

theorem System.Grants.of_none (none : system.stage.next? label = none) :
    system.Grants R label system' := by
  intro c next
  rw [none] at next
  cases next

/-- A step of one of the handlers. -/
theorem handler_step {threads : Threads} {owned : Multiset τ} {index : Nat}
    {program program' : Program service Reply} (holds : R.serving.invariant owned world)
    (own : threads.Own R turn owned) (found : threads.handlers[index]? = some program)
    (permits : System.Permits R { world, stage := .serving threads } (.handler index choice))
    (taken : program.step execute choice world = some (program', world')) :
    let system' : System :=
      { world := world'
        stage := .serving { threads with handlers := threads.handlers.set index program' } }
    system'.Follows R turn ∧
      System.Grants R { world, stage := .serving threads } (.handler index choice) system' := by
  obtain ⟨worker, probe, handlers, rfl, first, second, pool⟩ := own
  obtain ⟨own, others, rfl, follows, back⟩ := pool.focus found
  have around (own : Multiset τ) :
      worker + (probe + (own + others)) = own + (worker + (probe + others)) := by
    rw [add_left_comm probe, add_left_comm worker]
  rw [around] at holds
  obtain ⟨⟨own', holds', follows'⟩, grants⟩ :=
    thread_step follows holds (fun c issued => permits c (Stage.next?_of_handler found issued))
      taken
  refine ⟨⟨own' + (worker + (probe + others)), holds', worker, probe, own' + others, ?_, first,
    second, back follows'⟩, ?_⟩
  · exact (around own').symm
  · intro c issued
    obtain ⟨program'', found', issued'⟩ := Option.bind_eq_some_iff.mp issued
    cases found.symm.trans found'
    exact grants c issued'

/-- A step that leaves the threads alone keeps the invariant, whatever the tokens. -/
theorem System.Follows.of_world (follows : system.Follows R turn)
    (kept : ∀ role owned, (R.protocol role).invariant owned system.world →
      (R.protocol role).invariant owned world') :
    System.Follows R turn { system with world := world' } := by
  obtain ⟨world, stage⟩ := system
  cases stage with
  | down => exact kept .worker 0 follows
  | starting program =>
    obtain ⟨owned, holds, rest⟩ := follows
    exact ⟨owned, kept .main owned holds, rest⟩
  | serving threads =>
    obtain ⟨owned, holds, rest⟩ := follows
    exact ⟨owned, kept .worker owned holds, rest⟩

namespace Conduct

variable (conduct : Conduct R profile turn)

include conduct

/-- A crash leaves the invariant without tokens. -/
theorem dropped (follows : system.Follows R turn) : R.serving.invariant 0 system.world := by
  obtain ⟨world, stage⟩ := system
  cases stage with
  | down => exact follows
  | starting program =>
    obtain ⟨owned, holds, -⟩ := follows
    exact conduct.ready holds
  | serving threads =>
    obtain ⟨owned, holds, -⟩ := follows
    rw [← add_zero owned] at holds
    exact R.serving.drop conduct.lenient.2 holds

/-- Every permitted step keeps the invariant and does what is guaranteed. -/
theorem step (follows : system.Follows R turn) (permits : system.Permits R label)
    (taken : system.step profile label = some system') :
    system'.Follows R turn ∧ system.Grants R label system' := by
  have dropped := conduct.dropped follows
  cases System.step_takes taken with
  | start booted =>
    obtain ⟨owned, holds, program, same, follows'⟩ := conduct.boots dropped booted
    refine ⟨?_, .of_none rfl⟩
    rw [System.Follows, same]
    exact ⟨owned, holds, follows'⟩
  | crash => exact ⟨dropped, .of_none Stage.next?_of_crash⟩
  | shutdown =>
    exact ⟨follows.of_world fun role _ => conduct.stops role,
      .of_none Stage.next?_of_shutdown⟩
  | main stepped =>
    obtain ⟨owned, holds, program⟩ := follows
    rw [← add_zero owned] at holds
    obtain ⟨⟨owned', holds', follows'⟩, grants⟩ := thread_step program holds permits stepped
    rw [add_zero] at holds'
    exact ⟨⟨owned', holds', follows'⟩, grants⟩
  | ready =>
    have worker := conduct.worker .waiting
    rw [conduct.waiting] at worker
    exact ⟨⟨0, dropped, 0, 0, 0, rfl, worker, conduct.probe none, .nil⟩, .of_none rfl⟩
  | abort => exact ⟨dropped, .of_none rfl⟩
  | worker stepped =>
    obtain ⟨-, holds, worker, probe, handlers, rfl, follows, rest⟩ := follows
    obtain ⟨⟨owned', holds', follows'⟩, grants⟩ := loop_step
      (fun state owned same => same ▸ conduct.worker state) follows holds permits stepped
    exact ⟨⟨_, holds', owned', probe, handlers, rfl, follows', rest⟩, grants⟩
  | probe stepped =>
    obtain ⟨-, holds, worker, probe, handlers, rfl, first, follows, rest⟩ := follows
    rw [add_left_comm] at holds
    obtain ⟨⟨owned', holds', follows'⟩, grants⟩ := loop_step
      (fun state owned _ => (conduct.probe state).unneeded conduct.lenient.2)
      follows holds permits stepped
    exact ⟨⟨_, holds', worker, owned', handlers, add_left_comm _ _ _, first, follows', rest⟩,
      grants⟩
  | open_ =>
    obtain ⟨-, holds, worker, probe, handlers, rfl, first, second, rest⟩ := follows
    exact ⟨⟨_, holds, worker, probe, handlers, rfl, first, second,
      rest.snoc (conduct.handler _)⟩, .of_none rfl⟩
  | handler found stepped =>
    obtain ⟨owned, holds, own⟩ := follows
    exact handler_step holds own found permits stepped
  | chain stepped =>
    exact ⟨follows.of_world fun role _ holds => conduct.lands role holds stepped,
      .of_none Stage.next?_of_chain⟩

end Conduct

end Conduct

end Torium.Faucet
