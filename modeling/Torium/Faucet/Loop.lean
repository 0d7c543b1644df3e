import Torium.Faucet.Conduct

/-!
# The loop of the worker

The worker drives one request after the other. It settles a submission that is in flight
from what the chain shows, and funds a request only when nothing is in flight for it. What
these words mean depends on what is to be verified, so they are parameters here: the loop
runs under every discipline that has the specifications of its parts. The other threads
interfere with the worker, and a step of the service keeps the invariant of the discipline
when their commands do no more than the discipline lets them.
-/

namespace Torium.Faucet

open Evm Concurrent

section Attempts

variable {α : Type} {D : Discipline service Choice World} {pre failed : World → Prop}
variable {post : α → World → Prop}

theorem attempts_rpc {context : String} {program : Program service (Except GoError α)}
    (stable : ∀ value, Stable D (post value)) (stable' : Stable D failed)
    (done : Triple D pre program fun result world => match result with
      | .ok value => post value world
      | .error _ => failed world) :
    Attempts D pre (Attempt.rpc context program) post fun _ => failed := by
  refine Triple.bind done fun result => ?_
  cases result with
  | ok value => exact Triple.done (stable value) fun _ => id
  | error error => exact Triple.done stable' fun _ => id

theorem attempts_require {condition : Prop} [Decidable condition] {message : GoString}
    (stable : Stable D pre) {failed : GoError → World → Prop}
    (failed_of : ¬ condition → ∀ world, pre world → failed { message } world) :
    Attempts D pre (Attempt.require condition message) (fun _ world => condition ∧ pre world)
      failed := by
  unfold Attempt.require
  split_ifs with holds
  · exact Attempts.pure stable fun _ here => ⟨holds, here⟩
  · exact Attempts.throw stable (failed_of holds)

end Attempts

/-- What is known about a request that was read: a submission of it is in flight, or it may be
funded if it is pending. -/
def Request.Read (clear : GoString → World → Prop) (inFlight : Request → World → Prop)
    (requestID : GoString) (request : Request) (world : World) : Prop :=
  request.id = requestID ∧
    (request.status = .submitted ∧ request.transactionHash ≠ [] → inFlight request world) ∧
    (request.status.isPending = true →
      ¬ (request.status = .submitted ∧ request.transactionHash ≠ []) → clear requestID world)

variable {request : Request}

theorem Stable.read {D : Discipline service Choice World} {clear : GoString → World → Prop}
    {inFlight : Request → World → Prop} {requestID : GoString}
    (stable_clear : Stable D (clear requestID)) (stable_inFlight : Stable D (inFlight request)) :
    Stable D (request.Read clear inFlight requestID) :=
  fun s t step holds => ⟨holds.1, fun flight => stable_inFlight s t step (holds.2.1 flight),
    fun pending other => stable_clear s t step (holds.2.2 pending other)⟩

variable [EthText]

/-- The specifications of what the loop does for a request. A request is `clear` when it may
be funded, `inFlight` when a submission of it is known, and `doomed` when it may fail. -/
structure Drivable (D : Discipline service Choice World) (profile : Profile)
    (clear doomed : GoString → World → Prop) (inFlight : Request → World → Prop) : Prop where
  inert : ∀ {c : Command}, c.inert = true → Quiet D c
  dequeue : Quiet D .dequeue
  stable_clear : ∀ requestID, Stable D (clear requestID)
  stable_doomed : ∀ requestID, Stable D (doomed requestID)
  stable_inFlight : ∀ request, Stable D (inFlight request)
  get : ∀ requestID, Triple D (fun _ => True) (call (.get requestID))
    fun (found : Option Request) world => ∀ request, found = some request →
      request.Read clear inFlight requestID world
  settle : ∀ request, Attempts D (inFlight request) (settleSubmission request)
    (fun outcome world => (outcome = .reverted → doomed request.id world) ∧
      (outcome = .gone → clear request.id world) ∧ (outcome = .unknown → inFlight request world))
    fun _ _ => True
  replace : ∀ request bump, Triple D (inFlight request)
    (replaceSubmission profile request bump).run fun _ _ => True
  fund : ∀ requestID, Attempts D (clear requestID) (fundOnce profile requestID) (fun _ _ => True)
    fun error world => isTerminalFundingError error = true → doomed requestID world
  fail : ∀ requestID reason at_, Triple D (doomed requestID)
    (call (.perform (.recordFailed requestID reason at_))) fun _ _ => True

namespace Drivable

variable {D : Discipline service Choice World} {profile : Profile}
variable {clear doomed : GoString → World → Prop} {inFlight : Request → World → Prop}
variable (drivable : Drivable D profile clear doomed inFlight) {requestID : GoString}
variable {progress : Progress}

include drivable

theorem quiet {α : Type} {program : Program service α} (inert : IsInert program) :
    program.Only (Quiet D) :=
  Program.Only.mono (fun _ => drivable.inert) inert

/-- An inert program needs nothing. -/
theorem idle {α : Type} {pre : World → Prop} {program : Program service α}
    (inert : IsInert program) : Triple D pre program fun _ _ => True :=
  (Triple.quiet .true (drivable.quiet inert)).consequence (fun _ _ => trivial) fun _ _ => id

theorem giveUp {reason : GoString} :
    Triple D (doomed requestID) (giveUp requestID reason) fun _ _ => True := by
  have doomed := drivable.stable_doomed requestID
  apply Triple.bind (Triple.quiet doomed (drivable.quiet (only_call rfl))); intro _
  apply Triple.bind (Triple.quiet doomed (drivable.quiet (only_call rfl))); intro now
  apply Triple.bind (drivable.fail requestID reason now); intro _
  exact Triple.done .true fun _ => id

theorem attemptFunding :
    Triple D (clear requestID) (attemptFunding profile requestID progress) fun _ _ => True := by
  have clear := drivable.stable_clear requestID
  apply Triple.bind (Triple.quiet clear (drivable.quiet (only_call rfl))); intro signerAddress
  apply Triple.bind (Triple.quiet clear (drivable.quiet (only_call rfl))); intro fenced
  split_ifs
  · exact drivable.idle idle_retryLater.inert
  · apply Triple.bind (drivable.fund requestID)
    rintro (error | _)
    · dsimp only
      split_ifs with canceled terminal
      · exact Triple.done (Stable.imp (drivable.stable_doomed requestID)) fun _ _ => trivial
      · exact drivable.giveUp.consequence (fun _ doomed => doomed terminal) fun _ _ => id
      · exact drivable.idle idle_retryLater.inert
    · exact drivable.idle (.bind (only_call rfl) fun _ => trivial)

theorem awaitOrReplace :
    Triple D (inFlight request) (awaitOrReplace profile request progress) fun _ _ => True := by
  have flight := drivable.stable_inFlight request
  apply Triple.bind (Triple.quiet flight (drivable.quiet (only_call rfl))); intro now
  extract_lets since
  split_ifs
  · apply Triple.bind (drivable.replace request _); intro _
    exact drivable.idle idle_retryLater.inert
  · exact drivable.idle idle_retryLater.inert

theorem settleAndContinue (named : request.id = requestID) :
    Triple D (inFlight request) (settleAndContinue profile requestID request progress)
      fun _ _ => True := by
  subst named
  apply Triple.bind (drivable.settle request)
  rintro (error | _ | _ | _ | _)
  · exact drivable.idle idle_retryLater.inert
  · exact drivable.awaitOrReplace.consequence (fun _ settled => settled.2.2 rfl) fun _ _ => id
  · exact drivable.idle (.bind (only_call rfl) fun _ => trivial)
  · exact drivable.giveUp.consequence (fun _ settled => settled.1 rfl) fun _ _ => id
  · exact drivable.attemptFunding.consequence (fun _ settled => settled.2.1 rfl) fun _ _ => id

theorem advance (pending : request.status.isPending = true) :
    Triple D (request.Read clear inFlight requestID) (advance profile requestID request progress)
      fun _ _ => True := by
  have read := Stable.read (drivable.stable_clear requestID) (drivable.stable_inFlight request)
  apply Triple.bind (Triple.quiet read (drivable.quiet (only_call rfl))); intro paused
  split
  · exact drivable.idle idle_retryLater.inert
  · apply Triple.bind (Triple.quiet read (drivable.quiet (only_call rfl))); intro state
    split_ifs with closed flight
    · exact drivable.idle idle_retryLater.inert
    · intro world holds
      exact drivable.settleAndContinue holds.1 world (holds.2.1 flight)
    · exact drivable.attemptFunding.consequence (fun _ holds => holds.2.2 pending flight)
        fun _ _ => id

theorem processOnce :
    Triple D (fun _ => True) (processOnce profile requestID progress) fun _ _ => True := by
  apply Triple.bind (Triple.quiet .true (drivable.quiet (only_call rfl))); intro stopping
  split_ifs
  · exact drivable.idle trivial
  · apply Triple.bind (drivable.get requestID)
    rintro (_ | request)
    · exact drivable.idle trivial
    · dsimp only
      cases status : request.status with
      | confirmed | failed | denied => exact drivable.idle trivial
      | queued | submitted =>
        refine (drivable.advance ?_).consequence (fun _ holds => holds request rfl) fun _ _ => id
        rw [status]
        rfl

/-- The worker keeps to the discipline, turn after turn. -/
theorem workerTurn (state : WorkerState) :
    Triple D (fun _ => True) (workerTurn profile state) fun _ _ => True := by
  cases state with
  | waiting =>
    apply Triple.bind (Triple.quiet .true (only_call drivable.dequeue)); intro taken
    cases taken <;> exact drivable.idle trivial
  | processing requestID progress =>
    apply Triple.bind drivable.processOnce; intro progress
    cases progress <;> exact drivable.idle trivial
  | stopped => exact drivable.idle trivial

end Drivable

/-! ## A worker among the other threads -/

section Supervision

variable [Digest] (D : Discipline service Choice World) (modest : Command → Prop)

/-- The worker keeps to the discipline, the probe is inert, and the other threads issue modest
commands. -/
def Stage.Supervised (world : World) : Stage → Prop
  | .down => True
  | .starting program => program.Only modest
  | .serving threads => Safe D threads.worker (fun _ _ => True) world ∧
      IsInert threads.probe ∧ ∀ handler ∈ threads.handlers, handler.Only modest

variable (profile : Profile)

/-- The programs of the service fit the discipline, and so do the steps that execute no command. -/
structure Supervises : Prop where
  worker : ∀ state, Triple D (fun _ => True) (workerTurn profile state) fun _ _ => True
  inert : ∀ {c : Command}, c.inert = true → ∀ {world choice response world'}, D.invariant world →
    execute c choice world = some (response, world') →
    D.invariant world' ∧ D.interference world world'
  startup : reconcile.run.Only modest
  handler : ∀ request : ClientRequest, (request.handler profile).Only modest
  stops : ∀ {world : World}, D.invariant world →
    D.invariant { world with stopping := true } ∧
      D.interference world { world with stopping := true }
  chain : ∀ {world : World} {step chain}, world.chain.step step = some chain → D.invariant world →
    D.invariant { world with chain } ∧ D.interference world { world with chain }

variable {D modest profile} {world world' : World} {system system' : System} {label : Label}

omit [EthText] [Digest] in
theorem Stage.Supervised.interfere {stage : Stage} (supervised : stage.Supervised D modest world)
    (step : D.interference world world') : stage.Supervised D modest world' := by
  cases stage with
  | down => trivial
  | starting program => exact supervised
  | serving threads => exact ⟨supervised.1.interfere step, supervised.2⟩

/-- A step keeps the invariant when the worker does what the discipline permits, and a modest
command of another thread no more than the discipline expects. -/
theorem Supervises.step (supervises : Supervises D modest profile)
    (holds : D.invariant system.world) (stage : system.stage.Supervised D modest system.world)
    (boots : ∀ key, boot profile system.world key = some system' → D.invariant system'.world)
    (works : ∀ c, label.role = .worker → system.stage.next? label = some c →
      D.permitted c system.world ∧
        D.execute c label.choice system.world = execute c label.choice system.world)
    (others : ∀ c response, label.role = .main ∨ label.role = .handler →
      system.stage.next? label = some c → modest c →
      execute c label.choice system.world = some (response, system'.world) →
      D.invariant system'.world ∧ D.interference system.world system'.world)
    (taken : system.step profile label = some system') :
    D.invariant system'.world ∧ system'.stage.Supervised D modest system'.world := by
  cases System.step_takes taken with
  | start booted =>
    refine ⟨boots _ booted, ?_⟩
    obtain ⟨store, -, -, rfl⟩ := boot_cases booted
    exact supervises.startup
  | crash => exact ⟨holds, trivial⟩
  | shutdown =>
    obtain ⟨kept, small⟩ := supervises.stops holds
    exact ⟨kept, stage.interfere small⟩
  | main stepped =>
    obtain ⟨c, response, issued, here, executed, only⟩ := Program.Only.step_cases stage stepped
    exact ⟨(others c response (.inl rfl) issued here executed).1, only⟩
  | ready => exact ⟨holds, supervises.worker .waiting _ trivial,
    (idle_probeOnce profile none).inert, by simp⟩
  | abort => exact ⟨holds, trivial⟩
  | worker stepped =>
    obtain ⟨safe, rest⟩ := stage
    obtain ⟨state, -, rfl, rfl⟩ | stepped := stepLoop_cases stepped
    · exact ⟨holds, supervises.worker state _ trivial, rest⟩
    · obtain ⟨kept, safe⟩ := safe.step holds (fun c issued => works c rfl issued) stepped
      exact ⟨kept, safe, rest⟩
  | probe stepped =>
    obtain ⟨safe, probe, handlers⟩ := stage
    obtain ⟨probed, -, rfl, rfl⟩ | stepped := stepLoop_cases stepped
    · exact ⟨holds, safe, (idle_probeOnce profile probed).inert, handlers⟩
    · obtain ⟨c, response, -, inert, executed, only⟩ := probe.step_cases stepped
      obtain ⟨kept, small⟩ := supervises.inert inert holds executed
      exact ⟨kept, safe.interfere small, only, handlers⟩
  | open_ =>
    obtain ⟨safe, probe, handlers⟩ := stage
    refine ⟨holds, safe, probe, fun handler member => ?_⟩
    obtain old | new := List.mem_append.mp member
    · exact handlers handler old
    · cases List.mem_singleton.mp new
      exact supervises.handler _
  | handler found stepped =>
    obtain ⟨safe, probe, handlers⟩ := stage
    obtain ⟨c, response, issued, here, executed, only⟩ :=
      (handlers _ (List.mem_of_getElem? found)).step_cases stepped
    obtain ⟨kept, small⟩ :=
      others c response (.inr rfl) (Stage.next?_of_handler found issued) here executed
    refine ⟨kept, safe.interfere small, probe, fun handler member => ?_⟩
    obtain old | new := List.mem_or_eq_of_mem_set member
    · exact handlers handler old
    · rw [new]
      exact only
  | chain stepped =>
    obtain ⟨kept, small⟩ := supervises.chain stepped holds
    exact ⟨kept, stage.interfere small⟩

end Supervision

end Torium.Faucet
