import Torium.Faucet.Bookkeeping

/-!
# No request is left alone

While the service runs, every pending request is with a handler that has accepted it, in the
queue, or with the worker, and only once. The worker leaves a request only when it is
confirmed or has failed, and no request is put into the queue twice.

A handler still has its request between `TryEnqueue` and `RecordFailed`, when the queue did
not take it.
-/

namespace Torium.Faucet

open Evm Concurrent

/-! ## The service -/

/-- The worker has come back to the queue. -/
def System.workerRests (system : System) : Bool :=
  match system.stage with
  | .serving { worker := .done .waiting, .. } => true
  | _ => false

/-- The system, what its process has put into the queue, and the request between the receive from
the queue and the return of `process`. -/
structure Logged where
  system : System
  enqueued : List GoString := []
  processing : Option GoString := none

namespace Logged

def enqueuedAfter (logged : Logged) (label : Label) : List GoString :=
  match logged.system.stage.next? label with
  | some (.tryEnqueue requestID) =>
    if logged.system.world.queue.length < logged.system.world.store.profile.queueCapacity then
      logged.enqueued ++ [requestID]
    else logged.enqueued
  | _ => if label.isStart then [] else logged.enqueued

def processingAfter (logged : Logged) (label : Label) (system : System) : Option GoString :=
  if system.workerRests then none
  else
    match logged.system.stage.next? label with
    | some .dequeue => logged.system.world.queue.head?
    | _ => if label.isStart then none else logged.processing

def step [EthText] [Digest] (profile : Profile) (logged : Logged) (label : Label) : Option Logged :=
  (logged.system.step profile label).map fun system =>
    { system
      enqueued := logged.enqueuedAfter label
      processing := logged.processingAfter label system }

/-- The process is not stopped, entries are written to the journal, and no error that the worker
gets wraps a cancellation. -/
def Orderly [EthText] [Digest] (logged : Logged) (label : Label) : Prop :=
  label ≠ .crash ∧ label ≠ .shutdown ∧
    (∀ operation ∈ (logged.system.stage.next? label).bind Command.operation?,
      operation.Written label.choice logged.system.world.store) ∧
    (label.role = .worker → label.choice.canceled = false)

instance [EthText] [Digest] (logged : Logged) : DecidablePred logged.Orderly := fun label =>
  @instDecidableAnd _ _ inferInstance (@instDecidableAnd _ _ inferInstance (@instDecidableAnd _ _
    ((logged.system.stage.next? label).bind Command.operation?).decidableForallMem inferInstance))

end Logged

/-! ## The request that is processed -/

/-- What is processed left the queue last. -/
def Log.Last (log : Log) (processing : Option GoString) (queue : List GoString) : Prop :=
  ∀ id, processing = some id → log.driving = some id ∧ id ∈ log.enqueued ∧ id ∉ queue

/-- What is processed after a command. -/
def Command.processes (c : Command) (world : World) (processing : Option GoString) :
    Option GoString :=
  match c with
  | .dequeue => world.queue.head?
  | _ => processing

section Steps

variable [EthText] [Digest] {profile : Profile} {world world' : World} {log : Log}
variable {c : Command} {choice : Choice} {owned owned' : Multiset Task}
variable {processing : Option GoString}

/-- What a command does to the queue and to the log. -/
theorem execute_log {response : Response c} (log : Log) (running : world.stopping = false)
    (executed : execute c choice world = some (response, world')) :
    (c ≠ .dequeue ∧ world'.queue = world.queue ∧ Log.note c world log = log) ∨
      (∃ id, c = .tryEnqueue id ∧ world'.queue = world.queue ++ [id] ∧
        Log.note c world log = { log with enqueued := log.enqueued ++ [id] }) ∨
      ∃ id, c = .dequeue ∧ world.queue = id :: world'.queue ∧
        Log.note c world log = { log with driving := some id } := by
  have effect := execute_effect executed
  cases c with
  | tryEnqueue id =>
    cases choice <;> simp only [execute, World.tryEnqueue] at executed <;> try cases executed
    split_ifs at executed with room <;> cases executed
    · exact .inr (.inl ⟨id, rfl, rfl, if_pos room⟩)
    · exact .inl ⟨(fun same => by cases same), rfl, if_neg room⟩
  | dequeue =>
    cases choice <;> simp only [execute, World.dequeue] at executed <;> try cases executed
    · split at executed <;> cases executed
      next id queue first =>
          refine .inr (.inr ⟨id, rfl, first, ?_⟩)
          rw [Log.note, first]
          rfl
    · rw [running] at executed
      cases executed
  | _ =>
    refine .inl ⟨(fun same => by cases same), ?_, rfl⟩
    cases effect <;> rfl

theorem Log.Last.command {response : Response c} (last : log.Last processing world.queue)
    (tended : world.Tended profile owned log)
    (tended' : world'.Tended profile owned' (Log.note c world log))
    (executed : execute c choice world = some (response, world')) :
    (Log.note c world log).Last (c.processes world processing) world'.queue := by
  intro id same
  obtain ⟨other, queue, noted⟩ | ⟨new, rfl, queue, noted⟩ | ⟨first, rfl, queue, noted⟩ :=
    execute_log log tended.noted.running executed
  · have kept : c.processes world processing = processing := by
      cases c <;> first | rfl | exact absurd rfl other
    rw [noted, queue]
    exact last id (kept ▸ same)
  · obtain ⟨driving, sent, left⟩ := last id same
    have once := tended'.noted.once
    rw [noted] at once ⊢
    rw [queue]
    refine ⟨driving, List.mem_append_left _ sent, fun member => ?_⟩
    obtain waiting | here := List.mem_append.mp member
    · exact left waiting
    · exact (List.nodup_append.mp once).2.2 id sent new (List.mem_singleton_self _)
        (List.mem_singleton.mp here)
  · have head : world.queue.head? = some id := same
    rw [queue, List.head?_cons] at head
    cases head
    have suffix := tended.noted.queued
    rw [queue] at suffix
    rw [noted]
    refine ⟨rfl, suffix.subset List.mem_cons_self, ?_⟩
    exact (List.nodup_cons.mp (tended.noted.once.sublist suffix.sublist)).1

/-- Only the worker at rest processes nothing after a command. -/
theorem processes_eq_none {response : Response c} (running : world.stopping = false)
    (executed : execute c choice world = some (response, world'))
    (nothing : c.processes world processing = none) : c ≠ .dequeue ∧ processing = none := by
  obtain ⟨other, -⟩ | ⟨id, rfl, -⟩ | ⟨id, rfl, queue, -⟩ :=
    execute_log {} running executed
  · cases c <;> first | exact ⟨other, nothing⟩ | exact absurd rfl other
  · exact ⟨(fun same => by cases same), nothing⟩
  · have empty : world.queue.head? = none := nothing
    rw [queue] at empty
    cases empty

end Steps

/-- The requests that handlers have accepted and still have. -/
def Threads.held (threads : Threads) : List GoString :=
  threads.handlers.filterMap fun program => program.next?.bind Command.held?

/-! ## Every run -/

section Runs

variable [EthText] [Digest] {profile : Profile} {logged logged' : Logged} {label : Label}
variable {driven : Option GoString} {owned : Multiset Task}

/-- The worker waits for the queue. -/
def WorkerState.Rests (worker : Program service WorkerState) : Prop :=
  worker = .done .waiting ∨ worker = .done .stopped ∨ worker.next? = some .dequeue

namespace Logged

abbrev log (logged : Logged) (driven : Option GoString) : Log := ⟨logged.enqueued, driven⟩

/-- The worker rests when nothing is processed. -/
def Watched (logged : Logged) : Prop :=
  match logged.system.stage with
  | .serving threads => logged.processing = none → WorkerState.Rests threads.worker
  | .down | .starting _ => logged.processing = none

/-- The books are right, and the worker has the request that is processed. -/
structure Attended (profile : Profile) (logged : Logged) (driven : Option GoString) : Prop where
  balanced : logged.system.Balanced profile (logged.log driven)
  last : (logged.log driven).Last logged.processing logged.system.world.queue
  watched : logged.Watched

end Logged

omit [EthText] [Digest] in
theorem Stage.next?_isStart {stage : Stage} {c : Command} (next : stage.next? label = some c) :
    label.isStart = false := by
  cases stage <;> cases label <;> first | rfl | cases next

namespace Logged

omit [EthText] [Digest] in
theorem log_after : logged.enqueuedAfter label =
    ((logged.log driven).after logged.system label).enqueued := by
  rw [enqueuedAfter, Log.after]
  cases next : logged.system.stage.next? label with
  | none => cases label <;> rfl
  | some c =>
    have running := Stage.next?_isStart next
    cases c with
    | tryEnqueue id =>
      dsimp only [Log.note]
      split_ifs <;> rfl
    | _ => simp only [running, Log.note, Bool.false_eq_true, if_false]

omit [EthText] [Digest] in
theorem processingAfter_of_next {system : System} {c : Command}
    (next : logged.system.stage.next? label = some c) :
    logged.processingAfter label system =
      if system.workerRests then none else c.processes logged.system.world logged.processing := by
  rw [processingAfter, next, Stage.next?_isStart next]
  cases c <;> rfl

omit [EthText] [Digest] in
theorem processingAfter_of_none {system : System} (running : label.isStart = false)
    (next : logged.system.stage.next? label = none) :
    logged.processingAfter label system =
      if system.workerRests then none else logged.processing := by
  rw [processingAfter, next, running]
  rfl

omit [EthText] [Digest] in
theorem last_ite {log : Log} {processing : Option GoString} {queue : List GoString} {rests : Bool}
    (last : log.Last processing queue) :
    log.Last (if rests then none else processing) queue := by
  cases rests
  · exact last
  · exact fun _ same => by cases same

/-- The state of the log after a step. -/
abbrev after (logged : Logged) (label : Label) (system : System) : Logged where
  system := system
  enqueued := logged.enqueuedAfter label
  processing := logged.processingAfter label system

/-- The log is right after a step of the service. -/
def Follows (logged : Logged) (label : Label) (system : System) (log : Log) : Prop :=
  log.Last (logged.processingAfter label system) system.world.queue ∧
    (logged.after label system).Watched

variable {system : System} {log : Log} {threads threads' : Threads}

omit [EthText] [Digest] in
theorem watched_serving (stage : system.stage = .serving threads)
    (rests : logged.processingAfter label system = none → threads.worker ≠ .done .waiting →
      WorkerState.Rests threads.worker) : (logged.after label system).Watched := by
  rw [Watched, stage]
  intro nothing
  by_cases done : threads.worker = .done .waiting
  · exact .inl done
  · exact rests nothing done

omit [EthText] [Digest] in
theorem workerRests_serving (stage : system.stage = .serving threads)
    (busy : threads.worker ≠ .done .waiting) : system.workerRests = false := by
  rw [System.workerRests, stage]
  obtain ⟨worker, probe, handlers⟩ := threads
  split
  · next same =>
      cases same
      exact absurd rfl busy
  · rfl

/-- A command of a thread of the process that serves requests. -/
theorem follows_command {c : Command} {choice : Choice} {response : Response c}
    {owned' : Multiset Task} (next : logged.system.stage.next? label = some c)
    (last : log.Last logged.processing logged.system.world.queue)
    (tended : logged.system.world.Tended profile owned log)
    (tended' : system.world.Tended profile owned' (Log.note c logged.system.world log))
    (executed : execute c choice logged.system.world = some (response, system.world))
    (stage : system.stage = .serving threads)
    (rests : c ≠ .dequeue → logged.processing = none → WorkerState.Rests threads.worker) :
    logged.Follows label system (Log.note c logged.system.world log) := by
  constructor
  · rw [processingAfter_of_next next]
    exact last_ite (last.command tended tended' executed)
  · refine watched_serving stage fun nothing busy => ?_
    rw [processingAfter_of_next next, workerRests_serving stage busy] at nothing
    obtain ⟨other, none⟩ := processes_eq_none tended.noted.running executed nothing
    exact rests other none

omit [EthText] [Digest] in
/-- A step of a process that serves requests and that executes no command. -/
theorem follows_turn (running : label.isStart = false)
    (next : logged.system.stage.next? label = none)
    (last : log.Last logged.processing logged.system.world.queue)
    (queue : system.world.queue = logged.system.world.queue)
    (stage : system.stage = .serving threads)
    (rests : logged.processing = none → WorkerState.Rests threads.worker) :
    logged.Follows label system log := by
  constructor
  · rw [processingAfter_of_none running next, queue]
    exact last_ite last
  · refine watched_serving stage fun nothing busy => ?_
    rw [processingAfter_of_none running next, workerRests_serving stage busy] at nothing
    exact rests nothing

omit [EthText] [Digest] in
/-- Nothing is processed while no process serves requests. -/
theorem follows_idle (nothing : logged.processingAfter label system = none)
    (stage : ∀ threads, system.stage ≠ .serving threads) : logged.Follows label system log := by
  constructor
  · exact fun _ same => by cases nothing.symm.trans same
  · rw [Watched]
    cases here : system.stage with
    | serving threads => exact absurd here (stage threads)
    | down | starting => exact nothing

theorem running_of_serving (stage : logged.system.stage = .serving threads)
    (taken : logged.system.step profile label = some system) : label.isStart = false := by
  cases label with
  | start key =>
    rw [System.step, stage] at taken
    cases taken
  | _ => rfl

namespace Attended

variable (attended : logged.Attended profile driven)

include attended

theorem tended (stage : logged.system.stage = .serving threads) :
    ∃ owned, logged.system.world.Tended profile owned (logged.log driven) := by
  have balanced := attended.balanced
  rw [System.Balanced, stage] at balanced
  obtain ⟨worker, probe, handlers, tended, -⟩ := balanced
  exact ⟨_, tended⟩

theorem rests (stage : logged.system.stage = .serving threads)
    (nothing : logged.processing = none) : WorkerState.Rests threads.worker := by
  have watched := attended.watched
  rw [Watched, stage] at watched
  exact watched nothing

theorem follows_serving (stage : logged.system.stage = .serving threads)
    (stage' : system.stage = .serving threads')
    (taken : logged.system.step profile label = some system)
    (balanced : system.Balanced profile ((logged.log driven).after logged.system label))
    (rests : logged.system.stage.next? label ≠ some .dequeue → WorkerState.Rests threads.worker →
      WorkerState.Rests threads'.worker) :
    logged.Follows label system ((logged.log driven).after logged.system label) := by
  obtain ⟨world', _⟩ := system
  have running := running_of_serving stage taken
  obtain ⟨owned, tended⟩ := attended.tended stage
  rw [System.Balanced, stage'] at balanced
  obtain ⟨worker, probe, handlers, tended', -⟩ := balanced
  rw [Log.after_of_running running] at tended' ⊢
  obtain ⟨c, next, response, executed⟩ | ⟨next, turns⟩ := System.step_cases taken
  · rw [next] at tended' ⊢
    refine follows_command next attended.last tended tended' executed stage' ?_
    intro other nothing
    exact rests (fun same => other (Option.some.inj (next.symm.trans same)))
      (attended.rests stage nothing)
  · rw [next] at tended' ⊢
    refine follows_turn running next attended.last ?_ stage' fun nothing =>
      rests (by rw [next]; exact nofun) (attended.rests stage nothing)
    cases turns with
    | same | stop | chain => rfl
    | start => cases running

theorem balanced_after (orderly : logged.Orderly label)
    (taken : logged.system.step profile label = some system) :
    system.Balanced profile ((logged.log driven).after logged.system label) := by
  obtain ⟨crash, shutdown, written, calm⟩ := orderly
  refine attended.balanced.step crash shutdown (fun c next => ⟨fun operation member => ?_, calm⟩)
    taken
  exact written operation (next ▸ member)

theorem follows (orderly : logged.Orderly label)
    (taken : logged.system.step profile label = some system) :
    logged.Follows label system ((logged.log driven).after logged.system label) := by
  have balanced := attended.balanced_after orderly taken
  obtain ⟨⟨world, stage⟩, enqueued, processing⟩ := logged
  cases System.step_takes taken with
  | start booted =>
    obtain ⟨store, -, -, rfl⟩ := boot_cases booted
    exact follows_idle rfl nofun
  | crash => exact absurd rfl orderly.1
  | shutdown => exact absurd rfl orderly.2.1
  | @main _ _ program _ choice stepped =>
    have nothing : processing = none := attended.watched
    subst nothing
    obtain ⟨c, response, next, -⟩ := Program.step_cases stepped
    obtain ⟨owned, -, balances⟩ := attended.balanced
    have other : c ≠ .dequeue := by
      obtain ⟨value, rfl, -⟩ | ⟨c', next', issued⟩ := next_cases balances
      · cases next
      · cases next.symm.trans next'
        exact issued
    refine follows_idle ?_ nofun
    have issued : (Stage.starting program).next? (.main choice) = some c := next
    rw [processingAfter_of_next issued]
    cases c <;> first | rfl | exact absurd rfl other
  | ready =>
    have nothing : processing = none := attended.watched
    subst nothing
    exact follows_turn rfl rfl attended.last rfl rfl fun _ => .inr (.inr rfl)
  | abort =>
    have nothing : processing = none := attended.watched
    subst nothing
    exact follows_idle rfl nofun
  | worker stepped =>
    refine attended.follows_serving rfl rfl taken balanced fun other rests => ?_
    obtain ⟨state, same, rfl, -⟩ | stepped := stepLoop_cases stepped
    · rw [same] at rests
      obtain same | same | same := rests <;> cases same
      · exact .inr (.inr rfl)
      · exact .inr (.inl rfl)
    · obtain ⟨c, response, next, -⟩ := Program.step_cases stepped
      obtain same | same | same := rests
      · rw [same] at next
        cases next
      · rw [same] at next
        cases next
      · exact absurd same other
  | probe | open_ | handler => exact attended.follows_serving rfl rfl taken balanced fun _ => id
  | chain =>
    cases stage with
    | serving threads => exact attended.follows_serving rfl rfl taken balanced fun _ => id
    | down | starting =>
      have nothing : processing = none := attended.watched
      subst nothing
      exact follows_idle rfl nofun

/-- Every step keeps the log right. -/
theorem step (orderly : logged.Orderly label) (taken : logged.step profile label = some logged') :
    ∃ driven, logged'.Attended profile driven := by
  obtain ⟨system, stepped, rfl⟩ := Option.map_eq_some_iff.mp taken
  have balanced := attended.balanced_after orderly stepped
  have log : (logged.after label system).log
      ((logged.log driven).after logged.system label).driving =
        (logged.log driven).after logged.system label :=
    congrArg (Log.mk · _) log_after
  obtain ⟨last, watched⟩ := attended.follows orderly stepped
  rw [← log] at balanced last
  exact ⟨_, balanced, last, watched⟩

end Attended

end Logged

/-! ## Who has the requests -/

/-- What the handlers own, by their next commands. -/
theorem shares_held {programs : List (Program service Reply)}
    (shares : Shares (Handles profile) programs owned) :
    owned = ↑((programs.filterMap fun program => program.next?.bind Command.held?).map
      fun id => Task.duty (.fresh id)) := by
  induction shares with
  | nil => rfl
  | @cons program programs own others stands _ ih =>
    subst ih
    obtain ⟨value, rfl, none⟩ | ⟨c, next, issued⟩ := next_cases stands
    · rw [none, zero_add]
      rfl
    · have issued : own = c.held?.elim 0 holding := issued
      rw [issued, List.filterMap_cons, next, Option.bind_some]
      cases c.held? with
      | none => exact zero_add _
      | some id => rfl

/-- What the worker owns, by what it does. -/
theorem worker_owns {worker : Program service WorkerState}
    (balances : Follows (ledger profile .worker) worker
      (fun state owned => owned = state.hands {.resting} driving) owned) :
    (owned = {.resting} ∨ ∃ id, owned = driving id) ∧
      (WorkerState.Rests worker → owned = {.resting}) := by
  obtain ⟨state, rfl, holds⟩ | ⟨c, next, owns, resting⟩ := next_cases balances
  · constructor
    · cases state with
      | waiting | stopped => exact .inl holds
      | processing id => exact .inr ⟨id, holds⟩
    · rintro (same | same | same) <;> cases same <;> exact holds
  · refine ⟨owns, ?_⟩
    rintro (rfl | rfl | same)
    · cases next
    · cases next
    · exact resting (Option.some.inj (next.symm.trans same))

omit [EthText] [Digest] in
theorem claims_held {held queue : List GoString} :
    claims (duties ↑(held.map fun id => Task.duty (.fresh id))) queue = ↑(held ++ queue) := by
  rw [claims, duties, Multiset.filterMap_coe, List.filterMap_map, Multiset.filterMap_coe,
    List.filterMap_filterMap, Multiset.coe_add]
  congr 2
  exact List.filterMap_some

namespace Logged

/-- The requests that somebody has. -/
def attendedTo (logged : Logged) (threads : Threads) : List GoString :=
  threads.held ++ logged.system.world.queue ++ logged.processing.toList

namespace Attended

variable {threads : Threads}
variable (attended : logged.Attended profile driven)
variable (stage : logged.system.stage = .serving threads) {id : GoString}

include attended stage

/-- What the threads own, with the requests by name. -/
theorem books : ∃ worker, (worker = {.resting} ∨ ∃ id, worker = driving id) ∧
    (logged.processing = none → worker = {.resting}) ∧
    logged.system.world.Tended profile
      (worker + ↑(threads.held.map fun id => Task.duty (.fresh id))) (logged.log driven) ∧
    ∀ id ∈ threads.held, id ∉ logged.enqueued := by
  have balanced := attended.balanced
  rw [System.Balanced, stage] at balanced
  obtain ⟨worker, probe, handlers, tended, shares⟩ := balanced
  obtain ⟨owns, resting⟩ := worker_owns shares.worker
  have nothing : probe = 0 := by
    obtain ⟨_, _, none⟩ | ⟨c, _, none⟩ := next_cases shares.probe <;> exact none
  rw [nothing, zero_add, shares_held shares.handlers] at tended
  refine ⟨worker, owns, fun none => resting (attended.rests stage none), tended, ?_⟩
  intro id held
  refine tended.unsent id (Multiset.mem_add.mpr (.inr (Multiset.mem_coe.mpr ?_)))
  exact List.mem_map_of_mem held

omit stage in
/-- Nothing that is processed is in the queue or with a handler. -/
theorem processed_alone (processed : logged.processing = some id)
    (sent : ∀ id ∈ threads.held, id ∉ logged.enqueued) :
    id ∉ threads.held ++ logged.system.world.queue := by
  obtain ⟨-, enqueued, left⟩ := attended.last id processed
  intro member
  obtain held | queued := List.mem_append.mp member
  · exact sent id held enqueued
  · exact left queued

/-- Everybody who has a pending request is the only one. -/
theorem once (pending : logged.system.world.store.Pending id) :
    (logged.attendedTo threads).count id = 1 := by
  obtain ⟨worker, owns, resting, tended, unsent⟩ := attended.books stage
  have member := tended.complete id pending
  have distinct := tended.owed.distinct
  obtain rfl | ⟨driven', rfl⟩ := owns
  · rw [duties_resting, claims_held] at member distinct
    have member : id ∈ threads.held ++ logged.system.world.queue := member
    have absent : id ∉ logged.processing.toList := fun processed =>
      attended.processed_alone (Option.mem_toList.mp processed) unsent member
    rw [attendedTo, List.count_append, List.count_eq_zero_of_not_mem absent]
    exact List.count_eq_one_of_mem (Multiset.coe_nodup.mp distinct) member
  · have processed : logged.processing = some driven' := by
      have last := tended.driven driven' (Multiset.mem_add.mpr
        (.inl (Multiset.mem_singleton_self _)))
      cases processing : logged.processing with
      | none => cases Multiset.singleton_inj.mp (resting processing)
      | some id =>
        obtain ⟨same, -⟩ := attended.last id processing
        exact same.symm.trans last
    rw [duties_duty, claims_cons rfl, claims_held, Multiset.cons_coe] at member distinct
    rw [attendedTo, processed, Option.toList_some, (List.perm_append_singleton _ _).count_eq]
    exact List.count_eq_one_of_mem (Multiset.coe_nodup.mp distinct) member

/-- What has left the queue and is no longer processed is confirmed or has failed. -/
theorem left (sent : id ∈ logged.enqueued) (dequeued : id ∉ logged.system.world.queue)
    (done : logged.processing ≠ some id) :
    ∃ request, logged.system.world.store.requests id = some request ∧
      (request.status = .confirmed ∨ request.status = .failed) := by
  obtain ⟨worker, -, -, tended, unsent⟩ := attended.books stage
  refine (tended.noted.known id sent).settled fun pending => ?_
  have member : id ∈ logged.attendedTo threads := by
    rw [← List.count_pos_iff, attended.once stage pending]
    exact Nat.one_pos
  simp only [attendedTo, List.mem_append, Option.mem_toList] at member
  obtain (held | queued) | processed := member
  · exact unsent id held sent
  · exact dequeued queued
  · exact done processed

end Attended

end Logged

/-- While a process runs and is not disturbed, every pending request is with one handler that has
accepted it, once in the queue, or with the worker. A handler has the request until the queue
takes it or, when the queue is full, until the failure is recorded. Nothing is put into the
queue twice, and the worker leaves a request when it is confirmed or has failed. What came
before the process was started does not matter. -/
theorem pending_requests_attended {start : System} {before labels : List Label} {system : System}
    {threads : Threads} (initial : start.Initial profile)
    (history : Transition.Run (System.step profile) Transition.Free before start system)
    (stopped : system.stage = .down)
    (run : Transition.Run (Logged.step profile) Logged.Orderly labels { system } logged)
    (serving : logged.system.stage = .serving threads) :
    (∀ id, logged.system.world.store.Pending id → (logged.attendedTo threads).count id = 1) ∧
      logged.enqueued.Nodup ∧
      ∀ id ∈ logged.enqueued, id ∉ logged.system.world.queue → logged.processing ≠ some id →
        ∃ request, logged.system.world.store.requests id = some request ∧
          (request.status = .confirmed ∨ request.status = .failed) := by
  have owned : system.Owned profile := history.invariant (I := System.Owned profile)
    (.start initial) fun owns _ taken => (owns.step taken).1
  have starts : ({ system } : Logged).Attended profile none := by
    obtain ⟨world, stage⟩ := system
    cases stopped
    exact ⟨owned.1, fun _ => nofun, rfl⟩
  obtain ⟨driven, attended⟩ := run.invariant
    (I := fun logged => ∃ driven, logged.Attended profile driven) ⟨none, starts⟩
    fun ⟨_, attended⟩ orderly taken => attended.step orderly taken
  obtain ⟨worker, -, -, tended, -⟩ := attended.books serving
  exact ⟨fun id => attended.once serving, tended.noted.once, fun id => attended.left serving⟩

end Runs

/-- The requests of the handlers that are about to call `TryEnqueue`. -/
def Threads.enqueuing (threads : Threads) : List GoString :=
  threads.handlers.filterMap fun program => program.next?.bind fun
    | .tryEnqueue requestID => some requestID
    | _ => none

/-- The threads of a process that serves requests. -/
def Stage.threads? : Stage → Option Threads
  | .serving threads => some threads
  | .down | .starting _ => none

theorem Stage.threads?_eq_some {stage : Stage} {threads : Threads} :
    stage.threads? = some threads ↔ stage = .serving threads := by
  cases stage <;> simp [threads?]

namespace Demo

/-- The queue has room for one request. The handler of the second one finds it full. -/
def refusing : List Label :=
  accepting ++ .open_ (.fund (text "key-0002") 18) :: List.map (.handler 1)
    [.clock noon, .ok, .ok, .ok, .identifier (text "req-2"), .ok, .ok]

/-- The first request is with the worker, and the second one with its handler. -/
def sharing : List Label :=
  accepting ++ worker [.ok, .ok, .ok] ++ .open_ (.fund (text "key-0002") 18) ::
    List.map (.handler 1) [.clock noon, .ok, .ok, .ok, .identifier (text "req-2"), .ok]

end Demo

theorem refused_request_unattended :
    Demo.narrowSystem.Initial Demo.narrow ∧ ∃ logged threads,
      @Transition.Run _ _ (@Logged.step lowerHex Digest.numbered Demo.narrow)
        (@Logged.Orderly lowerHex Digest.numbered) Demo.refusing
        { system := Demo.narrowSystem } logged ∧
      logged.system.stage = .serving threads ∧
      logged.system.world.store.Queued (text "req-2") ∧
      (threads.enqueuing ++ logged.system.world.queue ++ logged.processing.toList).count
        (text "req-2") = 0 := by
  refine ⟨⟨32, _, _, rfl⟩, ?_⟩
  obtain ⟨logged, run, reached⟩ := Transition.run_of_execute_any
    (show (Transition.execute
      (@Transition.restrict _ _ (@Logged.step lowerHex Digest.numbered Demo.narrow)
        (@Logged.Orderly lowerHex Digest.numbered) fun _ _ => inferInstance)
      Demo.refusing { system := Demo.narrowSystem }).any (fun logged =>
        logged.system.stage.threads?.any fun threads =>
          logged.system.world.store.Queued (text "req-2") ∧
            (threads.enqueuing ++ logged.system.world.queue ++ logged.processing.toList).count
              (text "req-2") = 0) by decide +kernel)
  obtain ⟨threads, stage, holds⟩ := (Option.any_eq_true _ _).mp reached
  obtain ⟨queued, nobody⟩ := of_decide_eq_true holds
  exact ⟨logged, threads, run.of_restrict, Stage.threads?_eq_some.mp stage, queued, nobody⟩

theorem pending_requests_attended_demo :
    ∃ logged threads,
      @Transition.Run _ _ (@Logged.step lowerHex Digest.numbered Demo.profile)
        (@Logged.Orderly lowerHex Digest.numbered) Demo.sharing
        { system := Demo.system } logged ∧
      logged.system.stage = .serving threads ∧
      logged.processing = some (text "req-1") ∧ threads.held = [text "req-2"] ∧
      ∀ id, logged.system.world.store.Pending id → (logged.attendedTo threads).count id = 1 := by
  obtain ⟨logged, run, reached⟩ := Transition.run_of_execute_any
    (show (Transition.execute
      (@Transition.restrict _ _ (@Logged.step lowerHex Digest.numbered Demo.profile)
        (@Logged.Orderly lowerHex Digest.numbered) fun _ _ => inferInstance)
      Demo.sharing { system := Demo.system }).any (fun logged =>
        logged.system.stage.threads?.any fun threads =>
          logged.processing = some (text "req-1") ∧ threads.held = [text "req-2"]) by
        decide +kernel)
  obtain ⟨threads, found, holds⟩ := (Option.any_eq_true _ _).mp reached
  obtain ⟨processed, held⟩ := of_decide_eq_true holds
  have stage := Stage.threads?_eq_some.mp found
  refine ⟨logged, threads, run.of_restrict, stage, processed, held, ?_⟩
  exact (@pending_requests_attended lowerHex Digest.numbered _ _ _ _ _ _ _ ⟨32, _, _, rfl⟩
    (.refl _) rfl run.of_restrict stage).1

end Torium.Faucet
