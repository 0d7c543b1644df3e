import Torium.Faucet.Effects
import Torium.Faucet.Service

/-!
# What a step of the service does

Every step of the service executes one command of one thread, or it starts or stops the
process, or the chain makes a step.
-/

namespace Torium.Faucet

open Evm Concurrent

/-- What the environment decides about the command of a step. -/
def Label.choice : Label → Choice
  | .main choice | .worker choice | .probe choice | .handler _ choice => choice
  | .start _ | .crash | .shutdown | .open_ _ | .chain _ => .ok

/-- The command that a step executes. -/
def Stage.next? : Stage → Label → Option Command
  | .starting program, .main _ => program.next?
  | .serving threads, .worker _ => threads.worker.next?
  | .serving threads, .probe _ => threads.probe.next?
  | .serving threads, .handler index _ => threads.handlers[index]?.bind Program.next?
  | _, _ => none

variable {stage : Stage} {choice : Choice}

theorem Stage.next?_of_crash : stage.next? .crash = none := by
  cases stage <;> rfl

theorem Stage.next?_of_shutdown : stage.next? .shutdown = none := by
  cases stage <;> rfl

theorem Stage.next?_of_chain {step : ChainStep} :
    stage.next? (.chain step) = none := by
  cases stage <;> rfl

theorem Stage.next?_of_handler {threads : Threads} {index : Nat} {c : Command}
    {program : Program service Reply} (found : threads.handlers[index]? = some program)
    (issued : program.next? = some c) :
    (serving threads).next? (.handler index choice) = some c :=
  Option.bind_eq_some_iff.mpr ⟨program, found, issued⟩

/-- A process starts with the store that the journal gives, and with a key that is not
fenced there. -/
theorem boot_cases [EthText] {profile : Profile} {world : World} {key : Address} {system : System}
    (taken : boot profile world key = some system) :
    ∃ store, newStore (openJournal world.store.journal.entries) world.store.journal.entries
        profile = .ok store ∧ store.signerFenced key = false ∧
      system =
        { world :=
            { world with store, breakers := {}, signer := key, queue := [], stopping := false }
          stage := .starting reconcile.run } := by
  simp only [boot] at taken
  split at taken
  next => cases taken
  next store opened =>
      split_ifs at taken with fenced
      exact ⟨store, opened, eq_false_of_ne_true fenced, (Option.some.inj taken).symm⟩

section Steps

variable [EthText] [Digest] (profile : Profile)

/-- What a step of the service can do. -/
inductive System.Takes : System → Label → System → Prop where
  | start {world key system} : boot profile world key = some system →
      Takes { world, stage := .down } (.start key) system
  | crash {world stage} : Takes { world, stage } .crash { world, stage := .down }
  | shutdown {world stage} :
      Takes { world, stage } .shutdown { world := { world with stopping := true }, stage }
  | main {world world' program program' choice} :
      Program.step execute choice world program = some (program', world') →
      Takes { world, stage := .starting program } (.main choice)
        { world := world', stage := .starting program' }
  | ready {world choice} :
      Takes { world, stage := .starting (.done (.ok ())) } (.main choice)
        { world, stage := .serving { worker := workerTurn profile .waiting
                                     probe := probeOnce profile none } }
  | abort {world error choice} :
      Takes { world, stage := .starting (.done (.error error)) } (.main choice)
        { world, stage := .down }
  | worker {world world' threads worker choice} :
      stepLoop (workerTurn profile) world threads.worker choice = some (worker, world') →
      Takes { world, stage := .serving threads } (.worker choice)
        { world := world', stage := .serving { threads with worker } }
  | probe {world world' threads probe choice} :
      stepLoop (probeOnce profile) world threads.probe choice = some (probe, world') →
      Takes { world, stage := .serving threads } (.probe choice)
        { world := world', stage := .serving { threads with probe } }
  | open_ {world threads request} :
      Takes { world, stage := .serving threads } (.open_ request)
        { world, stage := .serving { threads with
            handlers := threads.handlers ++ [request.handler profile] } }
  | handler {world world' threads index program program' choice} :
      threads.handlers[index]? = some program →
      program.step execute choice world = some (program', world') →
      Takes { world, stage := .serving threads } (.handler index choice)
        { world := world'
          stage := .serving { threads with handlers := threads.handlers.set index program' } }
  | chain {world stage step chain} : world.chain.step step = some chain →
      Takes { world, stage } (.chain step) { world := { world with chain }, stage }

/-- A step that executes no command. -/
inductive World.Turns (world : World) : Label → World → Prop where
  | same {label} : Turns world label world
  | stop : Turns world .shutdown { world with stopping := true }
  | chain {step chain} : world.chain.step step = some chain →
      Turns world (.chain step) { world with chain }
  | start {key system} : boot profile world key = some system →
      Turns world (.start key) system.world

/-- A command has been executed. -/
def World.Executes (world : World) (c : Command) (choice : Choice) (world' : World) : Prop :=
  ∃ response, execute c choice world = some (response, world')

variable {profile} {world world' : World} {system system' : System} {label : Label}

theorem stepLoop_cases {ω : Type} {turn : ω → Program service ω}
    {program program' : Program service ω}
    (taken : stepLoop turn world program choice = some (program', world')) :
    (∃ state, program = .done state ∧ program' = turn state ∧ world' = world) ∨
      program.step execute choice world = some (program', world') := by
  cases program with
  | done state =>
    cases taken
    exact .inl ⟨state, rfl, rfl, rfl⟩
  | call c next => exact .inr taken

theorem System.step_takes (taken : system.step profile label = some system') :
    System.Takes profile system label system' := by
  obtain ⟨world, stage⟩ := system
  cases label with
  | start key =>
    cases stage with
    | down => exact .start taken
    | starting | serving => cases taken
  | crash =>
    cases taken
    exact .crash
  | shutdown =>
    cases taken
    exact .shutdown
  | main choice =>
    cases stage with
    | starting program =>
      rcases program with (error | _) | ⟨c, next⟩
      · cases taken
        exact .abort
      · cases taken
        exact .ready
      · obtain ⟨⟨program', world'⟩, stepped, rfl⟩ := Option.map_eq_some_iff.mp taken
        exact .main stepped
    | down | serving => cases taken
  | worker choice =>
    cases stage with
    | serving threads =>
      obtain ⟨⟨worker, world'⟩, stepped, rfl⟩ := Option.map_eq_some_iff.mp taken
      exact .worker stepped
    | down | starting => cases taken
  | probe choice =>
    cases stage with
    | serving threads =>
      obtain ⟨⟨probe, world'⟩, stepped, rfl⟩ := Option.map_eq_some_iff.mp taken
      exact .probe stepped
    | down | starting => cases taken
  | open_ request =>
    cases stage with
    | serving threads =>
      cases taken
      exact .open_
    | down | starting => cases taken
  | handler index choice =>
    cases stage with
    | serving threads =>
      obtain ⟨program, found, rest⟩ := Option.bind_eq_some_iff.mp taken
      obtain ⟨⟨program', world'⟩, stepped, same⟩ := Option.bind_eq_some_iff.mp rest
      cases same
      exact .handler found stepped
    | down | starting => cases taken
  | chain step =>
    obtain ⟨chain, stepped, same⟩ := Option.bind_eq_some_iff.mp taken
    cases same
    exact .chain stepped

theorem loop_cases {ω : Type} {turn : ω → Program service ω} {program program' : Program service ω}
    (stepped : stepLoop turn world program choice = some (program', world')) :
    (∃ c, program.next? = some c ∧ world.Executes c choice world') ∨
      (program.next? = none ∧ world.Turns profile label world') := by
  obtain ⟨state, rfl, -, rfl⟩ | stepped := stepLoop_cases stepped
  · exact .inr ⟨rfl, .same⟩
  · obtain ⟨c, response, next, executed⟩ := Program.step_cases stepped
    exact .inl ⟨c, next, response, executed⟩

/-- What a step of the service does to the shared state. -/
theorem System.step_cases (taken : system.step profile label = some system') :
    (∃ c, system.stage.next? label = some c ∧
      system.world.Executes c label.choice system'.world) ∨
    (system.stage.next? label = none ∧ system.world.Turns profile label system'.world) := by
  cases System.step_takes taken with
  | start booted => exact .inr ⟨rfl, .start booted⟩
  | crash => exact .inr ⟨Stage.next?_of_crash, .same⟩
  | shutdown => exact .inr ⟨Stage.next?_of_shutdown, .stop⟩
  | main stepped =>
    obtain ⟨c, response, next, executed⟩ := Program.step_cases stepped
    exact .inl ⟨c, next, response, executed⟩
  | ready | abort => exact .inr ⟨rfl, .same⟩
  | worker stepped => exact loop_cases stepped
  | probe stepped => exact loop_cases stepped
  | open_ => exact .inr ⟨rfl, .same⟩
  | handler found stepped =>
    obtain ⟨c, response, next, executed⟩ := Program.step_cases stepped
    exact .inl ⟨c, Option.bind_eq_some_iff.mpr ⟨_, found, next⟩, response, executed⟩
  | chain stepped => exact .inr ⟨Stage.next?_of_chain, .chain stepped⟩

/-- The store changes when an operation is performed and when it is opened again. -/
theorem System.step_store {I : Store → Prop} (holds : I system.world.store)
    (taken : system.step profile label = some system')
    (performs : ∀ operation fault, system.stage.next? label = some (.perform operation) →
      operation.Fresh system.world.store → I (system.world.store.perform ⟨operation, fault⟩).1)
    (opens : ∀ store, newStore (openJournal system.world.store.journal.entries)
      system.world.store.journal.entries profile = .ok store → I store) :
    I system'.world.store := by
  obtain ⟨world', stage'⟩ := system'
  obtain ⟨c, next, response, executed⟩ | ⟨-, turns⟩ := System.step_cases taken
  · cases execute_effect executed with
    | store fresh => exact performs _ _ next fresh
    | _ => exact holds
  · cases turns with
    | same | stop | chain => exact holds
    | start booted =>
      obtain ⟨store, opened, -, same⟩ := boot_cases booted
      rw [same]
      exact opens store opened

end Steps

end Torium.Faucet
