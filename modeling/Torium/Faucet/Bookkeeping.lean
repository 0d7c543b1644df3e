import Torium.Faucet.Tending

/-!
# Threads that keep the books

In a run that is not disturbed the threads of the service keep to their ledgers, so what they own
is known in every state that is reached. The log takes notes that the service itself does not take.
-/

namespace Torium.Faucet

open Evm Concurrent

def Label.isStart : Label → Bool
  | .start _ => true
  | _ => false

/-- The notes after a step; a process starts without notes. -/
def Log.after (log : Log) (system : System) (label : Label) : Log :=
  match system.stage.next? label with
  | some c => Log.note c system.world log
  | none => if label.isStart then {} else log

theorem Log.after_of_running {log : Log} {system : System} {label : Label}
    (running : label.isStart = false) :
    log.after system label =
      (system.stage.next? label).elim log fun c => Log.note c system.world log := by
  rw [after, running]
  cases system.stage.next? label <;> rfl

section Bookkeeping

variable [EthText] [Digest] (profile : Profile)

/-- What a handler owns; at its end it owns nothing. -/
abbrev Handles (program : Program service Reply) (owned : Multiset Task) : Prop :=
  Follows (ledger profile .handler) program (fun _ owned => owned = 0) owned

/-- What the threads of a process that serves requests own. -/
structure Threads.Share (threads : Threads) (worker probe handlers : Multiset Task) : Prop where
  worker : Follows (ledger profile .worker) threads.worker
    (fun state owned => owned = state.hands {.resting} driving) worker
  probe : Follows (ledger profile .probe) threads.probe (fun _ owned => owned = 0) probe
  handlers : Shares (Handles profile) threads.handlers handlers

/-- The books are right. -/
def System.Balanced (system : System) (log : Log) : Prop :=
  match system.stage with
  | .down => system.world.store.Regular profile
  | .starting program => ∃ owned, system.world.Revived profile owned log ∧
      Concurrent.Follows (ledger profile .main) program
        (fun result owned => result = .ok () → owned = 0) owned
  | .serving threads => ∃ worker probe handlers,
      system.world.Tended profile (worker + (probe + handlers)) log ∧
        threads.Share profile worker probe handlers

variable {profile} {world world' : World} {system system' : System} {label : Label}
variable {choice : Choice} {log : Log}

theorem boot_balanced {key : Address} (regular : world.store.Regular profile)
    (booted : boot profile world key = some system) : system.Balanced profile {} := by
  obtain ⟨store, opened, -, rfl⟩ := boot_cases booted
  refine ⟨{.duty .starting}, ⟨⟨regular.opened opened, ?_, ?_, ?_⟩, fun _ => ⟨rfl, rfl⟩,
    fun other => absurd (Multiset.mem_singleton_self _) other, rfl, rfl⟩, startup_reconcile⟩
  · exact Multiset.nodup_zero
  · exact fun _ member => absurd member (Multiset.notMem_zero _)
  · exact fun _ member => by cases Multiset.mem_singleton.mp member

theorem System.Balanced.of_chain (balanced : system.Balanced profile log) (chain : Chain) :
    System.Balanced profile { system with world := { system.world with chain } } log := by
  obtain ⟨world, stage⟩ := system
  cases stage with
  | down => exact balanced
  | starting program =>
    obtain ⟨owned, revived, rest⟩ := balanced
    exact ⟨owned, ⟨revived.owed.congr rfl rfl, revived.alone, revived.complete, revived.running,
      revived.enqueued⟩, rest⟩
  | serving threads =>
    obtain ⟨worker, probe, handlers, tended, shares⟩ := balanced
    exact ⟨worker, probe, handlers, tended.congr rfl rfl rfl, shares⟩

/-- A program is done and the postcondition holds, or it may issue its next command. -/
theorem next_cases {role : Role} {α : Type} {program : Program service α} {owned : Multiset Task}
    {post : α → Multiset Task → Prop}
    (follows : Follows (ledger profile role) program post owned) :
    (∃ value, program = .done value ∧ post value owned) ∨
      ∃ c, program.next? = some c ∧ (ledger profile role).issues c owned := by
  cases program with
  | done value =>
    obtain ⟨kept, rfl | ⟨⟨⟩, -⟩, holds⟩ := follows
    exact .inl ⟨value, rfl, holds⟩
  | call c next => exact .inr ⟨c, rfl, follows.1⟩

section Threads

variable (role : Role) {owned others : Multiset Task}

/-- A step of a thread, while the others keep their tokens. -/
theorem balances_step {α : Type} {program program' : Program service α}
    {post : α → Multiset Task → Prop} (balances : Follows (ledger profile role) program post owned)
    (holds : (ledger profile role).invariant (owned + others) (world, log))
    (may : ∀ c, program.next? = some c → (ledger profile role).permitted c choice (world, log))
    (taken : program.step execute choice world = some (program', world')) :
    ∃ c owned', program.next? = some c ∧
      (ledger profile role).invariant (owned' + others) (world', Log.note c world log) ∧
      Follows (ledger profile role) program' post owned' := by
  obtain ⟨c, next, noted⟩ := Program.step_noting Log.note log taken
  obtain ⟨-, owned', holds', balances'⟩ := balances.step holds may noted
  exact ⟨c, owned', next, holds', balances'⟩

/-- A step of a thread that runs in a loop. -/
theorem balances_loop {ω : Type} {body : ω → Program service ω}
    {program program' : Program service ω} {post : ω → Multiset Task → Prop}
    (again : ∀ state owned, post state owned →
      Follows (ledger profile role) (body state) post owned)
    (balances : Follows (ledger profile role) program post owned)
    (holds : (ledger profile role).invariant (owned + others) (world, log))
    (may : ∀ c, program.next? = some c → (ledger profile role).permitted c choice (world, log))
    (taken : stepLoop body world program choice = some (program', world')) :
    ∃ owned', (ledger profile role).invariant (owned' + others)
        (world', (program.next?.elim log fun c => Log.note c world log)) ∧
      Follows (ledger profile role) program' post owned' := by
  obtain ⟨state, rfl, rfl, rfl⟩ | stepped := stepLoop_cases taken
  · obtain ⟨kept, gives, here⟩ := balances
    exact ⟨owned, holds, (again state kept here).weaken gives⟩
  · obtain ⟨c, owned', next, holds', balances'⟩ := balances_step role balances holds may stepped
    rw [next]
    exact ⟨owned', holds', balances'⟩

end Threads

/-- Every step that is permitted keeps the books right. -/
theorem System.Balanced.step (balanced : system.Balanced profile log) (crash : label ≠ .crash)
    (shutdown : label ≠ .shutdown)
    (permitted : ∀ c, system.stage.next? label = some c →
      (ledger profile label.role).permitted c label.choice (system.world, log))
    (taken : system.step profile label = some system') :
    system'.Balanced profile (log.after system label) := by
  cases System.step_takes taken with
  | start booted => exact boot_balanced balanced booted
  | crash => exact absurd rfl crash
  | shutdown => exact absurd rfl shutdown
  | @main world world' program program' choice stepped =>
    obtain ⟨owned, holds, balances⟩ := balanced
    rw [← add_zero owned] at holds
    obtain ⟨c, owned', next, holds', balances'⟩ :=
      balances_step .main balances holds permitted stepped
    have same : Stage.next? (.starting program) (.main choice) = some c := next
    rw [Log.after_of_running rfl, same]
    rw [add_zero] at holds'
    exact ⟨owned', holds', balances'⟩
  | ready =>
    obtain ⟨_, revived, owned, rfl | ⟨⟨⟩, -⟩, done⟩ := balanced
    obtain rfl : owned = 0 := done rfl
    have tended := revived.ready
    rw [← add_zero ({.resting} : Multiset Task), ← add_zero (0 : Multiset Task)] at tended
    exact ⟨_, 0, 0, tended, (tends_tending profile).workerTurn .waiting, probe_tending none, .nil⟩
  | abort =>
    obtain ⟨owned, revived, -⟩ := balanced
    exact revived.owed.regular
  | worker stepped =>
    obtain ⟨worker, probe, handlers, tended, shares⟩ := balanced
    obtain ⟨owned', tended', balances'⟩ := balances_loop .worker
      (fun state owned same => same ▸ (tends_tending profile).workerTurn state) shares.worker tended
      permitted stepped
    rw [Log.after_of_running rfl]
    exact ⟨owned', probe, handlers, tended', balances', shares.probe, shares.handlers⟩
  | probe stepped =>
    obtain ⟨worker, probe, handlers, tended, shares⟩ := balanced
    rw [add_left_comm] at tended
    obtain ⟨owned', tended', balances'⟩ := balances_loop .probe
      (by rintro state _ rfl; exact probe_tending state) shares.probe tended permitted stepped
    rw [Log.after_of_running rfl]
    rw [add_left_comm] at tended'
    exact ⟨worker, owned', handlers, tended', shares.worker, balances', shares.handlers⟩
  | open_ =>
    obtain ⟨worker, probe, handlers, tended, shares⟩ := balanced
    exact ⟨worker, probe, handlers, tended, shares.worker, shares.probe,
      shares.handlers.snoc (handler_tending _)⟩
  | @handler world world' threads index program program' choice found stepped =>
    obtain ⟨worker, probe, handlers, tended, shares⟩ := balanced
    obtain ⟨own, others, rfl, stands, back⟩ := shares.handlers.focus found
    have around (own : Multiset Task) :
        worker + (probe + (own + others)) = own + (worker + (probe + others)) := by
      rw [add_left_comm probe, add_left_comm worker]
    rw [around] at tended
    obtain ⟨c, own', issued, tended', stands'⟩ := balances_step .handler stands tended
      (fun c issued => permitted c (Stage.next?_of_handler found issued)) stepped
    rw [Log.after_of_running rfl, Stage.next?_of_handler found issued]
    refine ⟨worker, probe, own' + others, ?_, shares.worker, shares.probe, back stands'⟩
    rw [around]
    exact tended'
  | chain stepped =>
    rw [Log.after_of_running rfl, Stage.next?_of_chain]
    exact balanced.of_chain _

end Bookkeeping

end Torium.Faucet
