import Torium.Faucet.Conduct
import Torium.Faucet.Pending

/-!
# How the threads tend to the requests

The worker has the request that it drives until it is confirmed or has failed, provided that
entries reach the journal, the service is not stopped and no error of the node wraps a
cancellation: for such an error `process` returns without a record. A handler has the request
that it has accepted until the queue takes it or its failure is recorded. The start-up takes
over all pending requests.
-/

namespace Torium.Faucet

open Evm Concurrent Attempt

/-! ## The books -/

/-- The request of a handler that is about to put it into the queue or to let it fail. -/
def Command.held? : Command → Option GoString
  | .tryEnqueue requestID | .perform (.recordFailed requestID _ _) => some requestID
  | _ => none

def Command.operation? : Command → Option Operation
  | .perform operation => some operation
  | _ => none

/-- The environment lets a call fail with an error that wraps a cancellation. -/
def Choice.canceled : Choice → Bool
  | .fail error | .failAfter error => error.canceled
  | _ => false

/-- The operation is written to the journal. -/
def Operation.Written [EthText] [Digest] (operation : Operation) (choice : Choice) (store : Store) :
    Prop :=
  choice = .ok ∧ (store.perform ⟨operation, none⟩).2.unwritten = false

instance [EthText] [Digest] (operation : Operation) (choice : Choice) (store : Store) :
    Decidable (operation.Written choice store) := inferInstanceAs (Decidable (_ ∧ _))

/-- The notes that a command takes. -/
def Log.note (c : Command) (world : World) (log : Log) : Log :=
  match c with
  | .tryEnqueue requestID =>
    if world.queue.length < world.store.profile.queueCapacity then
      { log with enqueued := log.enqueued ++ [requestID] }
    else log
  | .dequeue => { log with driving := world.queue.head? }
  | _ => log

/-- While the pending requests are taken over: nobody else runs, and what was put into the queue
is there. -/
structure World.Revived [EthText] (profile : Profile) (owned : Multiset Task) (world : World)
    (log : Log) : Prop where
  owed : world.Owed profile (duties owned)
  alone : .duty .starting ∈ owned → owned = {.duty .starting} ∧ world.queue = []
  complete : .duty .starting ∉ owned →
    ∀ id, world.store.Pending id → id ∈ claims (duties owned) world.queue
  running : world.stopping = false
  enqueued : log.enqueued = world.queue

/-- A handler and the request that it has accepted. -/
abbrev holding (id : GoString) : Multiset Task := {.duty (.fresh id)}

/-- The worker and the request that it drives. -/
abbrev driving (id : GoString) : Multiset Task := {.duty (.drive id)}

section Tending

variable [EthText] [Digest]

/-- The protocol of a thread about the pending requests; its tokens are obligations. -/
def ledger (profile : Profile) (role : Role) :
    Protocol (F := service) (noting (F := service) execute Log.note) Task where
  invariant owned s := match role with
    | .main => s.1.Revived profile owned s.2
    | .worker | .probe | .handler => s.1.Tended profile owned s.2
  permitted c choice s :=
    (∀ operation ∈ c.operation?, operation.Written choice s.1.store) ∧
      (role = .worker → choice.canceled = false)
  issues c owned := match role with
    | .main => c ≠ .dequeue
    | .worker => (owned = {.resting} ∨ ∃ id, owned = driving id) ∧
        (c = .dequeue → owned = {.resting})
    | .probe => owned = 0
    | .handler => owned = c.held?.elim 0 holding
  lenient := False
  drop := False.elim
  free := False.elim

variable {profile : Profile} {world world' : World} {log : Log} {owned others : Multiset Task}
variable {c : Command} {choice : Choice} {id : GoString} {operation : Operation} {context : String}
variable {hash : Bytes32}

/-- The specification of one command. -/
theorem ledger_command {role : Role} {post : Response c → Multiset Task → Prop}
    (issued : (ledger profile role).issues c owned)
    (spec : ∀ {others world log choice response world'},
      (ledger profile role).invariant (owned + others) (world, log) →
      (ledger profile role).permitted c choice (world, log) →
      execute c choice world = some (response, world') →
        ∃ owned', (ledger profile role).invariant (owned' + others)
          (world', Log.note c world log) ∧ post response owned') :
    Follows (ledger profile role) (call c) post owned := by
  refine Follows.command issued ?_
  rintro others ⟨world, log⟩ choice response ⟨world', log'⟩ holds may executed
  obtain ⟨ran, rfl⟩ := noting_eq_some.mp executed
  exact ⟨trivial, spec holds may ran⟩

omit [EthText] [Digest] in
theorem note_neutral (neutral : c.neutral = true) : Log.note c world log = log := by
  cases c with
  | tryEnqueue | dequeue => cases neutral
  | _ => rfl

/-- A command that does nothing for a request. -/
theorem World.Tended.execute_neutral {response : Response c} (neutral : c.neutral = true)
    (tended : world.Tended profile owned log)
    (executed : execute c choice world = some (response, world')) :
    world'.Tended profile owned (Log.note c world log) := by
  rw [note_neutral neutral]
  cases execute_effect executed with
  | store fresh => exact tended.neutral neutral fresh
  | enqueued | dequeued => cases neutral
  | _ => exact tended.congr rfl rfl rfl

/-- An operation that is written. -/
theorem perform_written {outcome : Outcome} (written : operation.Written choice world.store)
    (executed : world.perform operation choice = some (outcome, world')) :
    operation.Fresh world.store ∧ (world.store.perform ⟨operation, none⟩).2 = outcome ∧
      outcome.unwritten = false ∧
      world' = { world with store := (world.store.perform ⟨operation, none⟩).1 } := by
  obtain ⟨rfl, written⟩ := written
  obtain ⟨fresh, rfl, rfl⟩ := World.perform_run executed
  exact ⟨fresh, rfl, written, rfl⟩

/-! ## Errors that are no cancellations -/

def Uncanceled {α : Type} (result : Except GoError α) : Prop :=
  ∀ error, result = .error error → error.canceled = false

/-- A response that reports no cancellation. -/
def Command.Candid : (c : Command) → Response c → Prop
  | .chainID, result | .balanceAt _, result | .headBaseFee, result | .suggestGasTipCap, result =>
    Uncanceled (α := Int) result
  | .pendingNonceAt _, result | .nonceAt _ _, result => Uncanceled (α := Nat) result
  | .transactionReceipt _, result => Uncanceled (α := Receipt) result
  | .sign _ _, result => Uncanceled (α := Transaction × Address) result
  | .sendTransaction _ _, error => ∀ failure, error = some failure → failure.canceled = false
  | _, _ => True

omit [EthText] [Digest] in
theorem answered_candid {answer : Except GoError Int} (calm : choice.canceled = false)
    (executed : world.answered choice = some (answer, world')) : Uncanceled answer := by
  rintro error rfl
  cases choice <;> cases executed
  exact calm

theorem execute_candid {response : Response c} (calm : choice.canceled = false)
    (executed : execute c choice world = some (response, world')) : c.Candid response := by
  cases c with
  | chainID | balanceAt | headBaseFee | suggestGasTipCap => exact answered_candid calm executed
  | pendingNonceAt account =>
    rintro error rfl
    cases choice <;> simp only [execute, World.pendingNonceAt] at executed <;> try cases executed
    · exact calm
    · split_ifs at executed
      cases executed
  | nonceAt =>
    rintro error rfl
    cases choice <;> cases executed
    exact calm
  | sendTransaction =>
    rintro error rfl
    cases choice <;> cases executed <;> exact calm
  | transactionReceipt =>
    rintro error rfl
    cases choice <;> simp only [execute, World.transactionReceipt] at executed <;>
      try cases executed
    · split at executed <;> cases executed
      rfl
    · split_ifs at executed
      cases executed
      exact calm
  | sign =>
    rintro error rfl
    cases choice <;> simp only [execute, World.sign] at executed <;> try cases executed
    · exact calm
    · split_ifs at executed
      cases executed
  | _ => trivial

/-- The specification of an operation. It is written, and takes no notes. -/
theorem perform_balances (role : Role) {post : Outcome → Multiset Task → Prop}
    (issued : (ledger profile role).issues (.perform operation) owned)
    (spec : ∀ {others} {world : World} {log},
      (ledger profile role).invariant (owned + others) (world, log) →
      operation.Fresh world.store →
      (world.store.perform ⟨operation, none⟩).2.unwritten = false →
        ∃ owned', (ledger profile role).invariant (owned' + others)
            ({ world with store := (world.store.perform ⟨operation, none⟩).1 }, log) ∧
          post (world.store.perform ⟨operation, none⟩).2 owned') :
    Follows (ledger profile role) (call (.perform operation)) post owned := by
  refine ledger_command issued fun {others world log choice outcome world'} holds may executed => ?_
  have performed : world.perform operation choice = some (outcome, world') := executed
  obtain ⟨fresh, rfl, written, rfl⟩ := perform_written (may.1 operation rfl) performed
  exact spec holds fresh written

/-! ## The worker -/

/-- A command of the worker that keeps what it has. -/
theorem worker_keeps (other : c ≠ .dequeue)
    (hands : owned = {.resting} ∨ ∃ id, owned = driving id)
    (keeps : ∀ {others world log choice response world'},
      world.Tended profile (owned + others) log →
      (ledger profile .worker).permitted c choice (world, log) →
      execute c choice world = some (response, world') →
        world'.Tended profile (owned + others) (Log.note c world log)) :
    Follows (ledger profile .worker) (call c)
      (fun response kept => kept = owned ∧ c.Candid response) owned := by
  refine ledger_command ⟨hands, fun same => absurd same other⟩ fun tended may executed => ?_
  exact ⟨owned, keeps tended may executed, rfl, execute_candid (may.2 rfl) executed⟩

theorem worker_neutral (neutral : c.neutral = true)
    (hands : owned = {.resting} ∨ ∃ id, owned = driving id) :
    Follows (ledger profile .worker) (call c)
      (fun response kept => kept = owned ∧ c.Candid response) owned := by
  refine worker_keeps ?_ hands fun tended _ executed => tended.execute_neutral neutral executed
  rintro rfl
  cases neutral

/-- The worker keeps the request that it drives while it works for it. -/
theorem worker_serves (serves : c.Serves id) :
    Follows (ledger profile .worker) (call c)
      (fun response kept => kept = driving id ∧ c.Candid response) (driving id) := by
  cases serves with
  | neutral neutral => exact worker_neutral neutral (.inr ⟨id, rfl⟩)
  | sign =>
    refine worker_keeps nofun (.inr ⟨id, rfl⟩) fun tended _ executed => ?_
    cases execute_effect executed <;> exact tended.congr rfl rfl rfl
  | send =>
    refine worker_keeps nofun (.inr ⟨id, rfl⟩) fun tended _ executed => ?_
    cases execute_effect executed <;> exact tended.congr rfl rfl rfl
  | submit =>
    refine worker_keeps nofun (.inr ⟨id, rfl⟩) fun tended _ executed => ?_
    obtain ⟨fault, fresh, -, rfl⟩ := World.perform_cases executed
    exact tended.proceed fresh rfl (.inl rfl)
  | confirm =>
    refine worker_keeps nofun (.inr ⟨id, rfl⟩) fun tended _ executed => ?_
    obtain ⟨fault, fresh, -, rfl⟩ := World.perform_cases executed
    exact tended.proceed fresh rfl (.inr rfl)

/-- The service is not stopped. -/
theorem worker_running :
    Follows (ledger profile .worker) (call (.contextErr false))
      (fun stopping kept => kept = driving id ∧ stopping = false) (driving id) := by
  refine ledger_command ⟨.inr ⟨id, rfl⟩, nofun⟩ ?_
  intro others world log choice stopping world' (tended : world.Tended profile _ log) _ ran
  refine ⟨driving id, tended.execute_neutral (c := .contextErr false) rfl ran, rfl, ?_⟩
  cases choice <;> simp only [execute, World.contextErr, Bool.false_eq_true, if_false] at ran <;>
    cases ran
  exact tended.noted.running

/-- A confirmation that is recorded settles the request. -/
theorem worker_confirms {blockNumber : Nat} :
    FollowsAttempt (ledger profile .worker)
      (record context (.recordConfirmed id hash blockNumber)) (fun _ owned => owned = {.resting})
      (fun error owned => error.canceled = false ∧ owned = driving id) (driving id) := by
  have clock : Follows (ledger profile .worker) (call .now)
      (fun _ kept => kept = driving id) (driving id) :=
    (worker_neutral rfl (.inr ⟨id, rfl⟩)).mono fun _ _ => And.left
  refine .bind (.lift (clock.mono ?_))
  rintro now _ rfl
  have confirms : Follows (ledger profile .worker)
      (call (.perform (.recordConfirmed id hash blockNumber now)))
      (fun outcome owned => match outcome with
        | .failed _ => owned = driving id
        | .done | .request _ _ | .denied _ | .panicked => owned = {.resting}) (driving id) := by
    refine perform_balances .worker ⟨.inr ⟨id, rfl⟩, nofun⟩
      fun {others world log} (tended : world.Tended profile (driving id + others) log)
        fresh written => ?_
    have settled := tended.settle fresh rfl (Store.recordConfirmed_settles written)
    cases (world.store.perform ⟨.recordConfirmed id hash blockNumber now, none⟩).2 with
    | failed => exact ⟨driving id, tended.proceed fresh rfl (.inr rfl), rfl⟩
    | _ => exact ⟨_, settled, rfl⟩
  refine .bind (.lift (confirms.mono fun outcome owned holds => ?_))
  cases outcome with
  | failed => exact .done ⟨rfl, holds⟩
  | _ => exact .done holds

/-- The worker keeps the request, and no error is a cancellation. -/
def Steady (profile : Profile) (id : GoString) {α : Type} (program : Attempt α) : Prop :=
  FollowsAttempt (ledger profile .worker) program (fun _ owned => owned = driving id)
    (fun error owned => error.canceled = false ∧ owned = driving id) (driving id)

namespace Steady

variable {α β : Type} {program : Attempt α}

theorem bind {next : α → Attempt β} {post : β → Multiset Task → Prop}
    (steady : Steady profile id program)
    (rest : ∀ value, FollowsAttempt (ledger profile .worker) (next value) post
      (fun error owned => error.canceled = false ∧ owned = driving id) (driving id)) :
    FollowsAttempt (ledger profile .worker) (program >>= next) post
      (fun error owned => error.canceled = false ∧ owned = driving id) (driving id) := by
  refine .bind (Follows.mono steady fun result owned holds => ?_)
  cases result with
  | ok value =>
    obtain rfl : owned = driving id := holds
    exact rest value
  | error error => exact holds

theorem andThen {next : α → Attempt β} (steady : Steady profile id program)
    (rest : ∀ value, Steady profile id (next value)) : Steady profile id (program >>= next) :=
  steady.bind rest

theorem pure {value : α} : Steady profile id (Pure.pure value : Attempt α) :=
  ⟨_, .inl rfl, rfl⟩

theorem throw {error : GoError} (calm : error.canceled = false) :
    Steady profile id (MonadExcept.throw error : Attempt α) :=
  ⟨_, .inl rfl, calm, rfl⟩

/-- A command, and what is done about its response. -/
theorem ask {next : Response c → Attempt β} (serves : c.Serves id)
    (rest : ∀ response, c.Candid response → Steady profile id (next response)) :
    Steady profile id (Attempt.ask c >>= next) := by
  refine FollowsAttempt.bind (.lift ((worker_serves serves).mono ?_))
  rintro response _ ⟨rfl, candid⟩
  exact rest response candid

theorem require {condition : Prop} [Decidable condition] {message : GoString} :
    Steady profile id (Attempt.require condition message) := by
  unfold Attempt.require
  split_ifs
  · exact pure
  · exact throw rfl

theorem must {value : Option α} {message : GoString} :
    Steady profile id (Attempt.must value message) := by
  cases value with
  | some found => exact pure
  | none => exact throw rfl

theorem rpc {program : Program service (Except GoError α)}
    (balances : Follows (ledger profile .worker) program
      (fun result kept => kept = driving id ∧ Uncanceled result) (driving id)) :
    Steady profile id (Attempt.rpc context program) := by
  refine Follows.bind (balances.mono ?_)
  rintro (error | value) _ ⟨rfl, calm⟩
  · exact .done ⟨calm error rfl, rfl⟩
  · exact .done rfl

theorem record {operation : Time → Operation}
    (serves : ∀ time, (Command.perform (operation time)).Serves id) :
    Steady profile id (Attempt.record context operation) := by
  refine ask (.neutral rfl) fun now _ => ask (serves now) fun outcome _ => ?_
  cases outcome with
  | failed => exact throw rfl
  | _ => exact pure

theorem broadcast {purpose : Purpose} {transaction : Transaction} {context : GoError → String}
    (names : purpose.requestID? = some id) :
    Steady profile id (Attempt.broadcast purpose transaction context) := by
  refine ask (.send names) fun answer candid => ?_
  cases answer with
  | none => exact pure
  | some error => exact throw (candid error rfl)

theorem suggestedTip : Steady profile id suggestedTip := by
  refine ask (.neutral rfl) fun answer _ => ?_
  cases answer with
  | error => exact pure
  | ok tip =>
    dsimp only
    split_ifs <;> exact pure

theorem pollOnce : Steady profile id (pollOnce hash) := by
  refine ask (.neutral rfl) fun answer candid => ?_
  cases answer with
  | ok receipt => exact pure
  | error error =>
    dsimp only
    split_ifs
    · exact pure
    · exact throw (candid error rfl)

/-- The service is not stopped, so the wait ends at its deadline. -/
theorem waitExpired : Steady profile id (waitExpired false hash) := by
  refine FollowsAttempt.bind (.lift (worker_running.mono ?_))
  rintro _ _ ⟨rfl, rfl⟩
  rw [if_neg Bool.false_ne_true]
  refine (throw ?_ : Steady profile id (MonadExcept.throw _ : Attempt Receipt))
  rfl

theorem pollReceipt (polls : Nat) :
    Steady profile id (pollReceipt false hash polls) := by
  induction polls with
  | zero =>
    refine pollOnce.andThen fun receipt => ?_
    cases receipt with
    | some receipt => exact pure
    | none => exact waitExpired
  | succ polls ih =>
    refine pollOnce.andThen fun receipt => ?_
    cases receipt with
    | some receipt => exact pure
    | none => exact ih

theorem waitForReceipt : Steady profile id (waitForReceipt false hash) :=
  ask (.neutral rfl) fun polls _ => pollReceipt polls

end Steady

/-- An attempt that succeeds has settled the request. -/
theorem worker_funds (requestID : GoString) :
    FollowsAttempt (ledger profile .worker) (fundOnce profile requestID)
      (fun _ owned => owned = {.resting})
      (fun error owned => error.canceled = false ∧ owned = driving requestID)
      (driving requestID) := by
  have call {c : Command} (serves : c.Serves requestID) :
      Follows (ledger profile .worker) (Faucet.call c)
        (fun response kept => kept = driving requestID ∧ c.Candid response) (driving requestID) :=
    worker_serves serves
  refine Steady.bind (.ask (.neutral rfl) fun found _ => .pure) fun found => ?_
  refine Steady.must.bind fun request => Steady.must.bind fun amount => ?_
  refine Steady.bind (.rpc (call (.neutral rfl))) fun chainID => Steady.require.bind fun _ => ?_
  refine Steady.bind (.ask (.neutral rfl) fun signerAddress _ => .pure) fun signerAddress => ?_
  refine Steady.bind (.rpc (call (.neutral rfl))) fun nonce => ?_
  refine Steady.bind (.rpc (call (.neutral rfl))) fun baseFee => ?_
  refine Steady.suggestedTip.bind fun tip => ?_
  refine Steady.bind (.rpc (call (.sign rfl))) fun signed => Steady.require.bind fun _ => ?_
  refine Steady.bind (.record fun _ => .submit) fun _ => Steady.bind (.broadcast rfl) fun _ => ?_
  refine Steady.waitForReceipt.bind fun receipt => Steady.require.bind fun _ => ?_
  exact worker_confirms

theorem worker_settles (request : Request) :
    FollowsAttempt (ledger profile .worker) (settleSubmission request)
      (fun outcome owned => owned = if outcome = .confirmed then {.resting} else driving request.id)
      (fun _ owned => owned = driving request.id) (driving request.id) := by
  have pure {outcome : SettleOutcome} (other : outcome ≠ .confirmed) :
      FollowsAttempt (ledger profile .worker) (Pure.pure outcome : Attempt SettleOutcome)
        (fun outcome owned => owned = if outcome = .confirmed then {.resting}
          else driving request.id) (fun _ owned => owned = driving request.id)
        (driving request.id) := Follows.done (if_neg other).symm
  refine .bind (.lift ((worker_serves (.neutral rfl)).mono ?_))
  rintro answer _ ⟨rfl, -⟩
  cases answer with
  | ok receipt =>
    dsimp only
    split_ifs
    · refine .bind (worker_confirms.mono fun result owned holds => ?_)
      cases result with
      | ok => exact .done holds
      | error => exact holds.2
    · exact pure (by decide)
  | error error =>
    dsimp only
    split_ifs
    · have nonce : Steady profile request.id
          (rpc "" (call (.nonceAt request (hexToAddress request.signerAddress)))) :=
        .rpc (worker_serves (.neutral rfl))
      refine .bind (Follows.mono nonce fun result owned holds => ?_)
      cases result with
      | ok confirmedNonce =>
        obtain rfl : owned = driving request.id := holds
        dsimp only
        split_ifs
        · exact pure (by decide)
        · exact pure (by decide)
      | error => exact holds.2
    · exact .done rfl

theorem tends_tending (profile : Profile) :
    Tends (ledger profile .worker) profile {.resting} driving where
  idle idle hands := (worker_neutral (Command.neutral_of_inert idle.1) hands).mono fun _ _ =>
    And.left
  awake requestID := by
    refine ledger_command ⟨.inr ⟨requestID, rfl⟩, fun same => by cases same⟩ ?_
    intro others world log choice awake world' (tended : world.Tended profile _ log) _ ran
    have kept := tended.execute_neutral (c := .sleep) rfl ran
    cases choice <;> simp only [execute, World.sleep] at ran <;> try cases ran
    · exact ⟨_, kept, rfl⟩
    · rw [tended.noted.running] at ran
      cases ran
  running requestID := worker_running.mono fun stopping owned ⟨kept, running⟩ => by
    rw [kept, running]
    rfl
  dequeue := by
    refine ledger_command ⟨.inl rfl, fun _ => rfl⟩ ?_
    intro others world log choice found world' (tended : world.Tended profile _ log) _ ran
    cases choice <;> simp only [execute, World.dequeue] at ran <;> try cases ran
    · split at ran <;> cases ran
      next requestID queue first =>
          refine ⟨driving requestID, ?_, rfl⟩
          have noted : Log.note .dequeue world log = { log with driving := some requestID } := by
            simp only [Log.note, first, List.head?_cons]
          rw [noted]
          exact tended.dequeue first
    · rw [tended.noted.running] at ran
      cases ran
  get requestID := by
    refine ledger_command ⟨.inr ⟨requestID, rfl⟩, fun same => by cases same⟩ ?_
    intro others world log choice found world' (tended : world.Tended profile _ log) _ ran
    obtain rfl : world.store.requests requestID = found := World.reads_value ran
    obtain rfl : world' = world := by
      cases choice <;> cases ran
      rfl
    by_cases pending : world'.store.Pending requestID
    · refine ⟨driving requestID, tended, fun request found _ => ⟨rfl, ?_⟩, fun settled => ?_⟩
      · rw [tended.owed.regular.keyed requestID request found]
      · obtain ⟨request, known, waits⟩ := pending
        rw [settled request known] at waits
        cases waits
    · exact ⟨{Task.resting}, tended.leave pending,
        fun request found waits => absurd ⟨request, found, waits⟩ pending, fun _ => rfl⟩
  settle := worker_settles
  replace request bump := .retains (Program.Only.mono
    (fun _ serves => (worker_serves serves.1).mono fun _ _ => And.left)
    (serves_replaceSubmission request bump)) fun result => by cases result <;> rfl
  fund requestID := (worker_funds requestID).mono fun result owned holds => by
    cases result with
    | ok => exact holds
    | error error =>
      dsimp only at holds ⊢
      rw [holds.1]
      exact holds.2
  fail requestID reason time := by
    refine perform_balances .worker ⟨.inr ⟨requestID, rfl⟩, fun same => by cases same⟩
      fun {others world log} (tended : world.Tended profile (driving requestID + others) log)
        fresh written => ?_
    exact ⟨_, tended.settle fresh rfl (Store.recordFailed_settles written), rfl⟩

/-! ## The handlers -/

omit [EthText] [Digest] in
theorem Command.held_of_neutral (neutral : c.neutral = true) : c.held? = none := by
  cases c with
  | tryEnqueue => cases neutral
  | perform operation => cases operation <;> first | rfl | cases neutral
  | _ => rfl

theorem handler_neutral (neutral : c.neutral = true) :
    Follows (ledger profile .handler) (call c) (fun _ kept => kept = 0) 0 := by
  refine ledger_command ?_ fun tended _ ran =>
    ⟨0, World.Tended.execute_neutral neutral tended ran, rfl⟩
  change 0 = c.held?.elim 0 _
  rw [Command.held_of_neutral neutral]
  rfl

/-- A new request belongs to the handler that has accepted it. -/
theorem handler_accepts (clientKey : GoString) (address : Address) (at_ : Time)
    (requestID : GoString) :
    Follows (ledger profile .handler)
      (call (.perform (.accept clientKey address at_ requestID))) (fun outcome owned =>
        (∀ accepted, outcome = .request accepted false → owned = holding accepted.id) ∧
          ((∀ accepted, outcome ≠ .request accepted false) → owned = 0)) 0 := by
  refine perform_balances .handler rfl
    fun {others world log} (tended : world.Tended profile (0 + others) log) fresh _ => ?_
  by_cases accepts : ∃ accepted, (world.store.perform
      ⟨.accept clientKey address at_ requestID, none⟩).2 = .request accepted false
  · obtain ⟨accepted, returned⟩ := accepts
    obtain ⟨named, tended'⟩ := tended.accepts fresh returned
    refine ⟨_, tended', fun other returned' => ?_, fun refused => absurd returned (refused _)⟩
    cases returned.symm.trans returned'
    rw [named]
  · have refused := not_exists.mp accepts
    exact ⟨0, tended.refuses fresh refused, fun accepted returned => absurd returned (refused _),
      fun _ => rfl⟩

/-- The queue takes the request, or the handler keeps it. -/
theorem handler_enqueues (requestID : GoString) :
    Follows (ledger profile .handler) (call (.tryEnqueue requestID))
      (fun taken owned => owned = if taken then 0 else holding requestID)
      (holding requestID) := by
  refine ledger_command rfl ?_
  intro others world log choice taken world' (tended : world.Tended profile _ log) _ ran
  cases choice <;> simp only [execute, World.tryEnqueue] at ran <;> try cases ran
  split_ifs at ran with room <;> cases ran
  · have noted : Log.note (.tryEnqueue requestID) world log =
        { log with enqueued := log.enqueued ++ [requestID] } := if_pos room
    rw [noted]
    exact ⟨0, tended.enqueue, rfl⟩
  · have noted : Log.note (.tryEnqueue requestID) world log = log := if_neg room
    rw [noted]
    exact ⟨_, tended, rfl⟩

theorem handler_enqueueAccepted (accepted : Request) (now : Time) :
    Follows (ledger profile .handler) (enqueueAccepted accepted now)
      (fun _ owned => owned = 0) (holding accepted.id) := by
  refine .bind ((handler_enqueues accepted.id).mono fun taken owned holds => ?_)
  subst holds
  cases taken with
  | true => exact .done rfl
  | false =>
    have fails : Follows (ledger profile .handler) (call (.perform (.recordFailed
        accepted.id (text "queue is full") now))) (fun _ owned => owned = 0)
        (holding accepted.id) :=
      perform_balances .handler rfl fun {others world log}
        (tended : world.Tended profile (holding accepted.id + others) log)
          fresh written =>
        ⟨0, tended.fail fresh rfl (Store.recordFailed_settles written), rfl⟩
    refine .bind (fails.mono ?_)
    rintro _ _ rfl
    exact .done rfl

theorem handler_tending (request : ClientRequest) :
    Follows (ledger profile .handler) (request.handler profile)
      (fun _ owned => owned = 0) 0 :=
  handler_follows holding handler_neutral handler_accepts handler_enqueueAccepted request

theorem probe_tending (probed : Probed) :
    Follows (ledger profile .probe) (probeOnce profile probed) (fun _ owned => owned = 0) 0 := by
  have neutral {c : Command} (neutral : c.neutral = true) :
      Follows (ledger profile .probe) (call c) (fun _ kept => kept = 0) 0 :=
    ledger_command rfl fun tended _ ran =>
      ⟨0, World.Tended.execute_neutral neutral tended ran, rfl⟩
  exact .retains
    (Program.Only.mono (fun _ => neutral) (idle_probeOnce profile probed).inert.neutral)
    fun _ => rfl

/-! ## The start-up -/

/-- The tasks of the start-up for the requests that are still to be put into the queue. -/
def takenOver (pending : List Request) : Multiset Task :=
  ↑(pending.map fun request => Task.duty (.drive request.id))

omit [EthText] [Digest] in
theorem duties_takenOver (pending : List Request) :
    duties (takenOver pending) = ↑(pending.map fun request => Duty.drive request.id) := by
  rw [duties, takenOver, Multiset.filterMap_coe, List.filterMap_map]
  exact congrArg _ (congrFun List.filterMap_eq_map _)

namespace World.Revived

section

variable (revived : world.Revived profile (driving id + others) log)

include revived

omit [Digest] in
/-- The start-up is past its first step. -/
theorem started :
    .duty .starting ∉ driving id + others := by
  intro member
  obtain ⟨single, -⟩ := revived.alone member
  have here : .duty (.drive id) ∈ driving id + others :=
    Multiset.mem_add.mpr (.inl (Multiset.mem_singleton_self _))
  rw [single] at here
  cases Multiset.mem_singleton.mp here

omit [Digest] in
theorem startedOthers :
    .duty .starting ∉ others :=
  fun member => revived.started (Multiset.mem_add.mpr (.inr member))

omit [Digest] in
/-- The queue takes a request. -/
theorem enqueue :
    World.Revived profile (0 + others) { world with queue := world.queue ++ [id] }
      { log with enqueued := log.enqueued ++ [id] } := by
  have owed := revived.owed
  rw [duties_duty] at owed
  rw [zero_add]
  refine ⟨owed.enqueue rfl, fun member => absurd member revived.startedOthers,
    fun _ other pending => ?_, revived.running, ?_⟩
  · have member := revived.complete revived.started other pending
    rw [duties_duty, claims_cons rfl] at member
    rw [claims_enqueue]
    exact member
  · rw [revived.enqueued]

/-- A request fails for which there is no room. -/
theorem fail {fault : Option GoString} (fresh : operation.Fresh world.store)
    (subject : operation.subject? = some id)
    (settled : ¬ (world.store.perform ⟨operation, fault⟩).1.Pending id) :
    World.Revived profile (0 + others)
      { world with store := (world.store.perform ⟨operation, fault⟩).1 } log := by
  have owed := revived.owed
  rw [duties_duty] at owed
  rw [zero_add]
  exact ⟨owed.conclude rfl fresh subject, fun member => absurd member revived.startedOthers,
    fun _ => Tended.pending_others (revived.complete revived.started) rfl subject settled,
    revived.running, revived.enqueued⟩

end

omit [Digest] in
/-- All pending requests are taken over. -/
theorem takeOver (revived : world.Revived profile ({.duty .starting} + others) log) :
    world.Revived profile (takenOver world.store.pendingRequests + others) log := by
  obtain ⟨single, empty⟩ :=
    revived.alone (Multiset.mem_add.mpr (.inl (Multiset.mem_singleton_self _)))
  obtain rfl : others = 0 := add_eq_left.mp single
  have regular := revived.owed.regular
  rw [add_zero]
  refine ⟨?_, fun member => ?_, fun _ id pending => ?_, revived.running, revived.enqueued⟩
  · rw [duties_takenOver]
    exact .pending regular empty
  · obtain ⟨request, -, same⟩ := List.mem_map.mp (Multiset.mem_coe.mp member)
    cases same
  · rw [duties_takenOver, claims_pending empty]
    exact Multiset.mem_coe.mpr (pending.listed regular.keyed regular.ordered)

omit [Digest] in
/-- The service is ready when all pending requests are in the queue. -/
theorem ready (revived : world.Revived profile 0 log) :
    world.Tended profile {.resting} log := by
  obtain ⟨owed, -, complete, running, enqueued⟩ := revived
  have resting : duties {.resting} = 0 := rfl
  have claimed : claims 0 world.queue = world.queue := zero_add _
  refine ⟨resting ▸ owed, resting ▸ complete (Multiset.notMem_zero _),
    ⟨running, fun id member => ?_, ?_, ?_⟩, by simp, by simp,
    Multiset.countP_le_card _ _⟩
  · refine (owed.live id ?_).undenied
    rw [duties_zero, claimed, ← enqueued]
    exact member
  · have distinct := owed.distinct
    rw [duties_zero, claimed, ← enqueued] at distinct
    exact Multiset.coe_nodup.mp distinct
  · rw [enqueued]

end World.Revived

theorem startup_requeueOne (request : Request) :
    FollowsAttempt (ledger profile .main) (requeueOne request) (fun _ owned => owned = 0)
      (fun _ _ => True) (driving request.id) := by
  have enqueues : Follows (ledger profile .main) (call (.tryEnqueue request.id))
      (fun taken owned => owned = if taken then 0 else driving request.id)
      (driving request.id) := by
    refine ledger_command (fun same => by cases same) ?_
    intro others world log choice taken world' (revived : world.Revived profile _ log) _ ran
    cases choice <;> simp only [execute, World.tryEnqueue] at ran <;> try cases ran
    split_ifs at ran with room <;> cases ran
    · have noted : Log.note (.tryEnqueue request.id) world log =
          { log with enqueued := log.enqueued ++ [request.id] } := if_pos room
      rw [noted]
      exact ⟨0, revived.enqueue, rfl⟩
    · have noted : Log.note (.tryEnqueue request.id) world log = log := if_neg room
      rw [noted]
      exact ⟨_, revived, rfl⟩
  have clock : Follows (ledger profile .main) (call .now)
      (fun _ kept => kept = driving request.id) (driving request.id) := by
    refine ledger_command (fun same => by cases same) ?_
    intro others world log choice time world' revived _ ran
    cases choice <;> cases ran
    exact ⟨_, revived, rfl⟩
  refine .bind (.lift (enqueues.mono fun taken owned holds => ?_))
  subst holds
  cases taken with
  | true => exact .done rfl
  | false =>
    refine .bind (.lift (clock.mono ?_))
    rintro now _ rfl
    have fails : Follows (ledger profile .main) (call (.perform (.recordFailed request.id
        (text "queue capacity exceeded during restart recovery") now)))
        (fun _ owned => owned = 0) (driving request.id) :=
      perform_balances .main (fun same => by cases same) fun {others world log}
        (revived : world.Revived profile (driving request.id + others) log) fresh written =>
        ⟨0, revived.fail fresh rfl (Store.recordFailed_settles written), rfl⟩
    refine .bind (.lift (fails.mono ?_))
    rintro outcome _ rfl
    cases outcome with
    | failed => exact .done trivial
    | _ => exact .done rfl

theorem startup_requeue (pending : List Request) :
    Follows (ledger profile .main) (requeue pending).run
      (fun result owned => result = .ok () → owned = 0) (takenOver pending) := by
  induction pending with
  | nil => exact .done fun _ => rfl
  | cons request rest ih =>
    have split : takenOver (request :: rest) = driving request.id + takenOver rest := by
      rw [takenOver, List.map_cons, ← Multiset.cons_coe, Multiset.singleton_add, takenOver]
    rw [split]
    refine .bind (((startup_requeueOne request).frame _ fun _ _ => id).mono ?_)
    rintro result _ ⟨kept, rfl, holds⟩
    cases result with
    | error error => exact .done nofun
    | ok _ =>
      obtain rfl : kept = 0 := holds
      rw [zero_add]
      exact ih

theorem startup_reconcile :
    Follows (ledger profile .main) reconcile.run
      (fun result owned => result = .ok () → owned = 0) {.duty .starting} := by
  have takes : Follows (ledger profile .main) (call .pendingRequests)
      (fun pending owned => owned = takenOver pending) {.duty .starting} := by
    refine ledger_command (fun same => by cases same) ?_
    intro others world log choice pending world' (revived : world.Revived profile _ log) _ ran
    cases choice <;> cases ran
    exact ⟨_, revived.takeOver, rfl⟩
  refine .bind (.bind (takes.mono ?_))
  rintro pending _ rfl
  exact .done (startup_requeue pending)

end Tending

end Torium.Faucet
