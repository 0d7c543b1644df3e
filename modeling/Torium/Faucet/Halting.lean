import Torium.Faucet.Rotation

/-!
# What stops new funding

Handlers refuse new requests while the service is paused or a breaker is open, and the
worker does not sign for requests while the service is paused, the node is down or the
balance is below its floor. The worker does not look at the error-rate breaker.

Each condition has its own protocol: commands are executed while the condition is in
force, and the guarantee is that nothing is accepted, or that nothing is signed.
-/

namespace Torium.Faucet

open Evm Concurrent Attempt

inductive Condition where
  | paused
  | errorRate
  | rpcDown
  | balanceFloor
  deriving DecidableEq

def Condition.InForce (world : World) : Condition → Prop
  | .paused => world.store.paused = true
  | .errorRate => (world.breakers.evaluate world.store.profile 0).errorRateTripped = true
  | .rpcDown => (world.breakers.evaluate world.store.profile 0).rpcDown = true
  | .balanceFloor => (world.breakers.evaluate world.store.profile 0).balanceFloor = true

instance (world : World) : DecidablePred (Condition.InForce world)
  | .paused => inferInstanceAs (Decidable (_ = true))
  | .errorRate => inferInstanceAs (Decidable (_ = true))
  | .rpcDown => inferInstanceAs (Decidable (_ = true))
  | .balanceFloor => inferInstanceAs (Decidable (_ = true))

/-- No request is accepted. -/
def World.AcceptsNothing (world world' : World) : Prop := world'.store.order = world.store.order

theorem World.AcceptsNothing.refl (world : World) : world.AcceptsNothing world := rfl

/-- No transaction is signed. -/
def World.SignsNothing (world world' : World) : Prop := world'.signed = world.signed

instance (world world' : World) : Decidable (world.SignsNothing world') :=
  inferInstanceAs (Decidable (_ = _))

theorem World.SignsNothing.refl (world : World) : world.SignsNothing world := rfl

/-- Whether a command can put a request into the order. -/
def Command.creates : Command → Bool
  | .perform (.accept _ _ _ _) | .perform (.recordDenied _ _ _ _) => true
  | _ => false

variable {c : Command}

theorem creates_of_neutral (neutral : c.neutral = true) : c.creates = false := by
  cases c with
  | perform operation => cases operation <;> first | rfl | cases neutral
  | _ => rfl

/-- The worker is between two iterations. -/
def Stage.between : Stage → Bool
  | .serving threads => threads.worker.next?.isNone
  | .down | .starting _ => false

theorem Stage.between_iff {stage : Stage} :
    stage.between ↔ ∃ threads, stage = .serving threads ∧ threads.worker.next? = none := by
  cases stage with
  | serving threads => simp [between]
  | down | starting => simp [between]

section Halting

variable [EthText] [Digest]

/-- All commands are executed while the condition is in force. -/
def halting (condition : Condition) (keeps : World → World → Prop) :
    Protocol (F := service) execute Empty where
  invariant _ _ := True
  permitted _ _ world := condition.InForce world
  guarantee _ world _ world' := keeps world world'
  drop := fun _ => id

variable {condition : Condition} {keeps : World → World → Prop} {profile : Profile}

theorem halting_holds (owned : Multiset Empty) (world : World) :
    (halting condition keeps).invariant (owned + 0) world := trivial

theorem halting_respects (kept : ∀ choice response world world',
    condition.InForce world → execute c choice world = some (response, world') →
      keeps world world') : Respects (halting condition keeps) c :=
  fun _ _ choice response _ _ inForce executed =>
    ⟨kept choice response _ _ inForce executed, trivial⟩

/-- A command that does nothing forbidden, before the rest of a program. -/
theorem halting_call {α : Type} {next : Response c → Program service α}
    (respects : Respects (halting condition keeps) c)
    (rest : ∀ response, Follows (halting condition keeps) (next response) (fun _ _ => True) 0) :
    Follows (halting condition keeps) (call c >>= next) (fun _ _ => True) 0 :=
  .bind (.respects trivial (only_call respects) rest)

/-! ## Handlers -/

theorem accepts_nothing (other : c.creates = false) :
    Respects (halting condition World.AcceptsNothing) c := by
  refine halting_respects fun choice response world world' _ executed => ?_
  cases execute_effect executed with
  | @store operation fault fresh =>
    refine Store.perform_order ?_
    cases operation with
    | accept | recordDenied => cases other
    | _ => exact ⟨nofun, nofun⟩
  | _ => rfl

/-- `Accept` creates no request while the service is paused. -/
theorem accept_paused {clientKey requestID : GoString} {address : Address} {at_ : Time} :
    Respects (halting .paused World.AcceptsNothing)
      (.perform (.accept clientKey address at_ requestID)) := by
  refine halting_respects fun choice response world world' paused executed => ?_
  cases execute_effect executed with
  | @store operation fault fresh =>
    obtain alike | ⟨entry, error, -, admissible, -⟩ := Store.perform_cases (s := world.store)
      ⟨.accept clientKey address at_ requestID, fault⟩
    · exact (Store.eq_of_core alike.core Store.order).symm
    · exact absurd paused (ne_true_of_eq_false admissible.2.1)
  | _ => rfl

/-- What is read is read while the condition is in force. -/
theorem reads_inForce {value : World → Response c}
    (reads : ∀ choice world, execute c choice world = world.reads (value world) choice)
    (kept : ∀ world, keeps world world) :
    Follows (halting condition keeps) (call c)
      (fun response _ => ∃ world, condition.InForce world ∧ response = value world) 0 := by
  refine .command trivial fun {others world choice response world'} _ inForce executed => ?_
  rw [reads] at executed
  obtain rfl := World.reads_value executed
  have same : world' = world := by
    cases choice <;> cases executed
    rfl
  subst same
  exact ⟨kept world', 0, trivial, world', inForce, rfl⟩

/-- A handler that finds no breaker open runs while the service is paused. -/
theorem evaluate_open {spent : Int} :
    Follows (halting condition World.AcceptsNothing) (call (.evaluate spent))
      (fun (state : BreakerState) _ => state.openReason = [] → condition = .paused) 0 := by
  refine (reads_inForce (c := .evaluate spent) (fun _ _ => rfl) .refl).mono ?_
  rintro state _ ⟨world, inForce, rfl⟩ closed
  cases condition with
  | paused => rfl
  | errorRate =>
    refine absurd closed (Breakers.evaluate_openReason (.inl ?_))
    exact Breakers.evaluate_errorRateTripped.trans inForce
  | rpcDown =>
    refine absurd closed (Breakers.evaluate_openReason (.inr (.inl ?_)))
    exact Breakers.evaluate_rpcDown.trans inForce
  | balanceFloor =>
    refine absurd closed (Breakers.evaluate_openReason (.inr (.inr ?_)))
    exact Breakers.evaluate_balanceFloor.trans inForce

theorem acceptNew_paused (idempotencyKey : GoString) (recipient : Address) (now : Time) :
    Follows (halting .paused World.AcceptsNothing) (acceptNew idempotencyKey recipient now)
      (fun _ _ => True) 0 := by
  refine halting_call (accepts_nothing rfl) fun identifier => ?_
  cases identifier with
  | error error => exact .done trivial
  | ok requestID =>
    refine halting_call accept_paused fun outcome => ?_
    rcases outcome with _ | ⟨accepted, _ | _⟩ | _ | _ | _
    case request.false =>
      refine halting_call (accepts_nothing rfl) fun queued => ?_
      split
      · exact .done trivial
      · exact halting_call (accepts_nothing rfl) fun _ => .done trivial
    all_goals exact .done trivial

theorem handler_accepts_nothing (profile : Profile) (request : ClientRequest) :
    Follows (halting condition World.AcceptsNothing) (request.handler profile) (fun _ _ => True)
      0 := by
  cases request with
  | fund idempotencyKey recipient =>
    refine halting_call (accepts_nothing rfl) fun now =>
      halting_call (accepts_nothing rfl) fun existing => ?_
    cases existing with
    | some existing => exact .done trivial
    | none =>
      refine halting_call (accepts_nothing rfl) fun spent => .bind (evaluate_open.mono ?_)
      intro state owned closed
      split_ifs with reason
      · exact .done trivial
      · cases closed (not_not.mp reason)
        exact (acceptNew_paused idempotencyKey recipient now).unneeded trivial
  | pause | resume | rotate | drain =>
    refine .respects trivial (Program.Only.mono (fun c neutral => ?_)
      (neutral_handler profile fun _ _ => by simp)) fun _ => trivial
    exact accepts_nothing (creates_of_neutral neutral)

/-! ## The worker -/

def Command.signs : Command → Bool
  | .sign _ _ => true
  | _ => false

theorem signs_nothing (other : c.signs = false) :
    Respects (halting condition World.SignsNothing) c := by
  refine halting_respects fun choice response world world' _ executed => ?_
  cases execute_effect executed with
  | signed => cases other
  | _ => rfl

theorem retryLater_signs_nothing {progress : Progress} :
    Follows (halting condition World.SignsNothing) (retryLater progress) (fun _ _ => True) 0 := by
  refine halting_call (signs_nothing rfl) fun awake => ?_
  split <;> exact .done trivial

theorem advance_signs_nothing (other : condition ≠ .errorRate) (requestID : GoString)
    (request : Request) (progress : Progress) :
    Follows (halting condition World.SignsNothing) (advance profile requestID request progress)
      (fun _ _ => True) 0 := by
  refine .bind ((reads_inForce (c := .isPaused) (fun _ _ => rfl) .refl).mono ?_)
  rintro paused owned ⟨world, inForce, rfl⟩
  refine Follows.unneeded ?_ trivial
  split
  · exact retryLater_signs_nothing
  · next running =>
      refine .bind ((reads_inForce (c := .evaluate 0) (fun _ _ => rfl) .refl).mono ?_)
      rintro state owned ⟨world', inForce', rfl⟩
      refine Follows.unneeded ?_ trivial
      split
      · exact retryLater_signs_nothing
      · next closed =>
          cases condition with
          | paused => exact absurd inForce running
          | errorRate => exact absurd rfl other
          | rpcDown => exact absurd (.inl inForce') closed
          | balanceFloor => exact absurd (.inr inForce') closed

theorem processOnce_signs_nothing (other : condition ≠ .errorRate) (requestID : GoString)
    (progress : Progress) :
    Follows (halting condition World.SignsNothing) (processOnce profile requestID progress)
      (fun _ _ => True) 0 := by
  refine halting_call (signs_nothing rfl) fun stopping => ?_
  split
  · exact .done trivial
  · refine halting_call (signs_nothing rfl) fun found => ?_
    cases found with
    | none => exact .done trivial
    | some request =>
      dsimp only
      split
      · exact .done trivial
      · exact .done trivial
      · exact .done trivial
      · exact advance_signs_nothing other requestID request progress
      · exact advance_signs_nothing other requestID request progress

theorem workerTurn_signs_nothing (profile : Profile) (other : condition ≠ .errorRate)
    (state : WorkerState) :
    Follows (halting condition World.SignsNothing) (workerTurn profile state) (fun _ _ => True)
      0 := by
  cases state with
  | waiting =>
    refine halting_call (signs_nothing rfl) fun taken => ?_
    cases taken <;> exact .done trivial
  | processing requestID progress =>
    refine .bind ((processOnce_signs_nothing other requestID progress).mono ?_)
    intro again owned _
    cases again <;> exact .done trivial
  | stopped => exact .done trivial

/-! ## Runs -/

/-- The worker follows the protocol. -/
def Stage.WorkerFollows (condition : Condition) : Stage → Prop
  | .serving threads =>
    ∃ owned, Follows (halting condition World.SignsNothing) threads.worker (fun _ _ => True) owned
  | .down | .starting _ => True

/-- The handlers from an index on follow the protocol. -/
def Stage.HandlersFollow (condition : Condition) (first : Nat) : Stage → Prop
  | .serving threads => ∀ index program, first ≤ index → threads.handlers[index]? = some program →
      ∃ owned, Follows (halting condition World.AcceptsNothing) program (fun _ _ => True) owned
  | .down | .starting _ => True

section Runs

variable {system system' : System} {label : Label} {choice : Choice}

theorem Stage.WorkerFollows.step (other : condition ≠ .errorRate)
    (follows : system.stage.WorkerFollows condition) (inForce : condition.InForce system.world)
    (taken : system.step profile label = some system') :
    system'.stage.WorkerFollows condition := by
  cases System.step_takes taken with
  | start booted =>
    obtain ⟨store, -, -, rfl⟩ := boot_cases booted
    trivial
  | crash | main | abort => trivial
  | shutdown | probe | open_ | handler | chain => exact follows
  | ready => exact ⟨0, workerTurn_signs_nothing profile other .waiting⟩
  | worker stepped =>
    obtain ⟨owned, here⟩ := follows
    obtain ⟨⟨owned', -, there⟩, -⟩ := loop_step
      (fun state owned _ => (workerTurn_signs_nothing profile other state).unneeded trivial)
      here (halting_holds owned _) (fun _ _ => inForce) stepped
    exact ⟨owned', there⟩

theorem Stage.HandlersFollow.step {first : Nat}
    (follows : system.stage.HandlersFollow condition first)
    (inForce : condition.InForce system.world)
    (taken : system.step profile label = some system') :
    system'.stage.HandlersFollow condition first := by
  cases System.step_takes taken with
  | start booted =>
    obtain ⟨store, -, -, rfl⟩ := boot_cases booted
    trivial
  | crash | main | abort => trivial
  | shutdown | worker | probe | chain => exact follows
  | ready => exact fun index program _ found => absurd found (by simp)
  | @open_ world threads request =>
    intro index program late found
    obtain here | there := Nat.lt_or_ge index threads.handlers.length
    · exact follows index program late (List.getElem?_append_left here ▸ found)
    · have new : program = request.handler profile := by
        rw [List.getElem?_append_right there] at found
        exact List.mem_singleton.mp (List.mem_of_getElem? found)
      exact ⟨0, new ▸ handler_accepts_nothing profile request⟩
  | @handler world world' threads changed old new choice found stepped =>
    intro index program late here
    by_cases same : changed = index
    · subst same
      obtain ⟨owned, follows'⟩ := follows changed old late found
      obtain ⟨⟨owned', -, there⟩, -⟩ :=
        thread_step follows' (halting_holds owned _) (fun _ _ => inForce) stepped
      have new' : program = new := by
        rw [List.getElem?_set_self (List.getElem?_eq_some_iff.mp found).1] at here
        exact (Option.some.inj here).symm
      exact ⟨owned', new' ▸ there⟩
    · rw [List.getElem?_set_ne same] at here
      exact follows index program late here

end Runs

/-- While the condition stays in force, no handler call that begins accepts a request. -/
def HandlersStop (profile : Profile) (condition : Condition) : Prop :=
  ∀ system labels system' index choice next threads,
    system.stage = .serving threads → threads.handlers.length ≤ index →
    Transition.Run (System.step profile) (fun system _ => condition.InForce system.world) labels
      system system' →
    condition.InForce system'.world → system'.step profile (.handler index choice) = some next →
    system'.world.AcceptsNothing next.world

/-- While the condition stays in force, no iteration of the worker that begins signs a
transaction; the run starts between two iterations. -/
def WorkerStops (profile : Profile) (condition : Condition) : Prop :=
  ∀ system labels system' choice next threads,
    system.stage = .serving threads → threads.worker.next? = none →
    Transition.Run (System.step profile) (fun system _ => condition.InForce system.world) labels
      system system' →
    condition.InForce system'.world → system'.step profile (.worker choice) = some next →
    system'.world.SignsNothing next.world

/-- Pauses and breakers stop the handlers; the worker does not look at the error rate. -/
theorem funding_stopped (profile : Profile) (condition : Condition) :
    HandlersStop profile condition ∧ (condition ≠ .errorRate → WorkerStops profile condition) := by
  constructor
  · intro system labels system' index choice next threads serving late run inForce taken
    have starts : system.stage.HandlersFollow condition threads.handlers.length := by
      rw [serving]
      exact fun index program late found => absurd (List.getElem?_eq_some_iff.mp found).1
        (Nat.not_lt.mpr late)
    have follows : system'.stage.HandlersFollow condition threads.handlers.length :=
      run.invariant
        (I := fun system => system.stage.HandlersFollow condition threads.handlers.length) starts
        fun follows inForce stepped => Stage.HandlersFollow.step follows inForce stepped
    cases System.step_takes taken with
    | handler found stepped =>
      obtain ⟨owned, here⟩ := follows index _ late found
      obtain ⟨⟨c, response, -, -, granted⟩, -⟩ :=
        here.step (halting_holds owned _) (fun _ _ => inForce) stepped
      exact granted
  · intro other system labels system' choice next threads serving between run inForce taken
    have starts : system.stage.WorkerFollows condition := by
      obtain ⟨worker, probe, handlers⟩ := threads
      rw [serving]
      cases worker with
      | done state => exact ⟨0, .done trivial⟩
      | call => cases between
    have follows : system'.stage.WorkerFollows condition :=
      run.invariant (I := fun system => system.stage.WorkerFollows condition) starts
        fun follows inForce stepped => Stage.WorkerFollows.step other follows inForce stepped
    cases System.step_takes taken with
    | worker stepped =>
      obtain ⟨owned, here⟩ := follows
      obtain ⟨state, -, -, rfl⟩ | stepped := stepLoop_cases stepped
      · exact .refl _
      · obtain ⟨⟨c, response, -, -, granted⟩, -⟩ :=
          here.step (halting_holds owned _) (fun _ _ => inForce) stepped
        exact granted

end Halting

namespace Demo

/-- One failed transaction opens the error-rate breaker. -/
def strict : Profile := { profile with errorRateWindow := 1, errorRateTripCount := 1 }

def strictSystem : System :=
  { world := { store := { journal := openJournal [], profile := strict }, signer := 32 } }

/-- A second request is accepted. The first one fails since the node is on another chain,
and the worker takes the second one from the queue. -/
def failingOnce : List Label :=
  accepting ++ .open_ (.fund (text "key-0002") 18) :: List.map (.handler 1)
    [.clock noon, .ok, .ok, .ok, .identifier (text "req-2"), .ok, .ok] ++
    worker [.ok, .ok] ++ goingRound ++ worker [.ok, .ok, .ok, .answer 1, .ok, .clock noon, .ok] ++
    worker [.ok, .ok]

/-- The second request is funded, up to the signature. -/
def fundingNext : List Label :=
  worker [.ok] ++ goingRound ++
    worker [.ok, .ok, .ok, .answer 7777, .ok, .answer 0, .answer 7, .answer 1]

/-- A request waits for the worker while the service is paused. -/
def pausing : List Label :=
  accepting ++ .open_ (.pause []) :: List.map (.handler 1) [.clock noon, .ok] ++ worker [.ok]

/-- A run that is executed, up to an iteration of the worker and on while the condition is in
force. -/
theorem run_inForce [EthText] [Digest] {profile : Profile} {condition : Condition}
    {first later : List Label} {start : System} {choice : Choice} {holds : System → System → Bool}
    (executed : (Transition.execute (System.step profile) first start).any fun system =>
      system.stage.between &&
        (Transition.execute (Transition.restrict (System.step profile)
          fun system _ => condition.InForce system.world) later system).any fun system' =>
            decide (condition.InForce system'.world) &&
              (system'.step profile (.worker choice)).any (holds system')) :
    ∃ system threads system' next,
      Transition.Run (System.step profile) Transition.Free first start system ∧
      system.stage = .serving threads ∧ threads.worker.next? = none ∧
      Transition.Run (System.step profile) (fun system _ => condition.InForce system.world) later
        system system' ∧
      condition.InForce system'.world ∧ system'.step profile (.worker choice) = some next ∧
      holds system' next := by
  obtain ⟨system, run, rest⟩ := Transition.run_of_execute_any executed
  obtain ⟨between, rest⟩ := Bool.and_eq_true_iff.mp rest
  obtain ⟨system', run', rest⟩ := Transition.run_of_execute_any rest
  obtain ⟨inForce, rest⟩ := Bool.and_eq_true_iff.mp rest
  obtain ⟨next, stepped, holds⟩ := (Option.any_eq_true _ _).mp rest
  obtain ⟨threads, serving, idle⟩ := Stage.between_iff.mp between
  exact ⟨system, threads, system', next, run, serving, idle, run'.of_restrict,
    of_decide_eq_true inForce, stepped, holds⟩

end Demo

theorem worker_ignores_errorRate :
    Demo.strictSystem.Initial Demo.strict ∧ ∃ system threads system' next,
      @Transition.Run _ _ (@System.step lowerHex Digest.numbered Demo.strict) Transition.Free
        Demo.failingOnce Demo.strictSystem system ∧
      system.stage = .serving threads ∧ threads.worker.next? = none ∧
      @Transition.Run _ _ (@System.step lowerHex Digest.numbered Demo.strict)
        (fun system _ => Condition.errorRate.InForce system.world) Demo.fundingNext system system' ∧
      Condition.errorRate.InForce system'.world ∧
      @System.step lowerHex Digest.numbered Demo.strict system' (.worker (.hash 1)) = some next ∧
      ¬ system'.world.SignsNothing next.world := by
  refine ⟨⟨32, _, _, rfl⟩, ?_⟩
  obtain ⟨system, threads, system', next, run, serving, idle, run', inForce, stepped, signs⟩ :=
    @Demo.run_inForce lowerHex Digest.numbered Demo.strict .errorRate Demo.failingOnce
      Demo.fundingNext Demo.strictSystem (.hash 1)
      (fun system next => ¬ system.world.SignsNothing next.world) (by decide +kernel)
  exact ⟨system, threads, system', next, run, serving, idle, run', inForce, stepped,
    of_decide_eq_true signs⟩

theorem funding_stopped_demo :
    ∃ system system' next,
      @Transition.Run _ _ (@System.step lowerHex Digest.numbered Demo.profile) Transition.Free
        Demo.pausing Demo.system system ∧
      @Transition.Run _ _ (@System.step lowerHex Digest.numbered Demo.profile)
        (fun system _ => Condition.paused.InForce system.world) (Demo.worker [.ok, .ok, .ok])
        system system' ∧
      @System.step lowerHex Digest.numbered Demo.profile system' (.worker .ok) = some next ∧
      system'.world.SignsNothing next.world := by
  obtain ⟨system, threads, system', next, run, serving, idle, run', inForce, stepped, -⟩ :=
    @Demo.run_inForce lowerHex Digest.numbered Demo.profile .paused Demo.pausing
      (Demo.worker [.ok, .ok, .ok]) Demo.system .ok (fun _ _ => true) (by decide +kernel)
  refine ⟨system, system', next, run, run', stepped, ?_⟩
  exact (@funding_stopped lowerHex Digest.numbered Demo.profile .paused).2 (by decide) system _
    system' .ok next threads serving idle run' inForce stepped

end Torium.Faucet
