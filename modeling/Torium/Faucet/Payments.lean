import Torium.Faucet.Funding
import Torium.Faucet.Restart
import Torium.Faucet.Steps

/-!
# A request is paid at most once

In a run whose steps are all careful, at most one successful transaction that was sent
for a request lands. Without care a request can be paid twice. The runs at the end of
this file do it with a transaction that lands between the two reads of `settleSubmission`,
and with one that lands after its replacement was recorded.
-/

namespace Torium.Faucet

open Evm Concurrent

section Careful

variable [EthText]

/-- The next command of the worker is permitted. -/
def Stage.Careful (world : World) : Stage → Prop
  | .serving { worker := .call c _, .. } => Faucet.Careful c world
  | _ => True

/-- The worker reads the nonce of a submission, or signs its replacement, only while that
is permitted. -/
def System.Careful (system : System) : Label → Prop
  | .worker _ => system.stage.Careful system.world
  | _ => True

theorem System.Careful.next {system : System} {label : Label} {c : Command}
    (careful : system.Careful label) (works : label.role = .worker)
    (issued : system.stage.next? label = some c) : Faucet.Careful c system.world := by
  obtain ⟨world, stage⟩ := system
  cases label with
  | worker choice =>
    cases stage with
    | down | starting => cases issued
    | serving threads =>
      obtain ⟨worker, probe, handlers⟩ := threads
      cases worker <;> cases issued
      exact careful
  | _ => cases works

instance (world : World) : DecidablePred (Stage.Careful world)
  | .down => .isTrue trivial
  | .starting _ => .isTrue trivial
  | .serving { worker := .done _, .. } => .isTrue trivial
  | .serving { worker := .call c _, .. } => inferInstanceAs (Decidable (Faucet.Careful c world))

instance (system : System) : DecidablePred system.Careful
  | .worker _ => inferInstanceAs (Decidable (Stage.Careful _ _))
  | .start _ => .isTrue trivial
  | .crash => .isTrue trivial
  | .shutdown => .isTrue trivial
  | .main _ => .isTrue trivial
  | .probe _ => .isTrue trivial
  | .open_ _ => .isTrue trivial
  | .handler _ _ => .isTrue trivial
  | .chain _ => .isTrue trivial

end Careful

section Sound

variable [EthText] [Digest] (profile : Profile)

/-- The accounts are right, the worker keeps to its discipline, and the other threads are quiet. -/
structure System.Sound (system : System) : Prop where
  accounted : system.world.Accounted profile
  stage : system.stage.Supervised (discipline profile) (Quiet (discipline profile)) system.world

variable {profile} {world : World} {system system' : System}

theorem System.Initial.sound (initial : system.Initial profile) : system.Sound profile := by
  obtain ⟨signer, nonces, height, rfl⟩ := initial
  have faithful : Store.Faithful profile { journal := openJournal [], profile } :=
    Store.Faithful.opened (show newStore (openJournal []) [] profile = .ok _ from rfl)
  exact ⟨⟨nofun, faithful, ⟨nofun, .nil⟩, nofun⟩, trivial⟩

omit [Digest] in
/-- A new process finds the accounts that the last one left. -/
theorem boot_accounted {key : Address} (accounted : world.Accounted profile)
    (taken : boot profile world key = some system) : system.world.Accounted profile := by
  obtain ⟨store, opened, -, rfl⟩ := boot_cases taken
  have core : store.core = world.store.core := accounted.faithful.reopened opened
  have requests : store.requests = world.store.requests := Store.requests_of_core core
  refine ⟨?_, .opened opened, accounted.chain, ?_⟩
  · intro id request known
    exact accounted.keyed id request ((congrFun requests id).symm.trans known)
  · intro requestID transaction sent
    obtain ⟨request, known, rest⟩ := accounted.covered requestID transaction sent
    exact ⟨request, (congrFun requests requestID).trans known, rest⟩

theorem supervises_accounted [EthText.Lawful] :
    Supervises (discipline profile) (Quiet (discipline profile)) profile where
  worker := drivable_accounted.workerTurn
  inert := drivable_accounted.inert
  startup := IsQuiet.only discreet_reconcile.plain.quiet
  handler request := IsQuiet.only (quiet_handler profile request)
  stops {world} accounted := by
    have untouched : world.Untouched { world with stopping := true } := ⟨rfl, rfl, rfl, rfl⟩
    exact ⟨untouched.accounted accounted, untouched.harmless⟩
  chain {world _ chain} taken accounted := by
    have harmless : world.Harmless { world with chain } :=
      ⟨.of_eq rfl, rfl, fun transaction dead => dead.step taken⟩
    exact ⟨accounted.harmless harmless accounted.keyed accounted.faithful
      (accounted.chain.step taken), harmless⟩

/-- Every careful step keeps the system sound. -/
theorem System.Sound.step [EthText.Lawful] {label : Label} (sound : system.Sound profile)
    (careful : system.Careful label) (taken : system.step profile label = some system') :
    system'.Sound profile := by
  obtain ⟨accounted, stage⟩ := supervises_accounted.step sound.accounted sound.stage
    (fun _ => boot_accounted sound.accounted)
    (fun c works issued => ⟨careful.next works issued, rfl⟩)
    (fun c response _ _ quiet executed => quiet sound.accounted executed) taken
  exact ⟨accounted, stage⟩

/-- In every run whose steps are careful, at most one successful transaction that was sent
for a request has landed in every state that is reached. -/
theorem funded_at_most_once [EthText.Lawful] {start system : System} {labels : List Label}
    (initial : start.Initial profile)
    (run : Transition.Run (System.step profile) System.Careful labels start system)
    (requestID : GoString) : (system.world.payments requestID).length ≤ 1 := by
  have sound : system.Sound profile := run.invariant initial.sound
    fun sound careful taken => System.Sound.step sound careful taken
  exact sound.accounted.payments_le_one requestID

end Sound

namespace Demo

def system : System := { world := { store := start, signer := 32 } }

/-- The queue has room for one request. -/
def narrow : Profile := { profile with queueCapacity := 1 }

def narrowSystem : System :=
  { world := { store := { journal := openJournal [], profile := narrow }, signer := 32 } }

def worker : List Choice → List Label := List.map .worker

/-- The service starts and accepts one request. -/
def accepting : List Label :=
  [.start 32, .main .ok, .main .ok, .open_ (.fund (text "key-0001") 17)] ++
    List.map (.handler 0)
      [.clock noon, .ok, .ok, .ok, .identifier (text "req-1"), .ok, .ok]

/-- The worker finds that it is neither cancelled nor paused and that no breaker is open. -/
def goingRound : List Label := worker [.ok, .ok, .ok, .ok]

/-- The worker signs a funding transaction and records it. -/
def funding (nonce : Int) (hash : Bytes32) : List Label :=
  worker [.ok, .ok, .ok, .answer 7777, .ok, .answer nonce, .answer 7, .answer 1, .hash hash,
    .clock noon, .ok]

/-- The request is funded with nonce 0. The node takes the transaction, and the worker
sees a timeout, sleeps and goes round again. -/
def sentWithTimeout : List Label :=
  accepting ++ worker [.ok, .ok] ++ goingRound ++ funding 0 1 ++
    worker [.failAfter { message := text "i/o timeout" }, .ok, .ok] ++ goingRound

/-- The transaction lands after its receipt was looked for and before the nonce of its
signer is read. The worker takes it for gone and funds the request with nonce 1. -/
def payingTwice : List Label :=
  sentWithTimeout ++ [.worker .ok, .chain (.land 0 true 1), .worker .ok] ++ funding 1 2 ++
    [.worker .ok, .chain (.land 1 true 2)]

/-- No receipt is found for a minute and the transaction is replaced. -/
def replaced : List Label :=
  sentWithTimeout ++ worker [.ok, .ok, .clock noon, .ok, .ok] ++ goingRound ++
    worker [.ok, .ok, .clock (noon + 60 * second), .answer 7777, .ok, .answer 7, .answer 1,
      .hash 2, .clock noon, .ok, .ok, .ok, .ok] ++ goingRound

/-- The transaction that was replaced lands. The worker only looks for the receipt of the
replacement, takes it for gone and funds the request with nonce 1. -/
def payingForReplaced : List Label :=
  replaced ++ [.chain (.land 0 true 1)] ++ worker [.ok, .ok] ++ funding 1 3 ++
    [.worker .ok, .chain (.land 2 true 2)]

/-- The replacement lands before its receipt is looked for. -/
def payingOnce : List Label :=
  replaced ++ [.chain (.land 1 true 1)] ++ worker [.ok, .clock noon, .ok, .ok]

end Demo

theorem request_paid_twice :
    Demo.system.Initial Demo.profile ∧
      ∀ labels ∈ [Demo.payingTwice, Demo.payingForReplaced], ∃ system,
        @Transition.Run _ _ (@System.step lowerHex Digest.numbered Demo.profile) Transition.Free
          labels Demo.system system ∧
        (system.world.payments (text "req-1")).length = 2 := by
  have evaluated : ∀ labels ∈ [Demo.payingTwice, Demo.payingForReplaced],
      (Transition.execute (@System.step lowerHex Digest.numbered Demo.profile)
        labels Demo.system).any
          (fun system => (system.world.payments (text "req-1")).length = 2) := by
    decide +kernel
  refine ⟨⟨32, _, _, rfl⟩, fun labels listed => ?_⟩
  obtain ⟨system, run, paid⟩ := Transition.run_of_execute_any (evaluated labels listed)
  exact ⟨system, run, of_decide_eq_true paid⟩

theorem funded_at_most_once_demo :
    ∃ system, @Transition.Run _ _ (@System.step lowerHex Digest.numbered Demo.profile)
        (@System.Careful lowerHex) Demo.payingOnce Demo.system system ∧
      (system.world.payments (text "req-1")).length = 1 ∧
      ∀ requestID, (system.world.payments requestID).length ≤ 1 := by
  obtain ⟨system, run, paid⟩ := Transition.run_of_execute_any
    (show (Transition.execute
      (@Transition.restrict _ _ (@System.step lowerHex Digest.numbered Demo.profile)
        (@System.Careful lowerHex) fun _ _ => inferInstance)
      Demo.payingOnce Demo.system).any
        (fun system => (system.world.payments (text "req-1")).length = 1) by decide +kernel)
  have careful := run.of_restrict
  refine ⟨system, careful, of_decide_eq_true paid, fun requestID => ?_⟩
  exact @funded_at_most_once lowerHex Digest.numbered _ lowerHex_lawful _ _ _ ⟨32, _, _, rfl⟩
    careful requestID

end Torium.Faucet
