import Torium.Faucet.Verdicts

/-!
# No paid request is reported as failed

In a run whose steps are all prudent, a request has failed only when nothing that was sent
for it has succeeded or ever will. Without prudence a request that is in flight can fail:
when a restart finds no room for it in the queue, or when the node answers a broadcast with
a text that marks errors before a submission. The runs at the end of this file do both.
-/

namespace Torium.Faucet

open Evm Concurrent

/-! ## Threads -/

/-- A command of a thread other than the worker. -/
def Command.Modest (c : Command) : Prop := c.quiet = true ∧ c.replaced? = none

theorem Command.modest_of_plain {c : Command} (plain : c.plain = true) : c.Modest := by
  obtain ⟨quiet, silent⟩ := Bool.and_eq_true_iff.mp plain
  refine ⟨quiet, ?_⟩
  cases c with
  | sign purpose => cases purpose <;> first | rfl | cases silent
  | _ => rfl

theorem Command.modest_of_neutral {c : Command} (neutral : c.neutral = true) : c.Modest := by
  refine ⟨quiet_of_neutral neutral, ?_⟩
  cases c with
  | sign purpose => cases purpose <;> first | rfl | cases neutral
  | _ => rfl

/-- A handler lets only requests fail that are still queued. -/
theorem Rightful.queued {world : World} {c : Command} {id : GoString}
    (rightful : Rightful .handler world c) (fails : c.fails? = some id) :
    world.store.Queued id := by
  cases c with
  | perform operation =>
    cases operation with
    | recordFailed =>
      cases fails
      exact (rightful id rfl).2 rfl
    | _ => cases fails
  | _ => cases fails

theorem modest_handler [EthText] (profile : Profile) (request : ClientRequest) :
    (request.handler profile).Only Command.Modest := by
  cases request with
  | fund idempotencyKey recipient =>
    exact Program.Only.mono (fun _ => Command.modest_of_plain)
      (discreet_handleFund idempotencyKey recipient).plain
  | pause | resume | rotate | drain =>
    exact Program.Only.mono (fun _ => Command.modest_of_neutral)
      (neutral_handler profile fun _ _ => by simp)

/-! ## Prudent steps -/

section Prudent

variable [EthText]

/-- The worker is careful and sees no error that looks terminal after a submission was sent, and
the start-up lets only requests fail that are still queued. -/
structure System.Prudent (system : System) (label : Label) : Prop where
  careful : system.Careful label
  clear : ∀ c ∈ system.stage.next? label, label.role = .worker → c.Clear label.choice
  room : ∀ c ∈ system.stage.next? label, label.role = .main →
    ∀ id ∈ c.fails?, system.world.store.Queued id

instance (system : System) : DecidablePred system.Prudent := fun label =>
  decidable_of_iff (system.Careful label ∧
      (∀ c ∈ system.stage.next? label, label.role = .worker → c.Clear label.choice) ∧
      ∀ c ∈ system.stage.next? label, label.role = .main →
        ∀ id ∈ c.fails?, system.world.store.Queued id)
    ⟨fun ⟨careful, clear, room⟩ => ⟨careful, clear, room⟩,
      fun prudent => ⟨prudent.careful, prudent.clear, prudent.room⟩⟩

end Prudent

/-! ## Steps -/

section Candid

variable [EthText] [Digest] (profile : Profile)

/-- What holds between all steps of a prudent run. -/
structure System.Candid (system : System) : Prop where
  sound : system.Sound profile
  owned : system.Owned profile
  signed : system.Follows (.uniform attribution) (WorkerState.hands 0 fun _ => 0)
  honest : system.world.Honest
  stage : system.stage.Supervised (verdicts profile) Command.Modest system.world

variable {profile} {world world' : World} {system system' : System} {label : Label}

theorem System.Candid.signatures (candid : system.Candid profile) : system.world.Signatures :=
  ((conduct_attribution profile).dropped candid.signed).2.1

theorem System.Candid.start (initial : system.Initial profile) : system.Candid profile := by
  refine ⟨initial.sound, .start initial, ?_, ?_, ?_⟩
  all_goals obtain ⟨signer, nonces, height, rfl⟩ := initial
  · exact ⟨fun _ member => absurd member (Multiset.notMem_zero _), ⟨nofun, nofun, nofun⟩, nofun⟩
  · exact ⟨nofun, nofun⟩
  · trivial

variable [EthText.Lawful]

/-- Only the worker signs replacements, and its signatures are careful. -/
theorem System.Candid.recorded (candid : system.Candid profile) (careful : system.Careful label) :
    system.SignsAsRecorded label := by
  have modest {world : World} {c : Command} (modest : c.Modest) : c.SignsAsRecorded world := by
    rw [Command.SignsAsRecorded, modest.2]
    exact nofun
  obtain ⟨world, stage⟩ := system
  intro c next
  cases stage with
  | down => cases label <;> cases next
  | starting program =>
    cases label with
    | main => exact modest (Program.Only.next candid.stage next)
    | _ => cases next
  | serving threads =>
    obtain ⟨-, inert, handlers⟩ := candid.stage
    cases label with
    | worker choice =>
      obtain ⟨_ | ⟨_, rest⟩, probe, handlers⟩ := threads <;> cases next
      rintro request replaced
      cases c with
      | sign purpose unsigned =>
        cases purpose <;> cases replaced
        have same : request.signerAddress = addressHex world.signer := careful
        rw [same, EthText.Lawful.hexToAddress_addressHex]
      | _ => cases replaced
    | probe => exact modest (Command.modest_of_plain (Program.Only.next inert.plain next))
    | handler index choice =>
      obtain ⟨program, found, issued⟩ := Option.bind_eq_some_iff.mp next
      exact modest (Program.Only.next (handlers program (List.mem_of_getElem? found)) issued)
    | _ => cases next

omit [Digest] [EthText.Lawful] in
theorem boot_honest {key : Address} (faithful : world.store.Faithful profile)
    (honest : world.Honest) (booted : boot profile world key = some system) :
    system.world.Honest := by
  obtain ⟨store, opened, -, rfl⟩ := boot_cases booted
  have requests : store.requests = world.store.requests :=
    Store.requests_of_core (faithful.reopened opened)
  refine ⟨fun id request known => ?_, fun id request known => ?_⟩
  · exact honest.submitted id request ((congrFun requests id).symm.trans known)
  · exact honest.failed id request ((congrFun requests id).symm.trans known)

variable [EthText.Hexadecimal]

theorem supervises_honest : Supervises (verdicts profile) Command.Modest profile where
  worker := drivable_honest.workerTurn
  inert inert _ _ _ _ honest executed := by
    have neutral := Command.neutral_of_inert inert
    exact honest.quiet (Command.quiet_of_neutral neutral)
      (by simp [Command.fails_of_neutral neutral]) executed
  startup := Program.Only.mono (fun _ => Command.modest_of_plain) discreet_reconcile.plain
  handler := modest_handler profile
  stops honest := ⟨⟨honest.submitted, honest.failed⟩, ⟨.of_eq rfl, rfl, fun _ => id⟩,
    List.Subset.refl _⟩
  chain {world _ chain} taken honest := by
    have mild : world.Mild { world with chain } :=
      ⟨⟨.of_eq rfl, rfl, fun transaction dead => dead.step taken⟩, List.Subset.refl _⟩
    exact ⟨⟨honest.submitted, fun id request known status =>
      (honest.failed id request known status).harmless mild.harmless⟩, mild⟩

/-- Every prudent step keeps the reports honest. -/
theorem System.Candid.step (candid : system.Candid profile) (prudent : system.Prudent label)
    (taken : system.step profile label = some system') : system'.Candid profile := by
  obtain ⟨owned, rightful⟩ := candid.owned.step taken
  have recorded := candid.recorded prudent.careful
  have signed := ((conduct_attribution profile).step candid.signed
    (fun c next => by cases label <;> exact recorded c next) taken).1
  have sound := candid.sound.step prudent.careful taken
  have accounted := candid.sound.accounted
  suffices kept : system'.world.Honest ∧ _ from ⟨sound, owned, signed, kept.1, kept.2⟩
  refine supervises_honest.step candid.honest candid.stage
    (fun _ => boot_honest accounted.faithful candid.honest) (fun c works issued => ?_)
    (fun c response role issued modest executed => ?_) taken
  · have grant := rightful c issued
    rw [works] at grant
    exact ⟨⟨prudent.careful.next works issued, accounted, candid.signatures, grant⟩,
      if_pos (prudent.clear c issued works)⟩
  · refine candid.honest.quiet modest.1 (fun id fails => accounted.unsent ?_) executed
    obtain main | handler := role
    · exact prudent.room c issued main id fails
    · have grant := rightful c issued
      rw [handler] at grant
      exact grant.queued fails

/-- In every run whose steps are prudent, in every state that is reached, a transaction that was
sent for a request that has failed has not succeeded and never will. -/
theorem failed_never_paid {start : System} {labels : List Label} (initial : start.Initial profile)
    (run : Transition.Run (System.step profile) System.Prudent labels start system)
    {requestID : GoString} {request : Request} {transaction : Transaction}
    (known : system.world.store.requests requestID = some request)
    (failed : request.status = .failed) (sent : (requestID, transaction) ∈ system.world.sent)
    {steps : List ChainStep} {chain : Chain}
    (later : Transition.Run Chain.step Transition.Free steps system.world.chain chain) :
    ¬ chain.Succeeded transaction := by
  have candid : system.Candid profile := run.invariant (.start initial)
    fun candid prudent taken => System.Candid.step candid prudent taken
  have dead : system.world.chain.Dead transaction :=
    candid.honest.failed requestID request known failed transaction sent
  exact (later.invariant (I := fun chain : Chain => chain.Dead transaction) dead
    fun dead _ taken => dead.step taken).2

end Candid

namespace Demo

/-- The node takes the transaction, and a proxy answers with an error of its own. -/
def failedByText : List Label :=
  accepting ++ worker [.ok, .ok] ++ goingRound ++ funding 0 1 ++
    worker [.failAfter { message := text "upstream terminal: connection reset" }, .ok, .clock noon,
      .ok] ++ [.chain (.land 0 true 1)]

/-- The request that was accepted first has the later time. It is in flight when the process
stops, and the next one finds it at the end of the pending requests. -/
def failedByRestart : List Label :=
  [.start 32, .main .ok, .main .ok, .open_ (.fund (text "key-0001") 17),
    .open_ (.fund (text "key-0002") 18), .handler 1 (.clock noon),
    .handler 0 (.clock (noon + second))] ++
    List.map (.handler 0) [.ok, .ok, .ok, .identifier (text "req-1"), .ok, .ok] ++
    worker [.ok, .ok] ++ goingRound ++ funding 0 1 ++ worker [.ok] ++
    List.map (.handler 1) [.ok, .ok, .ok, .identifier (text "req-2"), .ok, .ok] ++
    [.crash, .start 32, .main .ok, .main .ok, .main .ok, .main (.clock noon), .main .ok,
      .chain (.land 0 true 1)]

/-- The transaction lands without success, and the worker sees its receipt. -/
def failedByRevert : List Label :=
  sentWithTimeout ++ [.chain (.land 0 false 1)] ++ worker [.ok, .ok, .clock noon, .ok]

/-- The request has failed. -/
def failed (system : System) : Bool :=
  (system.world.store.requests (text "req-1")).any fun request => request.status = .failed

/-- The steps make a request fail whose transaction has paid. -/
def FailsPaid (profile : Profile) (start : System) (labels : List Label) : Prop :=
  ∃ system,
    @Transition.Run _ _ (@System.step lowerHex Digest.numbered profile) Transition.Free labels start
      system ∧
    failed system = true ∧ (system.world.payments (text "req-1")).length = 1

end Demo

theorem paid_request_failed :
    Demo.system.Initial Demo.profile ∧
      Demo.FailsPaid Demo.profile Demo.system Demo.failedByText ∧
      Demo.narrowSystem.Initial Demo.narrow ∧
      Demo.FailsPaid Demo.narrow Demo.narrowSystem Demo.failedByRestart := by
  have fails {profile start labels}
      (evaluated : (Transition.execute (@System.step lowerHex Digest.numbered profile) labels
        start).any (fun system => Demo.failed system = true ∧
          (system.world.payments (text "req-1")).length = 1)) :
      Demo.FailsPaid profile start labels := by
    obtain ⟨system, run, paid⟩ := Transition.run_of_execute_any evaluated
    exact ⟨system, run, of_decide_eq_true paid⟩
  exact ⟨⟨32, _, _, rfl⟩, fails (by decide +kernel), ⟨32, _, _, rfl⟩, fails (by decide +kernel)⟩

theorem failed_never_paid_demo :
    ∃ system request transaction,
      @Transition.Run _ _ (@System.step lowerHex Digest.numbered Demo.profile)
        (@System.Prudent lowerHex) Demo.failedByRevert Demo.system system ∧
      system.world.store.requests (text "req-1") = some request ∧ request.status = .failed ∧
      (text "req-1", transaction) ∈ system.world.sent ∧
      ¬ system.world.chain.Succeeded transaction := by
  obtain ⟨system, run, failed⟩ := Transition.run_of_execute_any
    (show (Transition.execute
      (@Transition.restrict _ _ (@System.step lowerHex Digest.numbered Demo.profile)
        (@System.Prudent lowerHex) fun _ _ => inferInstance)
      Demo.failedByRevert Demo.system).any (fun system => Demo.failed system = true ∧
        (system.world.sent.map Prod.fst) = [text "req-1"]) by decide +kernel)
  obtain ⟨failed, listed⟩ := of_decide_eq_true failed
  obtain ⟨request, known, status⟩ := (Option.any_eq_true _ _).mp failed
  obtain ⟨⟨_, transaction⟩, sent, rfl⟩ :=
    List.mem_map.mp (listed ▸ List.mem_singleton_self (text "req-1"))
  have status := of_decide_eq_true status
  refine ⟨system, request, transaction, run.of_restrict, known, status, sent, ?_⟩
  exact @failed_never_paid lowerHex Digest.numbered _ _ lowerHex_lawful lowerHex_hexadecimal _ _
    ⟨32, _, _, rfl⟩ run.of_restrict _ _ _ known status sent _ _ (.refl _)

end Torium.Faucet
