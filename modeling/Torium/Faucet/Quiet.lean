import Torium.Faucet.Service

/-!
# Which commands a program issues

A command is neutral when it does nothing for a request: it does not sign or send for
one, nor change its record or its place in the queue. The probe and all handlers but the
one that accepts requests are neutral. A command is quiet when it neither records a
submission nor sends a transaction for a request. The handlers, the probe and the
start-up consist of quiet commands; of the programs of the worker, only the ones that
fund a request do not. Drains are sent for no request; inert and plain commands are the
neutral and the quiet ones that send nothing at all and sign nothing for a request.
-/

namespace Torium.Faucet

open Evm Concurrent Attempt

def Operation.neutral : Operation → Bool
  | .pause _ _ | .resume _ | .recordRotation _ _ _ | .recordRefill _ _ _ => true
  | .accept _ _ _ _ | .recordDenied _ _ _ _ | .recordSubmitted _ _ _ _ _
  | .recordConfirmed _ _ _ _ | .recordFailed _ _ _ => false

def Command.neutral : Command → Bool
  | .sendTransaction purpose _ | .sign purpose _ => purpose.requestID?.isNone
  | .perform operation => operation.neutral
  | .tryEnqueue _ | .dequeue => false
  | _ => true

def Command.quiet : Command → Bool
  | .sendTransaction purpose _ => purpose.requestID?.isNone
  | .perform operation => !operation.isSubmission
  | _ => true

def Command.sends : Command → Bool
  | .sendTransaction _ _ => true
  | _ => false

def Command.signsFor : Command → Bool
  | .sign purpose _ => purpose.requestID?.isSome
  | _ => false

def Command.inert (c : Command) : Bool := c.neutral && !c.sends

def Command.plain (c : Command) : Bool := c.quiet && !(c.sends || c.signsFor)

/-- The command leaves the keys and their fences alone. -/
def Command.keyless : Command → Bool
  | .rotate _ | .perform (.recordRotation _ _ _) => false
  | _ => true

theorem Command.quiet_of_neutral {c : Command} (neutral : c.neutral = true) : c.quiet = true := by
  cases c with
  | sendTransaction => exact neutral
  | perform operation => cases operation <;> first | rfl | cases neutral
  | _ => rfl

/-- All commands of the program are neutral. -/
abbrev IsNeutral {α : Type} (program : Program service α) : Prop :=
  program.Only fun c : Command => c.neutral = true

/-- All commands of the program are quiet. -/
abbrev IsQuiet {α : Type} (program : Program service α) : Prop :=
  program.Only fun c : Command => c.quiet = true

/-- All commands of the program are inert. -/
abbrev IsInert {α : Type} (program : Program service α) : Prop :=
  program.Only fun c : Command => c.inert = true

/-- All commands of the program are plain. -/
abbrev IsPlain {α : Type} (program : Program service α) : Prop :=
  program.Only fun c : Command => c.plain = true

/-- All commands of the program leave the keys alone. -/
abbrev IsKeyless {α : Type} (program : Program service α) : Prop :=
  program.Only fun c : Command => c.keyless = true

/-- All commands of the program are inert and leave the keys alone. -/
abbrev IsIdle {α : Type} (program : Program service α) : Prop :=
  program.Only fun c : Command => c.inert = true ∧ c.keyless = true

variable {α : Type} {program : Program service α}

theorem IsIdle.inert (idle : IsIdle program) : IsInert program :=
  Program.Only.mono (fun _ => And.left) idle

/-- All commands of the program are neutral and leave the keys alone. -/
abbrev IsUninvolved {α : Type} (program : Program service α) : Prop :=
  program.Only fun c : Command => c.neutral = true ∧ c.keyless = true

theorem IsUninvolved.neutral (uninvolved : IsUninvolved program) :
    IsNeutral program :=
  Program.Only.mono (fun _ => And.left) uninvolved

/-- All commands of the program are plain and leave the keys alone. -/
abbrev IsDiscreet {α : Type} (program : Program service α) : Prop :=
  program.Only fun c : Command => c.plain = true ∧ c.keyless = true

theorem IsDiscreet.plain (discreet : IsDiscreet program) :
    IsPlain program :=
  Program.Only.mono (fun _ => And.left) discreet

theorem IsNeutral.quiet (neutral : IsNeutral program) :
    IsQuiet program :=
  Program.Only.mono (fun _ => Command.quiet_of_neutral) neutral

theorem IsPlain.quiet (plain : IsPlain program) : IsQuiet program :=
  Program.Only.mono (fun _ here => (Bool.and_eq_true_iff.mp here).1) plain

theorem Command.neutral_of_inert {c : Command} (inert : c.inert = true) : c.neutral = true :=
  (Bool.and_eq_true_iff.mp inert).1

theorem IsIdle.uninvolved (idle : IsIdle program) :
    IsUninvolved program :=
  Program.Only.mono (fun _ here => ⟨Command.neutral_of_inert here.1, here.2⟩) idle

theorem IsInert.neutral (inert : IsInert program) :
    IsNeutral program :=
  Program.Only.mono (fun _ => Command.neutral_of_inert) inert

theorem IsInert.quiet (inert : IsInert program) : IsQuiet program :=
  inert.neutral.quiet

theorem Command.plain_of_inert {c : Command} (inert : c.inert = true) : c.plain = true := by
  obtain ⟨neutral, silent⟩ := Bool.and_eq_true_iff.mp inert
  refine Bool.and_eq_true_iff.mpr ⟨quiet_of_neutral neutral, ?_⟩
  cases c with
  | sign purpose => simpa [sends, signsFor, Command.neutral] using neutral
  | _ => exact silent

theorem IsInert.plain (inert : IsInert program) : IsPlain program :=
  Program.Only.mono (fun _ => Command.plain_of_inert) inert

section Only

variable {P : Command → Prop}

theorem only_call {c : Command} (here : P c) : (call c).Only P :=
  only_command (F := service) here

namespace Attempt

theorem only_ask {c : Command} (here : P c) : (ask c).run.Only P :=
  only_lift (only_call here)

theorem only_rpc {context : String} {program : Program service (Except GoError α)}
    (only : program.Only P) : (rpc context program).run.Only P := by
  refine Program.Only.bind only fun result => ?_
  cases result <;> trivial

theorem only_require {condition : Prop} [Decidable condition] {message : GoString} :
    (require condition message).run.Only P := by
  unfold require
  split_ifs <;> trivial

theorem only_must {value : Option α} {message : GoString} : (must value message).run.Only P := by
  cases value <;> trivial

theorem only_record {context : String} {operation : Time → Operation} (clock : P .now)
    (performs : ∀ time, P (.perform (operation time))) :
    (record context operation).run.Only P := by
  apply only_bind (only_ask clock)
  intro now
  apply only_bind (only_ask (performs now))
  intro outcome
  cases outcome <;> trivial

theorem only_broadcast {purpose : Purpose} {transaction : Transaction} {context : GoError → String}
    (sends : P (.sendTransaction purpose transaction)) :
    (broadcast purpose transaction context).run.Only P := by
  apply only_bind (only_ask sends)
  intro answer
  cases answer <;> trivial

end Attempt

end Only

theorem idle_suggestedTip : IsIdle suggestedTip.run := by
  refine only_bind (only_ask ⟨rfl, rfl⟩) ?_
  intro answer
  cases answer with
  | error error => trivial
  | ok tip =>
    dsimp only
    split_ifs <;> trivial

theorem idle_retryLater {progress : Progress} : IsIdle (retryLater progress) := by
  refine .bind (only_call ⟨rfl, rfl⟩) ?_
  intro awake
  cases awake <;> trivial

theorem discreet_giveUp {requestID reason : GoString} : IsDiscreet (giveUp requestID reason) :=
  .bind (only_call ⟨rfl, rfl⟩) fun _ => .bind (only_call ⟨rfl, rfl⟩) fun _ =>
    .bind (only_call ⟨rfl, rfl⟩) fun _ => trivial

section Receipts

variable [EthText] {ofClient : Bool} {hash : Bytes32}

theorem idle_pollOnce : IsIdle (pollOnce hash).run := by
  refine only_bind (only_ask ⟨rfl, rfl⟩) ?_
  intro answer
  cases answer with
  | ok receipt => trivial
  | error error =>
    dsimp only
    split_ifs <;> trivial

theorem idle_waitExpired : IsIdle (waitExpired ofClient hash).run := by
  refine only_bind (only_ask ⟨rfl, rfl⟩) ?_
  intro cancelled
  split_ifs <;> trivial

theorem idle_pollReceipt (polls : Nat) : IsIdle (pollReceipt ofClient hash polls).run := by
  induction polls with
  | zero =>
    refine only_bind idle_pollOnce ?_
    intro receipt
    cases receipt with
    | some receipt => trivial
    | none => exact idle_waitExpired
  | succ polls ih =>
    refine only_bind idle_pollOnce ?_
    intro receipt
    cases receipt with
    | some receipt => trivial
    | none => exact ih

theorem idle_waitForReceipt : IsIdle (waitForReceipt ofClient hash).run :=
  only_bind (only_ask ⟨rfl, rfl⟩) idle_pollReceipt

/-- The check on a submission reads the chain, and writes nothing but that it is confirmed. -/
theorem only_settleSubmission {P : Command → Prop} (request : Request)
    (idle : ∀ c : Command, c.inert = true ∧ c.keyless = true → P c)
    (confirm : ∀ hash block now, P (.perform (.recordConfirmed request.id hash block now))) :
    (settleSubmission request).run.Only P := by
  refine only_bind (only_ask (idle _ ⟨rfl, rfl⟩)) fun answer => ?_
  cases answer with
  | ok receipt =>
    dsimp only
    split_ifs
    · exact only_bind (only_record (idle _ ⟨rfl, rfl⟩) fun _ => confirm ..) fun _ => trivial
    · trivial
  | error error =>
    dsimp only
    split_ifs
    · refine only_bind (only_rpc (only_call (idle _ ⟨rfl, rfl⟩))) fun confirmedNonce => ?_
      split_ifs <;> trivial
    · trivial

theorem plain_settleSubmission (request : Request) : IsPlain (settleSubmission request).run :=
  only_settleSubmission request (fun _ here => Command.plain_of_inert here.1) fun _ _ _ => rfl

end Receipts

/-! ## What the worker does for a request -/

/-- The command is neutral, or it signs or sends for the request or continues its record. -/
inductive Command.Serves (requestID : GoString) : Command → Prop where
  | neutral {c} : c.neutral = true → Serves requestID c
  | sign {purpose unsigned} : purpose.requestID? = some requestID →
      Serves requestID (.sign purpose unsigned)
  | send {purpose transaction} : purpose.requestID? = some requestID →
      Serves requestID (.sendTransaction purpose transaction)
  | submit {hash nonce signer at_} :
      Serves requestID (.perform (.recordSubmitted requestID hash nonce signer at_))
  | confirm {hash blockNumber at_} :
      Serves requestID (.perform (.recordConfirmed requestID hash blockNumber at_))

/-- All commands of the program serve the request and leave the keys alone. -/
abbrev IsServing {α : Type} (requestID : GoString) (program : Program service α) : Prop :=
  program.Only fun c : Command => c.Serves requestID ∧ c.keyless = true

theorem IsIdle.serves {requestID : GoString} (idle : IsIdle program) :
    IsServing requestID program :=
  Program.Only.mono (fun _ here => ⟨.neutral (Command.neutral_of_inert here.1), here.2⟩) idle

section Serves

variable [EthText] {profile : Profile} {requestID : GoString}

theorem serves_settleSubmission (request : Request) :
    IsServing request.id (settleSubmission request).run :=
  only_settleSubmission request
    (fun _ here => ⟨.neutral (Command.neutral_of_inert here.1), here.2⟩) fun _ _ _ =>
    ⟨.confirm, rfl⟩

theorem serves_replaceSubmission (request : Request) (bump : Int) :
    IsServing request.id (replaceSubmission profile request bump).run := by
  refine only_bind only_must fun amount => ?_
  refine only_bind (only_rpc (only_call ⟨.neutral rfl, rfl⟩)) fun chainID => ?_
  refine only_bind only_require fun _ => ?_
  refine only_bind (only_ask ⟨.neutral rfl, rfl⟩) fun signerAddress => ?_
  refine only_bind only_require fun _ => ?_
  refine only_bind (only_rpc (only_call ⟨.neutral rfl, rfl⟩)) fun baseFee => ?_
  refine only_bind idle_suggestedTip.serves fun tip => ?_
  refine only_bind (only_rpc (only_call ⟨.sign rfl, rfl⟩)) fun signed => ?_
  refine only_bind (only_record ⟨.neutral rfl, rfl⟩ fun _ => ⟨.submit, rfl⟩) fun _ => ?_
  exact only_broadcast ⟨.send rfl, rfl⟩

theorem serves_fundOnce : IsServing requestID (fundOnce profile requestID).run := by
  refine only_bind (only_ask ⟨.neutral rfl, rfl⟩) fun found => ?_
  refine only_bind only_must fun request => ?_
  refine only_bind only_must fun amount => ?_
  refine only_bind (only_rpc (only_call ⟨.neutral rfl, rfl⟩)) fun chainID => ?_
  refine only_bind only_require fun _ => ?_
  refine only_bind (only_ask ⟨.neutral rfl, rfl⟩) fun signerAddress => ?_
  refine only_bind (only_rpc (only_call ⟨.neutral rfl, rfl⟩)) fun nonce => ?_
  refine only_bind (only_rpc (only_call ⟨.neutral rfl, rfl⟩)) fun baseFee => ?_
  refine only_bind idle_suggestedTip.serves fun tip => ?_
  refine only_bind (only_rpc (only_call ⟨.sign rfl, rfl⟩)) fun signed => ?_
  refine only_bind only_require fun _ => ?_
  refine only_bind (only_record ⟨.neutral rfl, rfl⟩ fun _ => ⟨.submit, rfl⟩) fun _ => ?_
  refine only_bind (only_broadcast ⟨.send rfl, rfl⟩) fun _ => ?_
  refine only_bind idle_waitForReceipt.serves fun receipt => ?_
  refine only_bind only_require fun _ => ?_
  exact only_record ⟨.neutral rfl, rfl⟩ fun _ => ⟨.confirm, rfl⟩

end Serves

section Threads

variable (profile : Profile)

theorem uninvolved_drain [EthText] (reserve : Address) :
    IsUninvolved (drain profile reserve).run := by
  refine only_bind (only_ask ⟨rfl, rfl⟩) ?_; intro paused
  refine only_bind only_require ?_; intro _
  refine only_bind (only_rpc (only_call ⟨rfl, rfl⟩)) ?_; intro chainID
  refine only_bind only_require ?_; intro _
  refine only_bind (only_ask ⟨rfl, rfl⟩) ?_; intro signerAddress
  refine only_bind (only_rpc (only_call ⟨rfl, rfl⟩)) ?_; intro balance
  refine only_bind (only_rpc (only_call ⟨rfl, rfl⟩)) ?_; intro nonce
  refine only_bind (only_rpc (only_call ⟨rfl, rfl⟩)) ?_; intro baseFee
  refine only_bind idle_suggestedTip.uninvolved ?_; intro tip
  refine only_bind only_require ?_; intro _
  refine only_bind (only_rpc (only_call ⟨rfl, rfl⟩)) ?_; rintro ⟨signed, _⟩
  refine only_bind (only_broadcast ⟨rfl, rfl⟩) ?_; intro _
  refine only_bind idle_waitForReceipt.uninvolved ?_; intro receipt
  refine only_bind only_require ?_; intro _
  trivial

theorem discreet_enqueueAccepted (accepted : Request) (now : Time) :
    IsDiscreet (enqueueAccepted accepted now) := by
  refine .bind (only_call ⟨rfl, rfl⟩) ?_
  intro queued
  cases queued with
  | true => trivial
  | false => exact .bind (only_call ⟨rfl, rfl⟩) fun _ => trivial

theorem discreet_acceptNew (idempotencyKey : GoString) (recipient : Address) (now : Time) :
    IsDiscreet (acceptNew idempotencyKey recipient now) := by
  refine .bind (only_call ⟨rfl, rfl⟩) ?_
  rintro (_ | requestID)
  · trivial
  · refine .bind (only_call ⟨rfl, rfl⟩) ?_
    rintro (_ | ⟨accepted, _ | _⟩ | _ | _ | _)
    case request.false => exact discreet_enqueueAccepted accepted now
    all_goals trivial

theorem discreet_handleFund (idempotencyKey : GoString) (recipient : Address) :
    IsDiscreet (handleFund idempotencyKey recipient) := by
  refine .bind (only_call ⟨rfl, rfl⟩) ?_
  intro now
  refine .bind (only_call ⟨rfl, rfl⟩) ?_
  rintro (_ | existing)
  · refine .bind (only_call ⟨rfl, rfl⟩) ?_
    intro spent
    refine .bind (only_call ⟨rfl, rfl⟩) ?_
    intro state
    split_ifs
    · trivial
    · exact discreet_acceptNew idempotencyKey recipient now
  · trivial

theorem inert_handleRotate (newAddress : Address) : IsInert (handleRotate newAddress) := by
  refine .bind (only_call rfl) ?_
  rintro (_ | _)
  · refine .bind (only_call rfl) ?_
    intro active
    split_ifs
    · trivial
    · refine .bind (only_call rfl) ?_
      intro oldAddress
      refine .bind (only_call rfl) ?_
      intro now
      refine .bind (only_call rfl) ?_
      rintro (_ | _ | _ | _ | _)
      case failed => trivial
      all_goals exact .bind (only_call rfl) fun _ => trivial
  · trivial

theorem idle_handlePause (reason : GoString) : IsIdle (handlePause reason) := by
  refine .bind (only_call ⟨rfl, rfl⟩) fun now => .bind (only_call ⟨rfl, rfl⟩) fun outcome => ?_
  cases outcome <;> trivial

theorem idle_handleResume : IsIdle handleResume := by
  refine .bind (only_call ⟨rfl, rfl⟩) fun now => .bind (only_call ⟨rfl, rfl⟩) fun outcome => ?_
  cases outcome
  case failed => trivial
  all_goals exact .bind (only_call ⟨rfl, rfl⟩) fun _ => trivial

theorem uninvolved_handleDrain [EthText] (reserve : Address) :
    IsUninvolved (handleDrain profile reserve) := by
  refine .bind (uninvolved_drain profile reserve) fun result => ?_
  cases result <;> trivial

/-- All handlers but those that accept requests or send a drain. -/
theorem inert_handler [EthText] {request : ClientRequest}
    (other : (∀ idempotencyKey recipient, request ≠ .fund idempotencyKey recipient) ∧
      ∀ reserve, request ≠ .drain reserve) : IsInert (request.handler profile) := by
  cases request with
  | fund idempotencyKey recipient => exact absurd rfl (other.1 idempotencyKey recipient)
  | pause reason => exact (idle_handlePause reason).inert
  | resume => exact idle_handleResume.inert
  | rotate newAddress => exact inert_handleRotate newAddress
  | drain reserve => exact absurd rfl (other.2 reserve)

/-- All handlers but the one that accepts requests. -/
theorem neutral_handler [EthText] {request : ClientRequest}
    (other : ∀ idempotencyKey recipient, request ≠ .fund idempotencyKey recipient) :
    IsNeutral (request.handler profile) := by
  cases request with
  | fund idempotencyKey recipient => exact absurd rfl (other idempotencyKey recipient)
  | pause | resume | rotate =>
    exact (inert_handler profile ⟨fun _ _ => by simp, fun _ => by simp⟩).neutral
  | drain reserve => exact (uninvolved_handleDrain profile reserve).neutral

/-- All handlers but the one that installs keys. -/
theorem keyless_handler [EthText] {request : ClientRequest}
    (other : ∀ newAddress, request ≠ .rotate newAddress) :
    IsKeyless (request.handler profile) := by
  cases request with
  | fund idempotencyKey recipient => exact (discreet_handleFund idempotencyKey recipient).right
  | pause reason => exact (idle_handlePause reason).right
  | resume => exact idle_handleResume.right
  | rotate newAddress => exact absurd rfl (other newAddress)
  | drain reserve => exact (uninvolved_handleDrain profile reserve).right

theorem quiet_handler [EthText] (request : ClientRequest) : IsQuiet (request.handler profile) := by
  cases request with
  | fund idempotencyKey recipient =>
    exact (discreet_handleFund idempotencyKey recipient).plain.quiet
  | pause | resume | rotate | drain =>
    exact IsNeutral.quiet (neutral_handler profile fun _ _ => by simp)

theorem idle_observeRefill (probed : Probed) (balance : Int) :
    IsIdle (observeRefill profile probed balance) := by
  refine .bind (only_call ⟨rfl, rfl⟩) ?_
  intro signerAddress
  rcases probed with _ | ⟨lastSigner, lastBalance⟩
  · trivial
  · dsimp only
    split_ifs
    · trivial
    · exact .bind (only_call ⟨rfl, rfl⟩) fun _ => .bind (only_call ⟨rfl, rfl⟩) fun _ => trivial
    · trivial

theorem idle_probeOnce (probed : Probed) : IsIdle (probeOnce profile probed) := by
  have failed : IsIdle (do call (.recordRPCProbe false); pure probed) :=
    .bind (only_call ⟨rfl, rfl⟩) fun _ => trivial
  refine .bind (only_call ⟨rfl, rfl⟩) ?_
  rintro (_ | chainID)
  · exact failed
  · dsimp only
    split_ifs
    · exact failed
    · refine .bind (only_call ⟨rfl, rfl⟩) ?_
      intro signerAddress
      refine .bind (only_call ⟨rfl, rfl⟩) ?_
      rintro (_ | balance)
      · exact failed
      · refine .bind (only_call ⟨rfl, rfl⟩) ?_
        intro _
        refine .bind (only_call ⟨rfl, rfl⟩) ?_
        intro _
        exact idle_observeRefill profile probed balance

theorem discreet_requeue (pending : List Request) : IsDiscreet (requeue pending).run := by
  induction pending with
  | nil => trivial
  | cons request rest ih =>
    refine only_bind (only_bind (only_ask ⟨rfl, rfl⟩) fun queued => ?_) fun _ => ih
    cases queued with
    | true => trivial
    | false => exact only_record ⟨rfl, rfl⟩ fun _ => ⟨rfl, rfl⟩

theorem discreet_reconcile : IsDiscreet reconcile.run :=
  only_bind (only_ask ⟨rfl, rfl⟩) discreet_requeue

/-! ## The worker leaves the keys alone -/

theorem keyless_attemptFunding [EthText] (requestID : GoString) (progress : Progress) :
    IsKeyless (attemptFunding profile requestID progress) := by
  refine .bind (only_call rfl) fun signerAddress => .bind (only_call rfl) fun fenced => ?_
  split_ifs
  · exact idle_retryLater.right
  · refine .bind serves_fundOnce.right fun result => ?_
    rcases result with error | _
    · dsimp only
      split_ifs
      · trivial
      · exact discreet_giveUp.right
      · exact idle_retryLater.right
    · exact .bind (only_call rfl) fun _ => trivial

theorem keyless_advance [EthText] (requestID : GoString) (request : Request) (progress : Progress) :
    IsKeyless (advance profile requestID request progress) := by
  refine .bind (only_call rfl) fun paused => ?_
  split
  · exact idle_retryLater.right
  refine .bind (only_call rfl) fun state => ?_
  split_ifs
  · exact idle_retryLater.right
  · refine .bind (serves_settleSubmission request).right fun result => ?_
    rcases result with error | outcome
    · exact idle_retryLater.right
    cases outcome with
    | confirmed => exact .bind (only_call rfl) fun _ => trivial
    | reverted => exact discreet_giveUp.right
    | gone => exact keyless_attemptFunding profile requestID _
    | unknown =>
      refine .bind (only_call rfl) fun now => ?_
      extract_lets since
      split
      · exact .bind (serves_replaceSubmission request _).right fun _ => idle_retryLater.right
      · exact idle_retryLater.right
  · exact keyless_attemptFunding profile requestID progress

theorem keyless_workerTurn [EthText] (state : WorkerState) :
    IsKeyless (workerTurn profile state) := by
  cases state with
  | waiting =>
    refine .bind (only_call rfl) fun found => ?_
    cases found <;> trivial
  | processing requestID progress =>
    refine .bind (.bind (only_call rfl) fun stopping => ?_) fun again => ?_
    · split_ifs
      · trivial
      · refine .bind (only_call rfl) fun found => ?_
        rcases found with _ | request
        · trivial
        · dsimp only
          cases request.status with
          | confirmed | failed | denied => trivial
          | queued | submitted => exact keyless_advance profile requestID request progress
    · cases again <;> trivial
  | stopped => trivial

end Threads

end Torium.Faucet
