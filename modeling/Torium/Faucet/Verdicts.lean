import Torium.Faucet.Failures

/-!
# No paid request is reported as failed

In a run whose steps are all prudent, a request has failed only when nothing that was sent
for it has succeeded or can still land. Besides the care of the worker this needs that the
start-up lets no submitted request fail, and that the errors of the node and the journal do
not look like those that come before a submission.

The accounts, the signatures and the ownership of requests are known from the modules on
which this one builds; the discipline of the worker takes them for granted.
-/

namespace Torium.Faucet

open Evm Concurrent Attempt

/-- The text of an error that may come after a submission was sent. -/
def Command.errorText? : Command → Choice → Option GoString
  | .sendTransaction _ _, .fail error => some error.message
  | .sendTransaction _ _, .failAfter error => some error.message
  | .transactionReceipt _, .fail error => some error.message
  | .perform (.recordConfirmed _ _ _ _), .write message => some message
  | _, _ => none

/-- The error does not look terminal. -/
def Command.Clear (c : Command) (choice : Choice) : Prop :=
  ∀ message ∈ c.errorText? choice, contains (text "terminal:") message = false

instance (c : Command) (choice : Choice) : Decidable (c.Clear choice) :=
  inferInstanceAs (Decidable (∀ message ∈ c.errorText? choice, _))

theorem World.Mild.refl (world : World) : world.Mild world :=
  ⟨.refl world, List.Subset.refl _⟩

theorem World.Mild.trans {first second third : World} (here : first.Mild second)
    (later : second.Mild third) : first.Mild third :=
  ⟨here.harmless.trans later.harmless, List.Subset.trans here.signed later.signed⟩

section Discipline

variable [EthText] [Digest]

def verdicts (profile : Profile) : Discipline service Choice World where
  execute c choice world := if c.Clear choice then execute c choice world else none
  invariant := World.Honest
  interference := World.Mild
  permitted c world := Careful c world ∧ world.Accounted profile ∧ world.Signatures ∧
    Rightful .worker world c
  refl := World.Mild.refl
  trans := World.Mild.trans

variable {profile : Profile} {world world' : World} {requestID : GoString}
variable {transaction : Transaction} {request : Request} {pre : World → Prop} {purpose : Purpose}
variable {context : String}

theorem verdicts_executes {c : Command} {choice : Choice} {response : Response c}
    (executed : (verdicts profile).execute c choice world = some (response, world')) :
    c.Clear choice ∧ execute c choice world = some (response, world') :=
  Option.ite_none_right_eq_some.mp executed

/-! ## What the others keep -/

theorem Stable.allDead : Stable (verdicts profile) (World.AllDead requestID) :=
  fun _ _ mild dead => dead.harmless mild.harmless

/-- A transaction that was signed, and the recorded slot of a request. -/
def World.Submits (requestID : GoString) (transaction : Transaction) (world : World) : Prop :=
  world.Records requestID transaction.slot ∧ transaction ∈ world.signed

omit [Digest] in
theorem World.Submits.mild (submits : world.Submits requestID transaction)
    (mild : world.Mild world') : world'.Submits requestID transaction :=
  ⟨submits.1.harmless mild.harmless, mild.signed submits.2⟩

theorem Stable.submits :
    Stable (verdicts profile) (World.Submits requestID transaction) :=
  fun _ _ mild submits => submits.mild mild

/-- What is known about a submission when its receipt was looked for. -/
def World.Inspected (requestID : GoString) (transaction : Transaction)
    (answer : Except GoError Receipt) (world : World) : Prop :=
  world.Submits requestID transaction ∧ match answer with
    | .ok receipt => receipt.successful = false → world.AllDead requestID
    | .error error => error.notFound = false → contains (text "terminal:") error.message = false

theorem Stable.inspected {answer : Except GoError Receipt} :
    Stable (verdicts profile) (World.Inspected requestID transaction answer) := by
  intro world world' mild inspected
  refine ⟨inspected.1.mild mild, ?_⟩
  cases answer with
  | ok receipt => exact fun failed => (inspected.2 failed).harmless mild.harmless
  | error error => exact inspected.2

/-- A submission of the request is recorded and vouched for. -/
def World.InFlight (request : Request) (world : World) : Prop :=
  world.Records request.id request.slot ∧ world.Vouched request

omit [Digest] in
theorem World.InFlight.mild (flight : world.InFlight request) (mild : world.Mild world') :
    world'.InFlight request :=
  ⟨flight.1.harmless mild.harmless, flight.2.mild mild⟩

theorem Stable.inFlight :
    Stable (verdicts profile) (World.InFlight request) :=
  fun _ _ mild flight => flight.mild mild

/-- What is known about a submission when the nonce of its signer was read. -/
def World.Compared (request : Request) (confirmedNonce : Nat) (world : World) : Prop :=
  world.InFlight request ∧ (request.nonce < confirmedNonce → world.AllDead request.id)

theorem Stable.compared {confirmedNonce : Nat} :
    Stable (verdicts profile) (World.Compared request confirmedNonce) :=
  fun _ _ mild holds => ⟨holds.1.mild mild, fun used => (holds.2 used).harmless mild.harmless⟩

/-! ## Commands -/

/-- A transaction may be sent for a request that has not failed. -/
theorem send_honest (stable : Stable (verdicts profile) pre)
    (kept : ∀ world reached, pre world → pre (world.send purpose transaction reached)) :
    Triple (verdicts profile) pre (call (.sendTransaction purpose transaction))
      fun answer world => pre world ∧ ∀ error, answer = some error →
        isTerminalFundingError error = false := by
  have stable' (answer : Option GoError) : Stable (verdicts profile) fun world => pre world ∧
      ∀ error, answer = some error → isTerminalFundingError error = false :=
    fun s t mild holds => ⟨stable s t mild holds.1, holds.2⟩
  refine Triple.command stable stable' ?_
  intro world choice answer world' honest holds permitted executed
  obtain ⟨clear, executed⟩ := verdicts_executes executed
  obtain ⟨-, -, -, rightful⟩ := permitted
  have honest' (reached : Bool) : (world.send purpose transaction reached).Honest := by
    refine ⟨honest.submitted, fun id request known status => ?_⟩
    have dead := honest.failed id request known status
    intro other sent
    refine dead other ?_
    simp only [World.send] at sent
    split at sent
    next names =>
        obtain old | new := List.mem_append.mp sent
        · exact old
        · cases List.mem_singleton.mp new
          obtain ⟨request', known', live⟩ := rightful id names
          cases known.symm.trans known'
          rw [status] at live
          cases live
    · exact sent
  cases choice <;> cases executed
  case ok => exact ⟨honest' true, kept _ _ holds, by rintro _ ⟨⟩⟩
  case fail error =>
    refine ⟨honest' false, kept _ _ holds, ?_⟩
    rintro _ ⟨⟩
    exact clear _ rfl
  case failAfter error =>
    refine ⟨honest' true, kept _ _ holds, ?_⟩
    rintro _ ⟨⟩
    exact clear _ rfl

/-- A broadcast fails with no error that looks terminal. -/
theorem attempts_broadcast {context : GoError → String}
    (wraps : ∀ error, ∃ words, text (context error) = words ++ [32] ∧
      contains (text "terminal:") words = false) :
    Attempts (verdicts profile) (World.Submits requestID transaction)
      (broadcast purpose transaction context) (fun _ => World.Submits requestID transaction)
      fun error _ => isTerminalFundingError error = false := by
  have sent : Triple (verdicts profile) (World.Submits requestID transaction)
      (call (.sendTransaction purpose transaction)) _ :=
    send_honest Stable.submits fun _ _ submits => submits
  have stable (answer : Option GoError) : Stable (verdicts profile) fun world =>
      world.Submits requestID transaction ∧ ∀ error, answer = some error →
        isTerminalFundingError error = false :=
    fun _ _ mild holds => ⟨holds.1.mild mild, holds.2⟩
  refine Attempts.bind (fun _ _ _ _ holds => holds) (Attempts.lift stable sent) fun answer => ?_
  cases answer with
  | none => exact Attempts.pure (stable none) fun _ holds => holds.1
  | some error =>
    refine Attempts.throw (stable _) fun _ holds => ?_
    obtain ⟨words, blank, silent⟩ := wraps error
    exact isTerminalFundingError_wrap blank silent (holds.2 error rfl)

variable [EthText.Lawful]

/-- A quiet command that lets no request fail. -/
theorem quiet_honest {c : Command} (quiet : c.quiet = true) (fails : c.fails? = none) :
    Quiet (verdicts profile) c := by
  intro world choice response world' honest executed
  refine World.Honest.quiet honest quiet (fun id here => ?_) (verdicts_executes executed).2
  rw [fails] at here
  cases here

theorem inert_honest {c : Command} (inert : c.inert = true) : Quiet (verdicts profile) c := by
  intro world choice response world' honest executed
  have neutral := Command.neutral_of_inert inert
  exact quiet_honest (Command.quiet_of_neutral neutral) (Command.fails_of_neutral neutral) honest
    executed

/-- A request may fail when nothing can land any more. -/
theorem recordFailed_honest {reason : GoString} {at_ : Time} :
    Triple (verdicts profile) (World.AllDead requestID)
      (call (.perform (.recordFailed requestID reason at_))) fun _ _ => True := by
  refine Triple.command Stable.allDead (fun _ => .true) ?_
  intro world choice outcome world' honest dead _ executed
  refine ⟨(World.Honest.quiet honest rfl ?_ (verdicts_executes executed).2).1, trivial⟩
  rintro id ⟨⟩
  exact dead

/-- A signature; a permitted replacement is signed by the recorded key. -/
theorem attempts_sign {unsigned : UnsignedTransaction} (stable : Stable (verdicts profile) pre) :
    Attempts (verdicts profile) pre (rpc context (call (.sign purpose unsigned)))
      (fun result world => (result.1.slot = (result.2, unsigned.nonce) ∧
        ∀ request, purpose = .replace request → request.signerAddress = addressHex result.2) ∧
        pre world ∧ result.1 ∈ world.signed) fun _ => pre := by
  have signed (transaction : Transaction) : Stable (verdicts profile) fun world =>
      pre world ∧ transaction ∈ world.signed :=
    fun s t mild holds => ⟨stable s t mild holds.1, mild.signed holds.2⟩
  refine attempts_rpc (fun _ => (signed _).and) stable (Triple.command stable ?_ ?_)
  · rintro (error | result)
    · exact stable
    · exact (signed _).and
  · intro world choice response world' honest holds permitted executed
    obtain ⟨-, executed⟩ := verdicts_executes executed
    obtain ⟨honest', mild⟩ :=
      honest.quiet (c := .sign purpose unsigned) rfl (fun _ here => nomatch here) executed
    refine ⟨honest', ?_⟩
    rcases response with error | ⟨transaction, signedBy⟩
    · exact stable _ _ mild holds
    · obtain ⟨member, key, slots⟩ := World.sign_signed executed
      refine ⟨⟨slots, ?_⟩, stable _ _ mild holds, member⟩
      rintro request rfl
      rw [key]
      exact permitted.1

/-- Confirming a request that lives fails with no error that looks terminal. -/
theorem attempts_confirm {hash : Bytes32} {blockNumber : Nat} :
    Attempts (verdicts profile) (fun _ => True)
      (record "" (.recordConfirmed requestID hash blockNumber)) (fun _ _ => True)
      fun error _ => isTerminalFundingError error = false := by
  have confirmed (now : Time) : Triple (verdicts profile) (fun _ => True)
      (call (.perform (.recordConfirmed requestID hash blockNumber now)))
      fun (outcome : Outcome) _ => ∀ error, outcome = .failed error →
        contains (text "terminal:") error.message = false := by
    refine Triple.command .true (fun _ _ _ _ holds => holds) ?_
    intro world choice outcome world' honest _ ⟨_, _, _, rightful⟩ executed
    obtain ⟨clear, executed⟩ := verdicts_executes executed
    refine ⟨(World.Honest.quiet honest rfl (by rintro _ ⟨⟩) executed).1, ?_⟩
    rintro error rfl
    obtain ⟨fault, written, -, outcome, -⟩ := World.perform_faults executed
    obtain ⟨⟨request, known, -⟩, -⟩ := rightful requestID rfl
    obtain ⟨message, rfl, rfl⟩ | ⟨year, rfl⟩ | rfl :=
      Store.recordConfirmed_error known (Outcome.ofError_eq_failed.mp outcome)
    · refine clear message ?_
      rw [written message rfl]
      rfl
    · change contains (text "terminal:") (JournalError.encode 0).message = false
      decide +kernel
    · decide +kernel
  refine Attempts.bind (fun _ _ _ _ holds => holds) (Attempts.lift (fun _ => .true)
    (Triple.quiet .true (only_call (inert_honest rfl)))) fun now => ?_
  refine Attempts.bind (fun _ _ _ _ holds => holds) (Attempts.lift
    (fun _ _ _ _ holds => holds) (confirmed now)) fun outcome => ?_
  cases outcome with
  | failed error => exact Attempts.throw (fun _ _ _ holds => holds) fun _ clear => clear error rfl
  | _ => exact Attempts.pure (fun _ _ _ holds => holds) fun _ _ => trivial

theorem receipt_honest :
    Triple (verdicts profile) (World.Submits requestID transaction)
      (call (.transactionReceipt transaction.hash)) (World.Inspected requestID transaction) := by
  refine Triple.command Stable.submits (fun _ => Stable.inspected) ?_
  intro world choice answer world' honest submits ⟨_, accounted, signatures, _⟩ executed
  obtain ⟨clear, executed⟩ := verdicts_executes executed
  obtain ⟨honest', mild⟩ := World.Honest.quiet (c := .transactionReceipt transaction.hash)
    honest rfl nofun executed
  refine ⟨honest', submits.mild mild, ?_⟩
  cases answer with
  | ok receipt =>
    intro failed
    obtain ⟨landed, hash⟩ := World.transactionReceipt_answer executed
    exact (accounted.reverted signatures submits.1 submits.2 rfl landed hash failed).harmless
      mild.harmless
  | error error =>
    intro found
    refine clear error.message ?_
    cases choice <;> simp only [execute, World.transactionReceipt] at executed <;>
      try cases executed
    · split at executed <;> cases executed
      cases found
    · split_ifs at executed
      cases executed
      rfl

/-- A permitted read of the nonce shows whether something can still land. -/
theorem attempts_nonceAt :
    Attempts (verdicts profile) (World.InFlight request)
      (rpc context (call (.nonceAt request (hexToAddress request.signerAddress))))
      (World.Compared request) fun _ _ => True := by
  refine attempts_rpc (fun _ => Stable.compared) .true (Triple.command Stable.inFlight ?_ ?_)
  · rintro (error | confirmedNonce)
    · exact .true
    · exact Stable.compared
  · intro world choice answer world' honest flight ⟨careful, accounted, _, _⟩ executed
    obtain ⟨-, executed⟩ := verdicts_executes executed
    obtain ⟨honest', mild⟩ := World.Honest.quiet (c := .nonceAt request _) honest rfl
      nofun executed
    refine ⟨honest', ?_⟩
    cases answer with
    | error error => trivial
    | ok confirmedNonce =>
      refine ⟨flight.mild mild, fun used => ?_⟩
      rw [World.nonceAt_answer executed] at used
      exact (accounted.gone flight.1 careful used).harmless mild.harmless

/-- What is known about a request that is read. -/
theorem get_honest : Triple (verdicts profile) (fun _ => True) (call (.get requestID))
    fun (found : Option Request) world => ∀ request, found = some request →
      request.Read World.AllDead World.InFlight requestID world := by
  refine Triple.command .true (fun _ _ _ mild holds request same =>
    Stable.read Stable.allDead Stable.inFlight _ _ mild (holds request same)) ?_
  intro world choice found world' honest _ ⟨_, accounted, _, _⟩ executed
  obtain ⟨-, executed⟩ := verdicts_executes executed
  obtain ⟨honest', mild⟩ := World.Honest.quiet (c := .get requestID) honest rfl
    nofun executed
  refine ⟨honest', ?_⟩
  rintro request rfl
  have known : world.store.requests requestID = some request := World.reads_value executed
  obtain ⟨named, recorded, unrecorded⟩ := accounted.read known
  refine ⟨named, fun ⟨status, hash⟩ => ?_, fun pending other => ?_⟩
  · refine World.InFlight.mild ⟨?_, honest.submitted requestID request known status⟩ mild
    exact named ▸ recorded ⟨by simp [status], hash⟩
  · refine (unrecorded fun ⟨notQueued, hash⟩ => other ⟨?_, hash⟩).harmless mild.harmless
    exact (of_decide_eq_true pending).resolve_left notQueued

/-- A nonce that is read fits into its type. -/
theorem attempts_pendingNonceAt {account : Address} (stable : Stable (verdicts profile) pre) :
    Attempts (verdicts profile) pre (rpc context (call (.pendingNonceAt account)))
      (fun nonce world => nonce < 2 ^ 64 ∧ pre world) fun _ => pre := by
  refine attempts_rpc (fun _ => stable.and) stable (Triple.command stable ?_ ?_)
  · rintro (error | nonce)
    · exact stable
    · exact stable.and
  · intro world choice answer world' honest holds _ executed
    obtain ⟨-, executed⟩ := verdicts_executes executed
    obtain ⟨honest', mild⟩ := World.Honest.quiet (c := .pendingNonceAt account) honest rfl
      nofun executed
    refine ⟨honest', ?_⟩
    cases answer with
    | error error => exact stable _ _ mild holds
    | ok nonce => exact ⟨World.pendingNonceAt_answer executed, stable _ _ mild holds⟩

variable [EthText.Hexadecimal]

/-- A submission is recorded with the slot of the transaction, while the request lives. -/
theorem World.Honest.submit {nonce : Nat} {signer : Address} {at_ : Time} {choice : Choice}
    {outcome : Outcome} (honest : world.Honest) (signed : transaction ∈ world.signed)
    (slot : transaction.slot = (signer, nonce)) (readable : nonce < 2 ^ 64 ∨
      ∀ old, world.store.requests requestID = some old → old.nonce = nonce)
    (executed : world.perform (.recordSubmitted requestID transaction.hash nonce signer at_)
      choice = some (outcome, world')) :
    world'.Honest ∧ world' = { world with store := world'.store } ∧
      ((∀ error, outcome ≠ .failed error) → world'.Records requestID transaction.slot) := by
  obtain ⟨fault, -, rfl, rfl⟩ := perform_cases executed
  have written := world.store.recordSubmitted_written fault requestID transaction.hash nonce
    signer at_
  refine ⟨⟨fun id request known status => ?_, fun id request known status => ?_⟩, rfl,
    fun done => ?_⟩
  · obtain old | ⟨rfl, old, known', -, hash, signers, nonces⟩ := written.cases known
    · exact honest.submitted id request old status
    · refine ⟨transaction, signed, ?_, ?_⟩
      · rw [hash, EthText.Hexadecimal.hexToHash_hashHex]
      · have same : request.nonce = nonce := nonces.elim (fun same => same)
          fun ⟨large, unchanged⟩ => readable.elim (fun small => absurd small (not_lt.mpr large))
            fun known => unchanged.trans (known old known')
        rw [slot, Request.slot, signers, EthText.Lawful.hexToAddress_addressHex, same]
  · obtain old | ⟨-, old, -, submitted, -⟩ := written.cases known
    · exact honest.failed id request old status
    · rw [submitted] at status
      cases status
  · rw [slot]
    apply Store.recordSubmitted_done
    cases failed : (world.store.recordSubmitted fault requestID transaction.hash nonce signer
        at_).2 with
    | none => rfl
    | some error => exact absurd (congrArg Outcome.ofError failed) (done error)

/-- What holds after a submission was recorded, or could not be. -/
def Outcome.Submits (requestID : GoString) (transaction : Transaction) (failed : World → Prop) :
    Outcome → World → Prop
  | .failed _, world => failed world
  | _, world => world.Submits requestID transaction

/-- Recording a submission. -/
theorem attempts_submit {nonce : Nat} {signer : Address} {failed : World → Prop}
    (stable : Stable (verdicts profile) fun world => pre world ∧ transaction ∈ world.signed)
    (stable' : Stable (verdicts profile) failed) (slot : transaction.slot = (signer, nonce))
    (readable : ∀ world : World, pre world → nonce < 2 ^ 64 ∨
      ∀ old, world.store.requests requestID = some old → old.nonce = nonce)
    (failed_of : ∀ world store, pre world → failed { world with store }) :
    Attempts (verdicts profile) (fun world => pre world ∧ transaction ∈ world.signed)
      (record context (.recordSubmitted requestID transaction.hash nonce signer))
      (fun _ => World.Submits requestID transaction) fun _ => failed := by
  have stable'' (outcome : Outcome) :
      Stable (verdicts profile) (outcome.Submits requestID transaction failed) := by
    cases outcome <;> first | exact stable' | exact Stable.submits
  have submitted (now : Time) : Triple (verdicts profile)
      (fun world => pre world ∧ transaction ∈ world.signed)
      (call (.perform (.recordSubmitted requestID transaction.hash nonce signer now)))
      (Outcome.Submits requestID transaction failed) := by
    refine Triple.command stable stable'' ?_
    intro world choice outcome world' honest ⟨holds, signed⟩ _ executed
    obtain ⟨-, executed⟩ := verdicts_executes executed
    obtain ⟨honest', same, records⟩ :=
      World.Honest.submit honest signed slot (readable world holds) executed
    refine ⟨honest', ?_⟩
    rw [same] at records ⊢
    cases outcome with
    | failed error => exact failed_of _ _ holds
    | _ => exact ⟨records (fun _ same => by cases same), signed⟩
  refine Attempts.bind (fun _ => stable') (Attempts.lift (fun _ => stable)
    (Triple.quiet stable (only_call (inert_honest rfl)))) fun now => ?_
  refine Attempts.bind (fun _ => stable') (Attempts.lift stable'' (submitted now)) fun outcome => ?_
  cases outcome with
  | failed error => exact Attempts.throw stable' fun _ => id
  | _ => exact Attempts.pure Stable.submits fun _ => id

/-! ## Receipts -/

/-- A wait for a receipt: one without success leaves nothing that could land, and the errors do
not look terminal. -/
def AwaitsReceipt (profile : Profile) (requestID : GoString) (transaction : Transaction)
    (program : Attempt Receipt) : Prop :=
  Attempts (verdicts profile) (World.Submits requestID transaction) program
    (fun receipt world => receipt.successful = false → world.AllDead requestID)
    fun error _ => isTerminalFundingError error = false

theorem waitExpired_honest {ofClient : Bool} :
    AwaitsReceipt profile requestID transaction (waitExpired ofClient transaction.hash) := by
  have blank : text "wait for funding receipt " = text "wait for funding receipt" ++ [32] := by
    decide +kernel
  refine Attempts.bind (fun _ _ _ _ holds => holds) (Attempts.lift (fun _ => Stable.submits)
    (Triple.quiet Stable.submits (only_call (inert_honest rfl)))) fun canceled => ?_
  split_ifs
  · exact Attempts.throw Stable.submits fun _ _ =>
      isTerminalFundingError_hash rfl blank (by decide +kernel) (by decide +kernel)
  · exact Attempts.throw Stable.submits fun _ _ =>
      isTerminalFundingError_hash rfl blank (by decide +kernel) (by decide +kernel)

/-- One poll, before the rest of a wait. -/
theorem pollOnce_honest {later : Attempt Receipt}
    (rest : AwaitsReceipt profile requestID transaction later) :
    AwaitsReceipt profile requestID transaction (do
      match ← pollOnce transaction.hash with
      | some receipt => pure receipt
      | none => later) := by
  have stable (found : Option Receipt) : Stable (verdicts profile) fun world =>
      world.Submits requestID transaction ∧ ∀ receipt, found = some receipt →
        receipt.successful = false → world.AllDead requestID :=
    fun _ _ mild holds => ⟨holds.1.mild mild, fun receipt same failed =>
      (holds.2 receipt same failed).harmless mild.harmless⟩
  have poll : Attempts (verdicts profile) (World.Submits requestID transaction)
      (pollOnce transaction.hash) (fun found world => world.Submits requestID transaction ∧
        ∀ receipt, found = some receipt → receipt.successful = false → world.AllDead requestID)
      fun error _ => isTerminalFundingError error = false := by
    refine Attempts.bind (fun _ _ _ _ holds => holds) (Attempts.lift (fun _ => Stable.inspected)
      receipt_honest) ?_
    rintro (error | receipt)
    · dsimp only
      split_ifs with missing
      · exact Attempts.pure Stable.inspected fun _ holds => ⟨holds.1, nofun⟩
      · refine Attempts.throw Stable.inspected fun _ holds => ?_
        have blank : text "read funding receipt " = text "read funding receipt" ++ [32] := by
          decide +kernel
        exact isTerminalFundingError_hash rfl blank (by decide +kernel)
          (holds.2 (eq_false_of_ne_true missing))
    · refine Attempts.pure Stable.inspected fun _ holds => ⟨holds.1, ?_⟩
      rintro _ ⟨⟩
      exact holds.2
  refine Attempts.bind (fun _ _ _ _ holds => holds) poll fun found => ?_
  cases found with
  | some receipt => exact Attempts.pure (stable _) fun _ holds => holds.2 receipt rfl
  | none =>
    exact Attempts.consequence (fun _ holds => holds.1) rest (fun _ _ => id)
      fun _ _ => id

theorem waitForReceipt_honest {ofClient : Bool} :
    AwaitsReceipt profile requestID transaction (waitForReceipt ofClient transaction.hash) := by
  have polling (polls : Nat) : AwaitsReceipt profile requestID transaction
      (pollReceipt ofClient transaction.hash polls) := by
    induction polls with
    | zero => exact pollOnce_honest waitExpired_honest
    | succ polls ih => exact pollOnce_honest ih
  exact Attempts.bind (fun _ _ _ _ holds => holds) (Attempts.lift (fun _ => Stable.submits)
    (Triple.quiet Stable.submits (only_call (inert_honest rfl)))) polling

/-! ## The programs of the worker -/

/-- An error that looks terminal comes before a submission, or after it was reverted. -/
theorem fundOnce_honest : Attempts (verdicts profile) (World.AllDead requestID)
    (fundOnce profile requestID) (fun _ _ => True)
    fun error world => isTerminalFundingError error = true → world.AllDead requestID := by
  have dead : Stable (verdicts profile) (World.AllDead requestID) := Stable.allDead
  have failed (error : GoError) : Stable (verdicts profile) fun world =>
      isTerminalFundingError error = true → world.AllDead requestID := Stable.imp dead
  have signed (transaction : Transaction) : Stable (verdicts profile) fun world =>
      world.AllDead requestID ∧ transaction ∈ world.signed :=
    fun _ _ mild holds => ⟨holds.1.harmless mild.harmless, mild.signed holds.2⟩
  have before {α : Type} {program : Attempt α} {next : α → Attempt Unit}
      (inert : IsInert program.run)
      (rest : ∀ value, Attempts (verdicts profile) (World.AllDead requestID) (next value)
        (fun _ _ => True) fun error world =>
          isTerminalFundingError error = true → world.AllDead requestID) :
      Attempts (verdicts profile) (World.AllDead requestID) (program >>= next) (fun _ _ => True)
        fun error world => isTerminalFundingError error = true → world.AllDead requestID :=
    Attempts.quiet_bind dead (Program.Only.mono (fun _ => inert_honest) inert)
      (fun _ _ holds _ => holds) rest
  have harmless {α : Type} {program : Attempt α} {pre : World → Prop} {post : α → World → Prop}
      (attempts : Attempts (verdicts profile) pre program post
        fun error _ => isTerminalFundingError error = false) :
      Attempts (verdicts profile) pre program post fun error world =>
        isTerminalFundingError error = true → world.AllDead requestID :=
    attempts.consequence (fun _ => id) (fun _ _ => id)
      fun _ _ clear terminal => absurd terminal (ne_true_of_eq_false clear)
  refine before (only_ask rfl) fun found => ?_
  refine before only_must fun request => ?_
  refine before only_must fun amount => ?_
  refine before (only_rpc (only_call rfl)) fun chainID => ?_
  refine before only_require fun _ => ?_
  refine before (only_ask rfl) fun signerAddress => ?_
  refine Attempts.bind failed ((attempts_pendingNonceAt dead).consequence (fun _ => id)
    (fun _ _ => id) fun _ _ holds _ => holds) fun nonce => ?_
  refine Attempts.assuming fun small => ?_
  refine before (only_rpc (only_call rfl)) fun baseFee => ?_
  refine before idle_suggestedTip.inert fun tip => ?_
  refine Attempts.bind failed ((attempts_sign dead).consequence (fun _ => id)
    (fun _ _ => id) fun _ _ holds _ => holds) ?_
  rintro ⟨transaction, signedBy⟩
  refine Attempts.assuming fun ⟨slot, _⟩ => ?_
  refine Attempts.bind failed (attempts_require (signed transaction)
    fun _ _ holds _ => holds.1) fun _ => ?_
  refine Attempts.assuming fun same => ?_
  subst same
  refine Attempts.bind failed ((attempts_submit (signed transaction) dead slot
    (fun _ _ => .inl small) fun _ _ => id).consequence (fun _ => id)
    (fun _ _ => id) fun _ _ holds _ => holds) fun _ => ?_
  refine Attempts.bind failed (harmless (attempts_broadcast fun error => ?_)) fun _ => ?_
  · split_ifs
    · exact ⟨text "broadcast rejected:", by decide +kernel, by decide +kernel⟩
    · exact ⟨text "broadcast funding transaction:", by decide +kernel, by decide +kernel⟩
  refine Attempts.bind failed (harmless waitForReceipt_honest) fun receipt => ?_
  refine Attempts.bind failed (attempts_require (Stable.imp dead) fun unsuccessful _ holds _ =>
    holds (eq_false_of_ne_true unsuccessful)) fun _ => ?_
  exact harmless (attempts_confirm.consequence (fun _ _ => trivial) (fun _ _ => id)
    fun _ _ => id)

omit [EthText.Hexadecimal] in
theorem settleSubmission_honest :
    Attempts (verdicts profile) (World.InFlight request) (settleSubmission request)
      (fun outcome world => (outcome = .reverted → world.AllDead request.id) ∧
        (outcome = .gone → world.AllDead request.id) ∧
        (outcome = .unknown → world.InFlight request))
      fun _ _ => True := by
  rintro world ⟨records, transaction, signed, hash, slot⟩
  have flies {world : World} (submits : world.Submits request.id transaction) :
      world.InFlight request := ⟨slot ▸ submits.1, transaction, submits.2, hash, slot⟩
  refine Attempts.bind (fun _ => .true) (Attempts.lift (fun _ => Stable.inspected)
    (hash ▸ receipt_honest)) ?_ world ⟨slot ▸ records, signed⟩
  rintro (error | receipt)
  · dsimp only
    split_ifs
    · refine Attempts.bind (fun _ => .true) (attempts_nonceAt.consequence
        (fun _ inspected => flies inspected.1) (fun _ _ => id) fun _ _ _ => trivial) ?_
      intro confirmedNonce
      split_ifs with used
      · exact Attempts.pure Stable.compared fun _ holds => ⟨nofun, fun _ => holds.2 used, nofun⟩
      · exact Attempts.pure Stable.compared fun _ holds => ⟨nofun, nofun, fun _ => holds.1⟩
    · exact Attempts.throw Stable.inspected fun _ _ => trivial
  · dsimp only
    split_ifs with success
    · refine Attempts.bind (fun _ => .true) (attempts_confirm.consequence (fun _ _ => trivial)
        (fun _ _ => id) fun _ _ _ => trivial) fun _ => ?_
      exact Attempts.pure .true fun _ _ => ⟨nofun, nofun, nofun⟩
    · exact Attempts.pure Stable.inspected fun _ inspected =>
        ⟨fun _ => inspected.2 (eq_false_of_ne_true success), nofun, nofun⟩

theorem replaceSubmission_honest {bump : Int} :
    Attempts (verdicts profile) (World.InFlight request) (replaceSubmission profile request bump)
      (fun _ _ => True) fun _ _ => True := by
  have flight : Stable (verdicts profile) (World.InFlight request) := Stable.inFlight
  have signed (transaction : Transaction) : Stable (verdicts profile) fun world =>
      world.InFlight request ∧ transaction ∈ world.signed :=
    fun _ _ mild holds => ⟨holds.1.mild mild, mild.signed holds.2⟩
  have before {α : Type} {program : Attempt α} {next : α → Attempt Unit}
      (inert : IsInert program.run)
      (rest : ∀ value, Attempts (verdicts profile) (World.InFlight request) (next value)
        (fun _ _ => True) fun _ _ => True) :
      Attempts (verdicts profile) (World.InFlight request) (program >>= next) (fun _ _ => True)
        fun _ _ => True :=
    Attempts.quiet_bind flight (Program.Only.mono (fun _ => inert_honest) inert)
      (fun _ _ _ => trivial) rest
  refine before only_must fun amount => ?_
  refine before (only_rpc (only_call rfl)) fun chainID => ?_
  refine before only_require fun _ => ?_
  refine before (only_ask rfl) fun signerAddress => ?_
  refine before only_require fun _ => ?_
  refine before (only_rpc (only_call rfl)) fun baseFee => ?_
  refine before idle_suggestedTip.inert fun tip => ?_
  refine Attempts.bind (fun _ => .true) ((attempts_sign flight).consequence (fun _ => id)
    (fun _ _ => id) fun _ _ _ => trivial) ?_
  rintro ⟨transaction, signedBy⟩
  refine Attempts.assuming fun ⟨slot, key⟩ => ?_
  rw [← EthText.Lawful.hexToAddress_addressHex signedBy, ← key request rfl] at slot
  refine Attempts.bind (fun _ => .true) (attempts_submit (signed transaction) .true slot
    (fun world holds => .inr fun old known => ?_) fun _ _ _ => trivial) fun _ => ?_
  · -- The record has kept the nonce that was read.
    obtain ⟨⟨old', known', -, slots⟩, -⟩ := holds
    cases known.symm.trans known'
    exact (Prod.mk.inj slots).2
  · refine (attempts_broadcast fun _ => ?_).consequence (fun _ => id)
      (fun _ _ _ => trivial) fun _ _ _ => trivial
    exact ⟨text "broadcast replacement transaction:", by decide +kernel, by decide +kernel⟩

/-- A request may be funded or fail when nothing that was sent for it can land, and it is in
flight when its submission is vouched for. -/
theorem drivable_honest :
    Drivable (verdicts profile) profile World.AllDead World.AllDead World.InFlight where
  inert := inert_honest
  dequeue := quiet_honest rfl rfl
  stable_clear _ := Stable.allDead
  stable_doomed _ := Stable.allDead
  stable_inFlight _ := Stable.inFlight
  get _ := get_honest
  settle _ := settleSubmission_honest
  replace _ _ := Triple.consequence (fun _ => id) replaceSubmission_honest
    fun _ _ _ => trivial
  fund _ := fundOnce_honest
  fail _ _ _ := recordFailed_honest

end Discipline

end Torium.Faucet
