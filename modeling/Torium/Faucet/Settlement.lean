import Torium.Faucet.Payments

/-!
# Verdicts of a settlement

`settleSubmission` reads the receipt of the recorded transaction and then, if there is none,
the nonce of its signer. The chain goes on between the two reads, so a transaction can land
after its receipt was looked for; the nonce has then passed it, and it is taken for gone.

A verdict is sound if it is true of the chain from then on. The verdicts are sound exactly in
the runs in which the recorded transaction does not land between the reads.
-/

namespace Torium.Faucet

open Evm Concurrent Attempt

/-! ## Landing -/

namespace Chain

variable {chain chain' : Chain} {hash : Bytes32} {transaction : Transaction}

/-- A transaction with the hash has landed, with the given result. -/
def LandedAs (chain : Chain) (hash : Bytes32) (successful : Bool) : Prop :=
  ∃ receipt ∈ chain.landed, receipt.transaction.hash = hash ∧ receipt.successful = successful

def Landed (chain : Chain) (hash : Bytes32) : Prop :=
  ∃ receipt ∈ chain.landed, receipt.transaction.hash = hash

instance : Decidable (chain.Landed hash) :=
  inferInstanceAs (Decidable (∃ receipt ∈ chain.landed, _))

/-- No other transaction has the hash. -/
structure Identifies (chain : Chain) (transaction : Transaction) : Prop where
  pool : ∀ other ∈ chain.pool, other.hash = transaction.hash → other = transaction
  landed : ∀ receipt ∈ chain.landed, receipt.transaction.hash = transaction.hash →
    receipt.transaction = transaction

theorem LandedAs.step {step : ChainStep} {successful : Bool}
    (landed : chain.LandedAs hash successful)
    (taken : chain.step step = some chain') : chain'.LandedAs hash successful := by
  obtain ⟨receipt, member, here⟩ := landed
  obtain ⟨account, rfl⟩ | ⟨new, -, -, rfl⟩ := step_cases taken
  · exact ⟨receipt, member, here⟩
  · exact ⟨receipt, List.mem_append_left _ member, here⟩

theorem Landed.step {step : ChainStep} (landed : chain.Landed hash)
    (taken : chain.step step = some chain') : chain'.Landed hash := by
  obtain ⟨receipt, member, here⟩ := landed
  obtain ⟨receipt, member, here, -⟩ :=
    LandedAs.step (show chain.LandedAs hash receipt.successful from ⟨receipt, member, here, rfl⟩)
      taken
  exact ⟨receipt, member, here⟩

theorem used_step {step : ChainStep} (used : transaction.nonce < chain.nonces transaction.sender)
    (taken : chain.step step = some chain') :
    transaction.nonce < chain'.nonces transaction.sender := by
  obtain ⟨account, rfl⟩ | ⟨receipt, -, -, rfl⟩ := step_cases taken
  · exact used.trans_le (le_useNonce chain account _)
  · exact used.trans_le (le_useNonce chain receipt.transaction.sender _)

theorem Identifies.step {step : ChainStep} (identifies : chain.Identifies transaction)
    (taken : chain.step step = some chain') : chain'.Identifies transaction := by
  obtain ⟨account, rfl⟩ | ⟨receipt, pooled, -, rfl⟩ := step_cases taken
  · exact ⟨identifies.pool, identifies.landed⟩
  · refine ⟨identifies.pool, fun other member same => ?_⟩
    obtain old | new := List.mem_append.mp member
    · exact identifies.landed other old same
    · cases List.mem_singleton.mp new
      exact identifies.pool _ pooled same

/-- A landed transaction has used its nonce. -/
theorem WellFormed.used_of_landed (wellFormed : chain.WellFormed)
    (identifies : chain.Identifies transaction) (landed : chain.Landed transaction.hash) :
    transaction.nonce < chain.nonces transaction.sender := by
  obtain ⟨receipt, member, same⟩ := landed
  have used := wellFormed.used receipt member
  rwa [identifies.landed receipt member same] at used

/-- A transaction that has not landed although its nonce is used never lands. -/
theorem not_landed_step {step : ChainStep} (identifies : chain.Identifies transaction)
    (used : transaction.nonce < chain.nonces transaction.sender)
    (missing : ¬ chain.Landed transaction.hash) (taken : chain.step step = some chain') :
    ¬ chain'.Landed transaction.hash := by
  rintro ⟨receipt, member, same⟩
  obtain ⟨account, rfl⟩ | ⟨new, pooled, next, rfl⟩ := step_cases taken
  · exact missing ⟨receipt, member, same⟩
  · obtain old | last := List.mem_append.mp member
    · exact missing ⟨receipt, old, same⟩
    · cases List.mem_singleton.mp last
      rw [identifies.pool _ pooled same] at next
      exact absurd used (by rw [next]; exact lt_irrefl _)

end Chain

/-- The step lands a transaction with the hash. -/
def ChainStep.lands (chain : Chain) (hash : Bytes32) : ChainStep → Bool
  | .land index _ _ => (chain.pool[index]?).any fun transaction => transaction.hash = hash
  | .foreign _ => false

variable {hash : Bytes32}

theorem Chain.landed_of_lands {chain chain' : Chain} {step : ChainStep}
    (lands : step.lands chain hash = true) (taken : chain.step step = some chain') :
    chain'.Landed hash := by
  cases step with
  | foreign account => cases lands
  | land index successful blockNumber =>
    obtain ⟨transaction, found, same⟩ := (Option.any_eq_true _ _).mp lands
    simp only [Chain.step, found] at taken
    split_ifs at taken
    cases taken
    exact ⟨_, List.mem_append_right _ (List.mem_singleton_self _), of_decide_eq_true same⟩

theorem Chain.landed_before {chain chain' : Chain} {step : ChainStep}
    (silent : step.lands chain hash = false) (taken : chain.step step = some chain')
    (landed : chain'.Landed hash) : chain.Landed hash := by
  cases step with
  | foreign account =>
    cases taken
    exact landed
  | land index successful blockNumber =>
    simp only [Chain.step] at taken
    split at taken
    next => cases taken
    next transaction found =>
        split_ifs at taken
        cases taken
        obtain ⟨receipt, member, same⟩ := landed
        obtain old | new := List.mem_append.mp member
        · exact ⟨receipt, old, same⟩
        · cases List.mem_singleton.mp new
          simp only [ChainStep.lands, found, Option.any_some, decide_eq_false_iff_not] at silent
          exact absurd same silent

/-! ## The two reads -/

/-- Every value that a program can return satisfies the predicate. -/
def Returns {α : Type} (P : α → Prop) : Program service α → Prop
  | .done value => P value
  | .call _ next => ∀ response, Returns P (next response)

def Command.readsNonce : Command → Bool
  | .nonceAt _ _ => true
  | _ => false

/-- A settlement that is on its way. -/
structure Settling where
  program : Program service (Except GoError SettleOutcome)
  world : World

inductive SettleLabel where
  /-- The next command of the settlement. -/
  | command (choice : Choice)
  /-- A step of the chain. -/
  | chain (step : ChainStep)
  deriving DecidableEq

section Settling

variable [EthText] [Digest]

def Settling.step (settling : Settling) : SettleLabel → Option Settling
  | .command choice => (settling.program.step execute choice settling.world).map fun
      (program, world) => { program, world }
  | .chain step => (settling.world.chain.step step).map fun chain =>
    { settling with world := { settling.world with chain } }

variable (request : Request)

def Settling.start (world : World) : Settling := ⟨(settleSubmission request).run, world⟩

/-- The request has recorded the transaction: its hash, its signer and its nonce. -/
structure Request.Records (transaction : Transaction) : Prop where
  hash : hexToHash request.transactionHash = transaction.hash
  signer : hexToAddress request.signerAddress = transaction.sender
  nonce : request.nonce = transaction.nonce

/-- The receipt was not there, and the nonce is to be read. -/
def awaitNonce : Attempt SettleOutcome := do
  let confirmedNonce ← rpc "" (call (.nonceAt request (hexToAddress request.signerAddress)))
  if request.nonce < confirmedNonce then pure .gone else pure .unknown

/-- The receipt was there, and the confirmation is to be journaled. -/
def recordReceipt (receipt : Receipt) : Attempt SettleOutcome := do
  record "" (.recordConfirmed request.id (hexToHash request.transactionHash) receipt.blockNumber)
  pure .confirmed

/-- The settlement is between its reads. -/
def Settling.between (settling : Settling) : Bool := settling.program.next?.any Command.readsNonce

/-- The recorded transaction does not land between the reads. -/
def Settling.Apart (hash : Bytes32) (settling : Settling) : SettleLabel → Prop
  | .command _ => True
  | .chain step => ¬ (settling.between ∧ step.lands settling.world.chain hash)

instance (hash : Bytes32) (settling : Settling) (label : SettleLabel) :
    Decidable (settling.Apart hash label) :=
  match label with
  | .command _ => .isTrue trivial
  | .chain _ => inferInstanceAs (Decidable (¬ _))

end Settling

/-- What a verdict says about the chain. A transaction that is gone does not land, whatever
reaches the pool later. -/
def SettleOutcome.Sound (transaction : Transaction) (chain : Chain) : SettleOutcome → Prop
  | .unknown => True
  | .confirmed => chain.LandedAs transaction.hash true
  | .reverted => chain.LandedAs transaction.hash false
  | .gone => ∀ pool, Chain.Identifies { chain with pool } transaction → ∀ steps later,
      Transition.Run Chain.step Transition.Free steps { chain with pool } later →
      ¬ later.Landed transaction.hash

/-- What the settlement has seen when it gives a verdict. -/
def SettleOutcome.Seen (transaction : Transaction) (chain : Chain) : SettleOutcome → Prop
  | .unknown => True
  | .confirmed => chain.LandedAs transaction.hash true
  | .reverted => chain.LandedAs transaction.hash false
  | .gone => transaction.nonce < chain.nonces transaction.sender

section Phases

variable {request : Request} {transaction : Transaction}

theorem SettleOutcome.Seen.step {verdict : SettleOutcome} {chain chain' : Chain} {step : ChainStep}
    (seen : verdict.Seen transaction chain) (taken : chain.step step = some chain') :
    verdict.Seen transaction chain' := by
  cases verdict with
  | unknown => trivial
  | confirmed | reverted => exact Chain.LandedAs.step seen taken
  | gone => exact Chain.used_step seen taken

variable [EthText]

/-- How far a settlement is: it has read nothing, or it has found no receipt, or its verdict is
settled. What holds between the reads holds of a transaction that is gone. -/
inductive Settling.Phase (request : Request) (transaction : Transaction) (holds : Chain → Prop) :
    Settling → Prop where
  | asking {world} : Phase request transaction holds (.start request world)
  | waiting {world} : holds world.chain →
      Phase request transaction holds ⟨(awaitNonce request).run, world⟩
  | decided {program world} (verdict : SettleOutcome) : verdict.Seen transaction world.chain →
      (verdict = .gone → holds world.chain) →
      program.Only (fun c : Command => c.readsNonce = false) →
      Returns (fun result => ∀ value, result = .ok value → value = verdict) program →
      Phase request transaction holds ⟨program, world⟩

/-- Nothing is sent, and the transaction can be told by its hash. -/
structure Settling.Regular (transaction : Transaction) (settling : Settling) : Prop where
  plain : IsPlain settling.program
  wellFormed : settling.world.chain.WellFormed
  identifies : settling.world.chain.Identifies transaction

variable [Digest] {settling settling' : Settling} {choice : Choice} {label : SettleLabel}
variable {program : Program service (Except GoError SettleOutcome)}

theorem Command.plain_chain {c : Command} {response : Response c} {world world' : World}
    (plain : c.plain = true) (executed : execute c choice world = some (response, world')) :
    world'.chain = world.chain := by
  cases execute_effect executed with
  | sent => simp [Command.plain, Command.sends] at plain
  | _ => rfl

theorem Settling.Regular.step (regular : settling.Regular transaction)
    (taken : settling.step label = some settling') : settling'.Regular transaction := by
  cases label with
  | command choice =>
    obtain ⟨⟨program, world⟩, stepped, rfl⟩ := Option.map_eq_some_iff.mp taken
    obtain ⟨c, response, -, plain, executed, rest⟩ := regular.plain.step_cases stepped
    have same := Command.plain_chain plain executed
    exact ⟨rest, same ▸ regular.wellFormed, same ▸ regular.identifies⟩
  | chain step =>
    obtain ⟨chain, stepped, rfl⟩ := Option.map_eq_some_iff.mp taken
    exact ⟨regular.plain, regular.wellFormed.step stepped, regular.identifies.step stepped⟩

theorem returns_step {program' : Program service (Except GoError SettleOutcome)}
    {P : Except GoError SettleOutcome → Prop} {world world' : World} (returns : Returns P program)
    (stepped : program.step execute choice world = some (program', world')) :
    Returns P program' := by
  cases program with
  | done value => cases stepped
  | call c next =>
    obtain ⟨⟨response, world''⟩, -, same⟩ := Option.map_eq_some_iff.mp stepped
    cases same
    exact returns response

omit [EthText] [Digest] in
theorem transactionReceipt_missing {error : GoError} {world world' : World}
    (executed : world.transactionReceipt hash choice = some (.error error, world'))
    (missing : error.notFound = true) : ¬ world.chain.Landed hash := by
  rintro ⟨receipt, member, same⟩
  cases choice <;> simp only [World.transactionReceipt] at executed <;> try cases executed
  · split at executed
    next => cases executed
    next absent =>
        exact List.find?_eq_none.mp absent receipt member (decide_eq_true same)
  · split_ifs at executed with present
    cases executed
    exact present missing

variable {holds : Chain → Prop}

/-- After the first read. -/
theorem Settling.Phase.asked {world world' : World} (records : request.Records transaction)
    (first : ∀ chain : Chain, ¬ chain.Landed transaction.hash → holds chain)
    (stepped : (settleSubmission request).run.step execute choice world = some (program, world')) :
    Phase request transaction holds ⟨program, world'⟩ := by
  obtain ⟨⟨response, world''⟩, executed, same⟩ := Option.map_eq_some_iff.mp stepped
  cases same
  have chain : world'.chain = world.chain := Command.plain_chain rfl executed
  cases response with
  | ok receipt =>
    obtain ⟨member, hash⟩ := World.transactionReceipt_answer executed
    rw [records.hash] at hash
    change Phase request transaction holds ⟨(if receipt.successful = true
      then recordReceipt request receipt else pure .reverted : Attempt SettleOutcome).run, world'⟩
    split_ifs with success
    · refine .decided .confirmed ⟨receipt, chain ▸ member, hash, success⟩ nofun ?_ ?_
      · exact only_bind (only_record rfl fun _ => rfl) fun _ => trivial
      · intro now outcome
        cases outcome <;> rintro value ⟨⟩ <;> rfl
    · refine .decided .reverted ⟨receipt, chain ▸ member, hash, eq_false_of_ne_true success⟩
        nofun trivial ?_
      rintro value ⟨⟩
      rfl
  | error error =>
    change Phase request transaction holds ⟨(if error.notFound = true then awaitNonce request
      else throw error : Attempt SettleOutcome).run, world'⟩
    split_ifs with missing
    · refine .waiting (first _ ?_)
      rw [chain, ← records.hash]
      exact transactionReceipt_missing executed missing
    · refine .decided .unknown trivial nofun trivial ?_
      rintro value ⟨⟩

/-- After the second read. -/
theorem Settling.Phase.waited {world world' : World} (records : request.Records transaction)
    (kept : holds world.chain)
    (stepped : (awaitNonce request).run.step execute choice world = some (program, world')) :
    Phase request transaction holds ⟨program, world'⟩ := by
  obtain ⟨⟨response, world''⟩, executed, same⟩ := Option.map_eq_some_iff.mp stepped
  cases same
  have chain : world'.chain = world.chain := Command.plain_chain rfl executed
  cases response with
  | ok confirmedNonce =>
    have answer := World.nonceAt_answer executed
    rw [records.signer] at answer
    change Phase request transaction holds ⟨(if request.nonce < confirmedNonce then pure .gone
      else pure .unknown : Attempt SettleOutcome).run, world'⟩
    split_ifs with passed
    · refine .decided .gone ?_ (fun _ => chain ▸ kept) trivial ?_
      · change transaction.nonce < world'.chain.nonces transaction.sender
        rw [chain, ← answer, ← records.nonce]
        exact passed
      · rintro value ⟨⟩
        rfl
    · refine .decided .unknown trivial nofun trivial ?_
      rintro value ⟨⟩
      rfl
  | error error =>
    refine .decided .unknown trivial nofun trivial ?_
    rintro value ⟨⟩

theorem Settling.Phase.step (records : request.Records transaction)
    (first : ∀ chain : Chain, ¬ chain.Landed transaction.hash → holds chain)
    (kept : ∀ step chain', label = .chain step →
      settling.between = true ∨
        transaction.nonce < settling.world.chain.nonces transaction.sender →
      settling.world.chain.step step = some chain' → holds settling.world.chain → holds chain')
    (regular : settling.Regular transaction) (phase : settling.Phase request transaction holds)
    (taken : settling.step label = some settling') :
    settling'.Phase request transaction holds := by
  cases label with
  | command choice =>
    obtain ⟨⟨program, world⟩, stepped, rfl⟩ := Option.map_eq_some_iff.mp taken
    cases phase with
    | asking => exact .asked records first stepped
    | waiting here => exact .waited records here stepped
    | decided verdict seen here silent returns =>
      obtain ⟨c, response, -, plain, executed, -⟩ := regular.plain.step_cases stepped
      obtain ⟨-, -, -, -, -, silent⟩ := silent.step_cases stepped
      have same := Command.plain_chain plain executed
      exact .decided verdict (same ▸ seen) (fun gone => same ▸ here gone) silent
        (returns_step returns stepped)
  | chain step =>
    obtain ⟨chain, stepped, rfl⟩ := Option.map_eq_some_iff.mp taken
    cases phase with
    | asking => exact .asking
    | waiting here => exact .waiting (kept step chain rfl (.inl rfl) stepped here)
    | decided verdict seen here silent returns =>
      refine .decided verdict (seen.step stepped) (fun gone => ?_) silent returns
      subst gone
      exact kept step chain rfl (.inr seen) stepped (here rfl)

omit [EthText] [Digest] in
/-- A transaction that is gone has used its nonce and has not landed. -/
theorem SettleOutcome.sound_iff {verdict : SettleOutcome} {chain : Chain}
    (identifies : chain.Identifies transaction) (seen : verdict.Seen transaction chain) :
    verdict.Sound transaction chain ↔ (verdict = .gone → ¬ chain.Landed transaction.hash) := by
  cases verdict with
  | unknown => exact ⟨fun _ => by rintro ⟨⟩, fun _ => trivial⟩
  | confirmed | reverted => exact ⟨fun _ => by rintro ⟨⟩, fun _ => seen⟩
  | gone =>
    constructor
    · intro sound _
      exact sound chain.pool identifies [] chain (.refl _)
    · intro missing pool identifies' steps later run
      refine (run.invariant (I := fun later => later.Identifies transaction ∧
        transaction.nonce < later.nonces transaction.sender ∧
        ¬ later.Landed transaction.hash) ⟨identifies', seen, missing rfl⟩ ?_).2.2
      intro before step after holds _ taken
      obtain ⟨identifies, used, missing⟩ := holds
      exact ⟨identifies.step taken, Chain.used_step used taken,
        Chain.not_landed_step identifies used missing taken⟩

/-- A settlement that was between its reads when the transaction landed takes it for gone. -/
structure Settling.Misled (request : Request) (transaction : Transaction) (settling : Settling) :
    Prop where
  regular : settling.Regular transaction
  landed : settling.world.chain.Landed transaction.hash
  phase : settling.program = (awaitNonce request).run ∨
    Returns (fun result => ∀ value, result = .ok value → value = .gone) settling.program

theorem Settling.Misled.step (records : request.Records transaction)
    (misled : settling.Misled request transaction) (taken : settling.step label = some settling') :
    settling'.Misled request transaction := by
  have regular := misled.regular.step taken
  cases label with
  | command choice =>
    obtain ⟨⟨program, world⟩, stepped, rfl⟩ := Option.map_eq_some_iff.mp taken
    obtain ⟨c, response, -, plain, executed, -⟩ := misled.regular.plain.step_cases stepped
    have same := Command.plain_chain plain executed
    refine ⟨regular, same ▸ misled.landed, .inr ?_⟩
    obtain waiting | returns := misled.phase
    · rw [waiting] at stepped
      obtain ⟨⟨response, world''⟩, executed, same⟩ := Option.map_eq_some_iff.mp stepped
      cases same
      cases response with
      | ok confirmedNonce =>
        have used := misled.regular.wellFormed.used_of_landed misled.regular.identifies
          misled.landed
        rw [← records.nonce, ← records.signer, ← World.nonceAt_answer executed] at used
        change Returns _ (ExceptT.run (ite (request.nonce < confirmedNonce) _ _))
        rw [if_pos used]
        rintro value ⟨⟩
        rfl
      | error error => rintro value ⟨⟩
    · exact returns_step returns stepped
  | chain step =>
    obtain ⟨chain, stepped, rfl⟩ := Option.map_eq_some_iff.mp taken
    exact ⟨regular, misled.landed.step stepped, misled.phase⟩

omit [Digest] in
theorem Settling.Phase.verdict {verdict : SettleOutcome}
    (phase : settling.Phase request transaction holds)
    (done : settling.program = .done (.ok verdict)) :
    verdict.Seen transaction settling.world.chain ∧
      (verdict = .gone → holds settling.world.chain) := by
  cases phase with
  | asking => cases done
  | waiting here => cases done
  | decided verdict seen here silent returns =>
    cases done
    cases returns _ rfl
    exact ⟨seen, here⟩

omit [Digest] in
/-- Only between the reads is the nonce read next. -/
theorem Settling.Phase.waits (phase : settling.Phase request transaction holds)
    (between : settling.between = true) : settling.program = (awaitNonce request).run := by
  obtain ⟨c, next, reads⟩ := (Option.any_eq_true _ _).mp between
  cases phase with
  | asking =>
    cases next
    cases reads
  | waiting here => rfl
  | decided verdict seen here silent returns =>
    rw [silent.next next] at reads
    cases reads

/-- A run that does not end misled meets the condition at every step. -/
theorem Settling.apart_of_run {labels : List SettleLabel} {final : Settling}
    (records : request.Records transaction)
    (run : Transition.Run Settling.step Transition.Free labels settling final)
    (regular : settling.Regular transaction)
    (phase : settling.Phase request transaction fun _ => True)
    (clear : ¬ final.Misled request transaction) :
    Transition.Run Settling.step (Settling.Apart transaction.hash) labels settling final := by
  induction run with
  | refl => exact .refl _
  | @cons label _ settling _ _ _ taken rest ih =>
    have regular' := regular.step taken
    have phase' := phase.step records (fun _ _ => trivial) (fun _ _ _ _ _ _ => trivial) regular
      taken
    refine .cons ?_ taken (ih regular' phase' clear)
    cases label with
    | command choice => trivial
    | chain step =>
      rintro ⟨between, lands⟩
      have waits := phase.waits between
      obtain ⟨chain, stepped, rfl⟩ := Option.map_eq_some_iff.mp taken
      have misled : Settling.Misled request transaction
          { settling with world := { settling.world with chain } } :=
        ⟨regular', Chain.landed_of_lands lands stepped, .inl waits⟩
      exact clear (rest.invariant misled fun misled _ taken => misled.step records taken)

omit [EthText] [Digest] in
theorem Settling.Apart.keeps {step : ChainStep} {chain' : Chain}
    (apart : settling.Apart transaction.hash label) (regular : settling.Regular transaction)
    (here : label = .chain step) (open_ : settling.between = true ∨
      transaction.nonce < settling.world.chain.nonces transaction.sender)
    (taken : settling.world.chain.step step = some chain')
    (missing : ¬ settling.world.chain.Landed transaction.hash) :
    ¬ chain'.Landed transaction.hash := by
  subst here
  obtain between | used := open_
  · refine fun landed => missing (Chain.landed_before ?_ taken landed)
    exact eq_false_of_ne_true fun lands => apart ⟨between, lands⟩
  · exact Chain.not_landed_step regular.identifies used missing taken

/-- The verdicts of a settlement are sound exactly if the recorded transaction does not land
between its reads. -/
theorem settlement_sound_iff {world world' : World} {labels : List SettleLabel}
    {verdict : SettleOutcome} (records : request.Records transaction)
    (wellFormed : world.chain.WellFormed) (identifies : world.chain.Identifies transaction)
    (run : Transition.Run Settling.step Transition.Free labels (.start request world)
      ⟨.done (.ok verdict), world'⟩) :
    verdict.Sound transaction world'.chain ↔
      Transition.Run Settling.step (Settling.Apart transaction.hash) labels
        (.start request world) ⟨.done (.ok verdict), world'⟩ := by
  have starts : (Settling.start request world).Regular transaction :=
    ⟨plain_settleSubmission request, wellFormed, identifies⟩
  constructor
  · intro sound
    refine Settling.apart_of_run records run starts .asking fun misled => ?_
    obtain waiting | returns := misled.phase
    · cases waiting
    · cases returns verdict rfl
      exact sound _ misled.regular.identifies [] _ (.refl _) misled.landed
  · intro apart
    obtain ⟨regular, phase⟩ := apart.invariant
      (I := fun settling => settling.Regular transaction ∧
        settling.Phase request transaction fun chain => ¬ chain.Landed transaction.hash)
      ⟨starts, .asking⟩ fun ⟨regular, phase⟩ apart taken =>
        ⟨regular.step taken, phase.step records (fun _ missing => missing)
          (fun _ _ here open_ stepped missing => apart.keeps regular here open_ stepped missing)
          regular taken⟩
    obtain ⟨seen, missing⟩ := phase.verdict rfl
    exact (SettleOutcome.sound_iff regular.identifies seen).mpr missing

end Phases

namespace Demo

def recorded : Transaction :=
  { chainID := 7777, nonce := 0, gasTipCap := 1, gasFeeCap := 15, gas := transferGas
    recipient := 17, value := profile.amountPerRequest, sender := 32, hash := 1 }

/-- The request that was funded with the transaction. -/
def submitted : Request :=
  { id := text "req-1", status := .submitted, address := @addressHex lowerHex 17
    amountBaseUnits := intText profile.amountPerRequest, createdAt := noon, updatedAt := noon
    transactionHash := @hashHex lowerHex 1, nonce := 0
    signerAddress := @addressHex lowerHex 32 }

def pending : World := { store := start, signer := 32, chain := { pool := [recorded] } }

theorem submitted_records : @Request.Records lowerHex submitted recorded := by
  refine @Request.Records.mk lowerHex _ _ ?_ ?_ rfl <;> decide +kernel

theorem pending_wellFormed : pending.chain.WellFormed := ⟨nofun, .nil⟩

theorem pending_identifies : pending.chain.Identifies recorded := by
  refine ⟨fun other member _ => ?_, nofun⟩
  exact List.mem_singleton.mp member

/-- The settlement has ended with the verdict. -/
def Settling.gives (verdict : SettleOutcome) (settling : Settling) : Bool :=
  match settling.program with
  | .done (.ok given) => given = verdict
  | _ => false

theorem Settling.program_of_gives {verdict : SettleOutcome} {settling : Settling}
    (gives : Settling.gives verdict settling = true) : settling.program = .done (.ok verdict) := by
  unfold Settling.gives at gives
  split at gives
  next given done => rw [done, of_decide_eq_true gives]
  next => cases gives

end Demo

theorem landed_transaction_gone : ∃ world',
    @Transition.Run _ _ (@Settling.step lowerHex Digest.numbered) Transition.Free
      [.command .ok, .chain (.land 0 true 1), .command .ok]
      (@Settling.start lowerHex Demo.submitted Demo.pending) ⟨.done (.ok .gone), world'⟩ ∧
    world'.chain.LandedAs Demo.recorded.hash true := by
  obtain ⟨⟨program, world'⟩, run, gives⟩ := Transition.run_of_execute_any
    (show (Transition.execute (@Settling.step lowerHex Digest.numbered)
      [.command .ok, .chain (.land 0 true 1), .command .ok]
      (@Settling.start lowerHex Demo.submitted Demo.pending)).any (fun settling =>
        Demo.Settling.gives .gone settling = true ∧
        ∃ receipt ∈ settling.world.chain.landed,
          receipt.transaction.hash = Demo.recorded.hash ∧ receipt.successful = true)
      by decide +kernel)
  obtain ⟨gives, landed⟩ := of_decide_eq_true gives
  cases Demo.Settling.program_of_gives gives
  exact ⟨world', run, landed⟩

theorem settlement_sound_iff_demo : ∃ world',
    @Transition.Run _ _ (@Settling.step lowerHex Digest.numbered)
      (Settling.Apart Demo.recorded.hash)
      [.command .ok, .chain (.foreign 32), .command .ok]
      (@Settling.start lowerHex Demo.submitted Demo.pending) ⟨.done (.ok .gone), world'⟩ ∧
    SettleOutcome.gone.Sound Demo.recorded world'.chain := by
  obtain ⟨⟨program, world'⟩, run, gives⟩ := Transition.run_of_execute_any
    (show (Transition.execute (Transition.restrict (@Settling.step lowerHex Digest.numbered)
        (Settling.Apart Demo.recorded.hash))
      [.command .ok, .chain (.foreign 32), .command .ok]
      (@Settling.start lowerHex Demo.submitted Demo.pending)).any
        (Demo.Settling.gives .gone) by decide +kernel)
  cases Demo.Settling.program_of_gives gives
  have apart := run.of_restrict
  refine ⟨world', apart, ?_⟩
  exact (@settlement_sound_iff _ _ lowerHex Digest.numbered _ _ _ _ Demo.submitted_records
    Demo.pending_wellFormed Demo.pending_identifies (apart.mono fun _ _ _ => trivial)).mpr apart

end Torium.Faucet
