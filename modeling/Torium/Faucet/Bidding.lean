import Torium.Faucet.Payments
import Torium.Lib.Monitor
import Mathlib.Algebra.Order.Ring.Int
import Mathlib.Tactic.Linarith
import Mathlib.Tactic.Positivity
import Mathlib.Tactic.Ring

/-!
# What replacements bid

`replaceSubmission` multiplies the fees that the node asks for now, and not those of the
transaction that is replaced. The multiplier counts the replacements of one call of `process`
and starts again at one with the next call. So a replacement outbids the earlier transactions
of its nonce only as long as the fees that are read do not fall by more than the multiplier
has grown.
-/

namespace Torium.Faucet

open Evm Concurrent Attempt

/-! ## Bids -/

/-- What the worker has read from the node, and `replacementBumps` at the start of a round. -/
structure Readings where
  baseFee : Int := 0
  tip : Int := 0
  bumps : Int := 0

/-- A transaction that was signed, what was read before, and the number of the replacement. -/
structure Bid where
  purpose : Purpose
  unsigned : UnsignedTransaction
  baseFee : Int
  tip : Int
  bump : Int

def Purpose.isReplacement : Purpose → Bool
  | .replace _ => true
  | .fund _ | .drain => false

theorem Purpose.isReplacement.named {purpose : Purpose} (replaces : purpose.isReplacement = true) :
    purpose.requestID?.isSome = true := by
  cases purpose <;> first | rfl | cases replaces

namespace Bid

def multiplier (bid : Bid) : Int := 1 + bid.bump

/-- The fees are the ones that were read, times the multiplier. -/
def Priced (bid : Bid) : Prop :=
  bid.unsigned.gasTipCap = bid.multiplier * bid.tip ∧
    bid.unsigned.gasFeeCap = bid.multiplier * (2 * bid.baseFee + bid.multiplier * bid.tip)

/-- A replacement and an earlier transaction of its request at its nonce. -/
def Replaces (later earlier : Bid) : Prop :=
  later.purpose.isReplacement = true ∧
    earlier.purpose.requestID? = later.purpose.requestID? ∧
    earlier.unsigned.nonce = later.unsigned.nonce

instance (later earlier : Bid) : Decidable (later.Replaces earlier) :=
  inferInstanceAs (Decidable (_ ∧ _))

/-- The fees that were read have not fallen further than the multiplier has grown, by the price
bump of the mempool. -/
def Sustains (percent : Int) (later earlier : Bid) : Prop :=
  (100 + percent) * earlier.multiplier * earlier.tip ≤ 100 * later.multiplier * later.tip ∧
    (100 + percent) * earlier.multiplier *
        (2 * earlier.baseFee + earlier.multiplier * earlier.tip) ≤
      100 * later.multiplier * (2 * later.baseFee + later.multiplier * later.tip)

end Bid

/-- The mempool takes a transaction in the place of another one when both caps exceed those of
the other one by the price bump, in percent. -/
def Outbids (percent : Int) (later earlier : UnsignedTransaction) : Prop :=
  (100 + percent) * earlier.gasTipCap ≤ 100 * later.gasTipCap ∧
    (100 + percent) * earlier.gasFeeCap ≤ 100 * later.gasFeeCap

/-- `MempoolPriceBumpPercent` of the fee policy. -/
def mempoolPriceBumpPercent : Int := 10

section Market

variable {percent : Int} {earlier later : Bid}

theorem Bid.outbids_iff (first : earlier.Priced) (second : later.Priced) :
    Outbids percent later.unsigned earlier.unsigned ↔ later.Sustains percent earlier := by
  rw [Outbids, Sustains, first.1, first.2, second.1, second.2]
  simp only [mul_assoc]

end Market

/-! ## The worker -/

/-- The tip that is used after an answer of the node. -/
def tipRead : Except GoError Int → Int
  | .ok tip => if 0 < tip then tip else 1000000000
  | .error _ => 1000000000

namespace Readings

/-- What is known after the response to a command. -/
def watch : (c : Command) → Response c → Readings → Readings
  | .headBaseFee, .ok baseFee, readings => { readings with baseFee }
  | .suggestGasTipCap, answer, readings => { readings with tip := tipRead answer }
  | _, _, readings => readings

/-- The bid of a transaction that is signed now. -/
def bid (readings : Readings) (purpose : Purpose) (unsigned : UnsignedTransaction) : Bid where
  purpose
  unsigned
  baseFee := readings.baseFee
  tip := readings.tip
  bump := if purpose.isReplacement then readings.bumps + 1 else 0

end Readings

/-- What is signed for a request is priced by the readings. -/
def pricing : Monitor service Readings where
  watch := Readings.watch
  admits
    | .sign purpose unsigned, readings =>
      purpose.requestID?.isSome = true → (readings.bid purpose unsigned).Priced
    | _, _ => True

theorem watch_bumps {c : Command} {response : Response c} {readings : Readings} :
    (readings.watch c response).bumps = readings.bumps := by
  cases c with
  | headBaseFee => cases response <;> rfl
  | _ => rfl

/-- All commands of the program sign nothing for a request. -/
abbrev IsUnsigned {α : Type} (program : Program service α) : Prop :=
  program.Only fun c : Command => c.signsFor = false

theorem IsPlain.unsigned {α : Type} {program : Program service α} (plain : IsPlain program) :
    IsUnsigned program := by
  refine Program.Only.mono (fun c plain => ?_) plain
  obtain ⟨-, silent⟩ := Bool.and_eq_true_iff.mp plain
  rw [Bool.not_eq_true', Bool.or_eq_false_iff] at silent
  exact silent.2

/-- `replacementBumps` when a round of the loop starts. -/
def WorkerState.bumps : WorkerState → Int
  | .processing _ progress => progress.replacementBumps
  | .waiting | .stopped => 0

section Worker

variable {α β : Type} {readings : Readings} {bumps : Int} {progress : Progress}
variable {requestID : GoString} {request : Request}

/-- What the program signs for a request is priced by the readings, when so many replacements are
counted. -/
def Prices (bumps : Int) {α : Type} (program : Program service α) : Prop :=
  ∀ readings : Readings, readings.bumps = bumps →
    Monitored pricing program (fun _ readings => readings.bumps = bumps) readings

namespace Prices

theorem unsigned {program : Program service α} (unsigned : IsUnsigned program) :
    Prices bumps program := by
  intro readings counts
  refine Monitored.keeps (Program.Only.mono ?_ unsigned) counts
  intro c unsigned readings counts
  refine ⟨?_, fun response => watch_bumps.trans counts⟩
  cases c with
  | sign purpose => exact fun signs => by cases signs.symm.trans unsigned
  | _ => trivial

theorem bind {program : Program service α} {next : α → Program service β}
    (first : Prices bumps program) (rest : ∀ value, Prices bumps (next value)) :
    Prices bumps (program >>= next) := fun readings counts =>
  .bind ((first readings counts).mono fun value readings => rest value readings)

theorem call {c : Command} {next : Response c → Program service β} (unsigned : c.signsFor = false)
    (rest : ∀ response, Prices bumps (next response)) :
    Prices bumps (Faucet.call c >>= next) :=
  bind (Prices.unsigned (only_call unsigned)) rest

theorem attempt {first : Attempt α} {next : α → Attempt β} (unsigned : IsUnsigned first.run)
    (rest : ∀ value, Prices bumps (next value).run) : Prices bumps (first >>= next).run := by
  refine bind (.unsigned unsigned) fun result => ?_
  cases result with
  | ok value => exact rest value
  | error error => exact .unsigned trivial

/-- The tip that is used is the one that is noted. -/
theorem suggestedTip_reads : MonitoredAttempt pricing suggestedTip
    (fun tip seen => seen = { readings with tip }) (fun _ _ => False) readings := by
  refine MonitoredAttempt.bind (MonitoredAttempt.lift (Monitored.command trivial fun answer => ?_))
  cases answer with
  | error error => exact Monitored.done rfl
  | ok tip =>
    dsimp only
    split_ifs with positive
    · refine Monitored.done ?_
      exact congrArg (Readings.mk _ · _) (if_pos positive)
    · refine Monitored.done ?_
      exact congrArg (Readings.mk _ · _) (if_neg positive)

/-- The fees that are read stay known until the transaction is signed. -/
theorem market {next : Int → Int → Attempt β}
    (rest : ∀ readings : Readings, readings.bumps = bumps →
      Monitored pricing (next readings.baseFee readings.tip).run
        (fun _ readings => readings.bumps = bumps) readings) :
    Prices bumps (do
      let baseFee ← rpc "read base fee: " (Faucet.call .headBaseFee)
      let tip ← suggestedTip
      next baseFee tip : Attempt β).run := by
  intro readings counts
  refine ⟨trivial, fun answer => ?_⟩
  cases answer with
  | error error => exact counts
  | ok baseFee =>
    change Monitored pricing (suggestedTip >>= next baseFee).run _ { readings with baseFee }
    refine Monitored.bind (suggestedTip_reads.mono fun result seen holds => ?_)
    cases result with
    | error error => cases holds
    | ok tip =>
      cases holds
      exact rest { readings with baseFee, tip } counts

theorem sign {context : String} {purpose : Purpose} {transaction : UnsignedTransaction}
    {next : Transaction × Address → Attempt β} (counts : readings.bumps = bumps)
    (priced : (readings.bid purpose transaction).Priced)
    (rest : ∀ signed, IsUnsigned (next signed).run) :
    Monitored pricing (rpc context (Faucet.call (.sign purpose transaction)) >>= next).run
      (fun _ readings => readings.bumps = bumps) readings := by
  refine ⟨fun _ => priced, fun answer => ?_⟩
  cases answer with
  | error error => exact counts
  | ok signed => exact Prices.unsigned (rest signed) readings counts

end Prices

theorem prices_retryLater : Prices bumps (retryLater progress) :=
  .unsigned idle_retryLater.inert.plain.unsigned

theorem prices_giveUp {reason : GoString} : Prices bumps (giveUp requestID reason) :=
  .unsigned discreet_giveUp.plain.unsigned

variable [EthText] {profile : Profile}

theorem prices_replaceSubmission :
    Prices bumps (replaceSubmission profile request (bumps + 1)).run := by
  refine .attempt only_must fun amount => .attempt (only_rpc (only_call rfl)) fun chainID => ?_
  refine .attempt only_require fun _ => .attempt (only_ask rfl) fun signerAddress => ?_
  refine .attempt only_require fun _ => .market fun readings counts => ?_
  refine Prices.sign counts ?_ fun signed => ?_
  · rw [Bid.Priced, Bid.multiplier, Readings.bid, Purpose.isReplacement, if_pos rfl, counts]
    exact ⟨mul_comm _ _, by ring⟩
  · exact only_bind (only_record rfl fun _ => rfl) fun _ => only_broadcast rfl

theorem prices_fundOnce : Prices bumps (fundOnce profile requestID).run := by
  refine .attempt (only_ask rfl) fun found => .attempt only_must fun request => ?_
  refine .attempt only_must fun amount => .attempt (only_rpc (only_call rfl)) fun chainID => ?_
  refine .attempt only_require fun _ => .attempt (only_ask rfl) fun signerAddress => ?_
  refine .attempt (only_rpc (only_call rfl)) fun nonce => .market fun readings counts => ?_
  refine Prices.sign counts ?_ fun signed => ?_
  · rw [Bid.Priced, Bid.multiplier, Readings.bid, Purpose.isReplacement, if_neg Bool.false_ne_true]
    exact ⟨(one_mul _).symm, by ring⟩
  · refine only_bind only_require fun _ => only_bind (only_record rfl fun _ => rfl) fun _ => ?_
    refine only_bind (only_broadcast rfl) fun _ => ?_
    refine only_bind idle_waitForReceipt.inert.plain.unsigned fun receipt => ?_
    exact only_bind only_require fun _ => only_record rfl fun _ => rfl

theorem prices_attemptFunding :
    Prices bumps (attemptFunding profile requestID progress) := by
  refine .call rfl fun signerAddress => .call rfl fun fenced => ?_
  split_ifs
  · exact prices_retryLater
  · refine .bind prices_fundOnce fun result => ?_
    rcases result with error | _
    · dsimp only
      split_ifs
      · exact .unsigned trivial
      · exact prices_giveUp
      · exact prices_retryLater
    · exact .call rfl fun _ => .unsigned trivial

theorem prices_awaitOrReplace :
    Prices progress.replacementBumps (awaitOrReplace profile request progress) := by
  refine .call rfl fun now => ?_
  extract_lets since
  split
  · exact .bind prices_replaceSubmission fun _ => prices_retryLater
  · exact prices_retryLater

theorem prices_settleAndContinue :
    Prices progress.replacementBumps (settleAndContinue profile requestID request progress) := by
  refine .bind (.unsigned (plain_settleSubmission request).unsigned) fun result => ?_
  rcases result with error | outcome
  · exact prices_retryLater
  · cases outcome with
    | confirmed => exact .call rfl fun _ => .unsigned trivial
    | reverted => exact prices_giveUp
    | gone => exact prices_attemptFunding
    | unknown => exact prices_awaitOrReplace

theorem prices_advance :
    Prices progress.replacementBumps (advance profile requestID request progress) := by
  refine .call rfl fun paused => ?_
  split
  · exact prices_retryLater
  · refine .call rfl fun state => ?_
    split_ifs
    · exact prices_retryLater
    · exact prices_settleAndContinue
    · exact prices_attemptFunding

theorem prices_processOnce :
    Prices progress.replacementBumps (processOnce profile requestID progress) := by
  refine .call rfl fun stopping => ?_
  split_ifs
  · exact .unsigned trivial
  · refine .call rfl fun found => ?_
    cases found with
    | none => exact .unsigned trivial
    | some request =>
      dsimp only
      split
      · exact .unsigned trivial
      · exact .unsigned trivial
      · exact .unsigned trivial
      · exact prices_advance
      · exact prices_advance

theorem prices_workerTurn (state : WorkerState) :
    Prices state.bumps (workerTurn profile state) := by
  cases state with
  | waiting =>
    refine .call rfl fun found => ?_
    cases found <;> exact .unsigned trivial
  | processing requestID progress =>
    refine .bind prices_processOnce fun again => ?_
    cases again <;> exact .unsigned trivial
  | stopped => exact .unsigned trivial

end Worker

/-! ## Every run -/

/-- The system, what its worker has read, and what it has signed. -/
structure Bidding where
  system : System
  readings : Readings := {}
  bids : List Bid := []

namespace Bidding

section Step

variable [EthText] [Digest]

def readingsAfter (bidding : Bidding) : Label → Readings
  | .worker choice =>
    match bidding.system.stage with
    | .serving { worker := .done state, .. } => { bidding.readings with bumps := state.bumps }
    | .serving { worker := program, .. } =>
      program.sees pricing execute choice bidding.system.world bidding.readings
    | _ => bidding.readings
  | _ => bidding.readings

/-- A transaction is signed when the signer does not fail. -/
def bidsAfter (bidding : Bidding) : Label → List Bid
  | .worker (.hash hash) =>
    match bidding.system.stage.next? (.worker (.hash hash)) with
    | some (.sign purpose unsigned) =>
      bidding.bids ++ [bidding.readings.bid purpose unsigned]
    | _ => bidding.bids
  | _ => bidding.bids

def step (profile : Profile) (bidding : Bidding) (label : Label) : Option Bidding :=
  (bidding.system.step profile label).map fun system =>
    { system
      readings := bidding.readingsAfter label
      bids := bidding.bidsAfter label }

variable {profile : Profile} {bidding bidding' : Bidding} {label : Label} {threads : Threads}
variable {system : System}

/-- What the worker is about to sign is priced by what it has read. -/
def Watched (system : System) (readings : Readings) : Prop :=
  ∀ threads, system.stage = .serving threads →
    Monitored pricing threads.worker (fun _ _ => True) readings

/-- All bids for requests are priced by what was read. -/
def Priced (bids : List Bid) : Prop :=
  ∀ bid ∈ bids, bid.purpose.requestID?.isSome = true → bid.Priced

omit [Digest] in
theorem prices_turn {readings : Readings} (state : WorkerState) :
    Monitored pricing (workerTurn profile state) (fun _ _ => True)
      { readings with bumps := state.bumps } :=
  (prices_workerTurn state _ rfl).mono fun _ _ _ => trivial

theorem readings_step (watched : Watched bidding.system bidding.readings)
    (taken : bidding.system.step profile label = some system) :
    Watched system (bidding.readingsAfter label) := by
  obtain ⟨⟨world, stage⟩, readings, bids⟩ := bidding
  rintro threads' serving
  cases System.step_takes taken with
  | start booted =>
    obtain ⟨store, -, -, rfl⟩ := boot_cases booted
    cases serving
  | crash | main | abort => cases serving
  | ready =>
    cases serving
    refine ⟨trivial, fun found => ?_⟩
    cases found <;> exact Monitored.done trivial
  | @worker _ _ threads worker choice stepped =>
    cases serving
    have monitored := watched threads rfl
    obtain ⟨program, probe, handlers⟩ := threads
    cases program with
    | done state =>
      cases stepped
      exact prices_turn state
    | call c next => exact monitored.step stepped
  | shutdown => exact watched threads' serving
  | @probe _ _ threads =>
    cases serving
    exact watched threads rfl
  | @open_ _ threads =>
    cases serving
    exact watched threads rfl
  | @handler _ _ threads =>
    cases serving
    exact watched threads rfl
  | chain => exact watched threads' serving

omit [EthText] [Digest] in
theorem bids_step (watched : Watched bidding.system bidding.readings)
    (priced : Priced bidding.bids) :
    Priced (bidding.bidsAfter label) := by
  unfold bidsAfter
  split
  · split
    · next issued =>
        intro bid member signs
        obtain member | member := List.mem_append.mp member
        · exact priced bid member signs
        · cases List.mem_singleton.mp member
          obtain ⟨⟨world, stage⟩, readings, bids⟩ := bidding
          cases stage with
          | serving threads => exact (watched threads rfl).next issued signs
          | down | starting => cases issued
    · exact priced
  · exact priced

end Step

end Bidding

/-- In every run, and whatever the node answers meanwhile, the replacements outbid the earlier
transactions of their nonces by the price bump of the mempool if and only if the fees that were
read have not fallen further than the multiplier has grown. The multiplier is the number of the
replacement in its call of `process`, plus one. -/
theorem replacements_outbid_iff [EthText] [Digest] {profile : Profile} {start : System}
    {labels : List Label} {bidding : Bidding} (initial : start.Initial profile)
    (run : Transition.Run (Bidding.step profile) Transition.Free labels { system := start }
      bidding) :
    bidding.bids.Pairwise (fun earlier later => later.Replaces earlier →
        Outbids mempoolPriceBumpPercent later.unsigned earlier.unsigned) ↔
      bidding.bids.Pairwise (fun earlier later => later.Replaces earlier →
        later.Sustains mempoolPriceBumpPercent earlier) := by
  have starts : Bidding.Watched start {} := by
    obtain ⟨signer, nonces, height, rfl⟩ := initial
    exact fun _ serving => by cases serving
  obtain ⟨-, priced⟩ := run.invariant
    (I := fun bidding => Bidding.Watched bidding.system bidding.readings ∧
      Bidding.Priced bidding.bids) ⟨starts, fun _ member => absurd member List.not_mem_nil⟩ (by
        rintro bidding label bidding' ⟨watched, priced⟩ - taken
        obtain ⟨system, stepped, rfl⟩ := Option.map_eq_some_iff.mp taken
        exact ⟨Bidding.readings_step watched stepped, Bidding.bids_step watched priced⟩)
  refine List.Pairwise.iff_of_mem fun {earlier later} first second => ?_
  refine forall_congr' fun replaces =>
    Bid.outbids_iff (priced earlier first ?_) (priced later second ?_)
  · rw [replaces.2.1]
    exact Purpose.isReplacement.named replaces.1
  · exact Purpose.isReplacement.named replaces.1

instance (percent : Int) (later earlier : UnsignedTransaction) :
    Decidable (Outbids percent later earlier) := inferInstanceAs (Decidable (_ ∧ _))

namespace Demo

/-- The worker has found no receipt for a minute. -/
def unobservable : List Label :=
  worker [.ok, .ok, .clock noon, .ok, .ok] ++ goingRound ++
    worker [.ok, .ok, .clock (noon + 60 * second)]

/-- The tip is 10 when the request is funded, and 4 when the transaction is replaced. -/
def fallenMarket : List Label :=
  accepting ++ worker [.ok, .ok] ++ goingRound ++
    worker [.ok, .ok, .ok, .answer 7777, .ok, .answer 0, .answer 7, .answer 10, .hash 1,
      .clock noon, .ok, .failAfter { message := text "i/o timeout" }, .ok, .ok] ++ goingRound ++
    unobservable ++ worker [.answer 7777, .ok, .answer 7, .answer 4, .hash 2, .clock noon, .ok]

/-- The process is started again between two replacements, on a market that does not move. -/
def replacedAgain : List Label :=
  replaced ++ [.crash, .start 32, .main .ok, .main .ok, .main .ok] ++ worker [.ok, .ok] ++
    goingRound ++ unobservable ++
    worker [.answer 7777, .ok, .answer 7, .answer 1, .hash 3, .clock noon, .ok]

/-- After the steps there is a replacement that does not outbid what it replaces. -/
def Underbids (labels : List Label) : Prop :=
  ∃ bidding,
    @Transition.Run _ _ (@Bidding.step lowerHex Digest.numbered profile) Transition.Free labels
      { system := system } bidding ∧
    (∀ bid ∈ bidding.bids, 0 < bid.baseFee ∧ 0 < bid.tip) ∧
    ¬ bidding.bids.Pairwise fun earlier later => later.Replaces earlier →
      Outbids mempoolPriceBumpPercent later.unsigned earlier.unsigned

end Demo

theorem replacement_underbids :
    Demo.Underbids Demo.fallenMarket ∧ Demo.Underbids Demo.replacedAgain := by
  have underbids {labels}
      (evaluated : (Transition.execute (@Bidding.step lowerHex Digest.numbered Demo.profile) labels
        { system := Demo.system }).any (fun bidding =>
          (∀ bid ∈ bidding.bids, 0 < bid.baseFee ∧ 0 < bid.tip) ∧
          ¬ bidding.bids.Pairwise fun earlier later => later.Replaces earlier →
            Outbids mempoolPriceBumpPercent later.unsigned earlier.unsigned)) :
      Demo.Underbids labels := by
    obtain ⟨bidding, run, underbid⟩ := Transition.run_of_execute_any evaluated
    exact ⟨bidding, run, of_decide_eq_true underbid⟩
  exact ⟨underbids (by decide +kernel), underbids (by decide +kernel)⟩

theorem replacements_outbid_iff_demo :
    ∃ bidding,
      @Transition.Run _ _ (@Bidding.step lowerHex Digest.numbered Demo.profile) Transition.Free
        Demo.replaced { system := Demo.system } bidding ∧
      bidding.bids.length = 2 ∧
      bidding.bids.Pairwise fun earlier later => later.Replaces earlier ∧
        later.Sustains mempoolPriceBumpPercent earlier := by
  have evaluated : (Transition.execute (@Bidding.step lowerHex Digest.numbered Demo.profile)
      Demo.replaced { system := Demo.system }).any (fun bidding => bidding.bids.length = 2 ∧
        (bidding.bids.Pairwise fun earlier later => later.Replaces earlier →
          Outbids mempoolPriceBumpPercent later.unsigned earlier.unsigned) ∧
        bidding.bids.Pairwise fun earlier later => later.Replaces earlier) := by
    decide +kernel
  obtain ⟨bidding, run, bids⟩ := Transition.run_of_execute_any evaluated
  obtain ⟨two, outbid, replaces⟩ := of_decide_eq_true bids
  refine ⟨bidding, run, two, ?_⟩
  have sustained := (@replacements_outbid_iff lowerHex Digest.numbered _ _ _ _ ⟨32, _, _, rfl⟩
    run).mp outbid
  exact (replaces.and sustained).imp fun ⟨later, holds⟩ => ⟨later, holds later⟩

end Torium.Faucet
