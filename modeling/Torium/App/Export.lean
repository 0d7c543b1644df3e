import Mathlib.Data.List.MinMax
import Torium.Evm.Abi

/-!
# Export at height zero

The export prepares the state of the chain for a fresh start. The keepers of the Cosmos SDK are a
parameter: each of their operations acts on a state of any type and may fail. They are keyed by raw
operator addresses. The callbacks of the export convert the text of an operator address byte by
byte, so they call the keepers with an address that is no operator's; what fails in a callback
ends the iteration without an error.
-/

namespace Torium.App

open Evm

structure Validator where
  operator : Bytes
  unbondingHeight : Int
  jailed : Bool

structure Delegation where
  delegatorAddress : Bytes
  validatorAddress : Bytes

/-- A redelegation or an unbonding delegation, with the creation heights of its entries. -/
structure Unbonding where
  key : Bytes
  creationHeights : List Int

structure SigningInfo where
  address : Bytes
  startHeight : Int

/-- The keepers that the export calls. -/
structure Keepers (σ κ : Type) where
  /-- The text of an operator address, as bytes. -/
  valText : Bytes → Bytes
  valAddressFromBech32 : Bytes → Except String Bytes
  accAddressFromBech32 : Bytes → Except String Bytes
  validators : σ → List Validator
  getAllDelegations : σ → Except String (List Delegation)
  redelegations : σ → List Unbonding
  setRedelegation : Unbonding → σ → Except String Unit × σ
  unbondingDelegations : σ → List Unbonding
  setUnbondingDelegation : Unbonding → σ → Except String Unit × σ
  /-- The operators in the keys of the validators, in descending order. -/
  validatorKeys : σ → List Bytes
  getValidator : Bytes → σ → Except String Validator
  setValidator : Validator → σ → Except String Unit × σ
  /-- The end of the iteration over the keys. -/
  closeIterator : σ → Except String Unit
  applyAndReturnValidatorSetUpdates : σ → Except String Unit × σ
  signingInfos : σ → List SigningInfo
  setValidatorSigningInfo : SigningInfo → σ → Except String Unit × σ
  withdrawValidatorCommission : Bytes → σ → Except String Unit × σ
  withdrawDelegationRewards : Bytes → Bytes → σ → Except String Unit × σ
  beforeDelegationCreated : Bytes → Bytes → σ → Except String Unit × σ
  afterDelegationModified : Bytes → Bytes → σ → Except String Unit × σ
  deleteAllValidatorSlashEvents : σ → σ
  deleteAllValidatorHistoricalRewards : σ → σ
  getValidatorOutstandingRewardsCoins : Bytes → σ → Except String κ
  getFeePool : σ → Except String κ
  setFeePool : κ → σ → Except String Unit × σ
  addCoins : κ → κ → κ
  afterValidatorCreated : Bytes → σ → Except String Unit × σ

/-- What the export does for one validator. -/
inductive ValidatorOperation where
  | withdrawCommission
  | donateOutstandingRewards
  | afterValidatorCreated
  deriving DecidableEq

/-- A call for a validator: the address it was made with, and whether it failed. -/
structure Call where
  operation : ValidatorOperation
  address : Bytes
  failed : Bool
  deriving DecidableEq

/-- The state, with the calls that were made for validators. -/
structure World (σ : Type) where
  state : σ
  calls : List Call := []

/-- Why the export did not return nil: it returned an error, or it ended the process. -/
inductive Failure where
  | error (text : String)
  | fatal (text : String)
  | panicked (text : String)
  deriving DecidableEq

abbrev Step (σ α : Type) : Type := ExceptT Failure (StateM (World σ)) α

namespace Step

variable {σ α β : Type}

/-- A read of the state. -/
def read (f : σ → α) : Step σ α := ExceptT.mk fun world => (.ok (f world.state), world)

/-- A call of a keeper. Its error is a value, which the caller may ignore. -/
def call (operation : σ → Except String α × σ) : Step σ (Except String α) :=
  ExceptT.mk fun world =>
    (.ok (operation world.state).1, { world with state := (operation world.state).2 })

def record (entry : Call) : Step σ Unit :=
  ExceptT.mk fun world => (.ok (), { world with calls := world.calls ++ [entry] })

/-- The value, or the failure that an error is turned into. -/
def orFail (failure : String → Failure) : Except String α → Step σ α
  | .ok value => pure value
  | .error text => throw (failure text)

/-- An iteration of a keeper, which ends when the callback says so. -/
def iterate (callback : α → Step σ Bool) : List α → Step σ Unit
  | [] => pure ()
  | item :: items => do
      if ← callback item then pure () else iterate callback items

end Step

section Export

open Step

variable {σ κ : Type} (keepers : Keepers σ κ)

/-- The callback that withdraws a commission. The error is ignored. -/
def withdrawCommission (validator : Validator) : Step σ Bool := do
  let address := keepers.valText validator.operator
  let result ← call (keepers.withdrawValidatorCommission address)
  record ⟨.withdrawCommission, address, !result.isOk⟩
  pure false

/-- The donation of what a validator has outstanding to the community pool. -/
def donate (address : Bytes) : Step σ (Except String Unit) := do
  match ← read (keepers.getValidatorOutstandingRewardsCoins address) with
  | .error text => pure (.error text)
  | .ok scraps =>
    match ← read keepers.getFeePool with
    | .error text => pure (.error text)
    | .ok feePool => call (keepers.setFeePool (keepers.addCoins feePool scraps))

/-- The callback that re-initializes a validator. It stops the iteration on an error. -/
def reinitializeValidator (validator : Validator) : Step σ Bool := do
  let address := keepers.valText validator.operator
  let donated ← donate keepers address
  record ⟨.donateOutstandingRewards, address, !donated.isOk⟩
  match donated with
  | .error _ => pure true
  | .ok () => do
      let created ← call (keepers.afterValidatorCreated address)
      record ⟨.afterValidatorCreated, address, !created.isOk⟩
      pure (!created.isOk)

def withdrawRewards (delegation : Delegation) : Step σ Unit := do
  let valAddr ← orFail .panicked (keepers.valAddressFromBech32 delegation.validatorAddress)
  let delAddr ← orFail .panicked (keepers.accAddressFromBech32 delegation.delegatorAddress)
  let _ ← call (keepers.withdrawDelegationRewards delAddr valAddr)

def reinitializeDelegation (delegation : Delegation) : Step σ Unit := do
  let valAddr ← orFail .panicked (keepers.valAddressFromBech32 delegation.validatorAddress)
  let delAddr ← orFail .panicked (keepers.accAddressFromBech32 delegation.delegatorAddress)
  let before ← call (keepers.beforeDelegationCreated delAddr valAddr)
  orFail .panicked before
  let after ← call (keepers.afterDelegationModified delAddr valAddr)
  orFail .panicked after

/-- The creation heights of the entries are reset; a failed write ends the iteration, and its
error is returned after it. -/
def resetHeights (unbondings : List Unbonding) (set : Unbonding → σ → Except String Unit × σ) :
    Step σ Unit :=
  match unbondings with
  | [] => pure ()
  | unbonding :: unbondings => do
      let written ← call (set { unbonding with
        creationHeights := unbonding.creationHeights.map fun _ => 0 })
      orFail .error written
      resetHeights unbondings set

def resetValidator (jailAllowedAddrs : List Bytes) (operator : Bytes) : Step σ Unit := do
  let found ← read (keepers.getValidator operator)
  let validator ←
    orFail (fun text => .error ("expected validator not found. Error: " ++ text)) found
  let jailed := validator.jailed ||
    (!jailAllowedAddrs.isEmpty && !decide (keepers.valText operator ∈ jailAllowedAddrs))
  let written ← call (keepers.setValidator { validator with unbondingHeight := 0, jailed })
  orFail .error written

def resetSigningInfo (info : SigningInfo) : Step σ Unit := do
  let written ← call (keepers.setValidatorSigningInfo { info with startHeight := 0 })
  orFail .error written

/-- The part for the fee distribution. -/
def prepareDistribution : Step σ Unit := do
  let validators ← read keepers.validators
  iterate (withdrawCommission keepers) validators
  let delegations ← read keepers.getAllDelegations
  let dels ← orFail .error delegations
  dels.forM (withdrawRewards keepers)
  dels.forM (reinitializeDelegation keepers)
  let _ ← call fun state => (.ok (), keepers.deleteAllValidatorSlashEvents state)
  let _ ← call fun state => (.ok (), keepers.deleteAllValidatorHistoricalRewards state)
  let validators ← read keepers.validators
  iterate (reinitializeValidator keepers) validators

/-- The part for the staking and slashing modules. -/
def prepareStaking (jailAllowedAddrs : List Bytes) : Step σ Unit := do
  let redelegations ← read keepers.redelegations
  resetHeights redelegations keepers.setRedelegation
  let unbondings ← read keepers.unbondingDelegations
  resetHeights unbondings keepers.setUnbondingDelegation
  let keys ← read keepers.validatorKeys
  keys.forM (resetValidator keepers jailAllowedAddrs)
  match ← read keepers.closeIterator with
  | .error _ => pure ()
  | .ok () => do
      let applied ← call keepers.applyAndReturnValidatorSetUpdates
      orFail .fatal applied
      let infos ← read keepers.signingInfos
      infos.forM (resetSigningInfo keepers)

def prepForZeroHeightGenesis (jailAllowedAddrs : List Bytes) : Step σ Unit := do
  jailAllowedAddrs.forM fun address => do
    let _ ← orFail .fatal (keepers.valAddressFromBech32 address)
  prepareDistribution keepers
  prepareStaking keepers jailAllowedAddrs

end Export

/-! ## What the export keeps -/

section Keeping

open Step

variable {σ κ α β : Type}

/-- The step keeps a property of the world, whether it fails or not. -/
def Keeps (P : World σ → Prop) (step : Step σ α) : Prop :=
  ∀ world, P world → P (step world).2

variable {P : World σ → Prop}

namespace Keeps

variable {next : α → Step σ β}

theorem bind {first : Step σ α} (keeps : Keeps P first) (rest : ∀ value, Keeps P (next value)) :
    Keeps P (first >>= next) := by
  intro world holds
  have after := keeps world holds
  change P (ExceptT.bindCont next (first world).1 (first world).2).2
  cases (first world).1 with
  | ok value => exact rest value _ after
  | error failure => exact after

theorem pure {value : α} : Keeps P (Pure.pure value : Step σ α) := fun _ => id

theorem throw {failure : Failure} : Keeps P (throw failure : Step σ α) := fun _ => id

theorem read {f : σ → α} : Keeps P (Step.read f) := fun _ => id

/-- What is read of a state with the property may be used in the rest. -/
theorem read_bind {f : σ → α} (rest : ∀ world, P world → Keeps P (next (f world.state))) :
    Keeps P (Step.read f >>= next) :=
  fun world holds => rest world holds world holds

theorem call {operation : σ → Except String α × σ}
    (keeps : ∀ world, P world → P { world with state := (operation world.state).2 }) :
    Keeps P (Step.call operation) := keeps

theorem record {entry : Call}
    (keeps : ∀ world, P world → P { world with calls := world.calls ++ [entry] }) :
    Keeps P (Step.record entry) := keeps

theorem orFail {failure : String → Failure} {result : Except String α} :
    Keeps P (Step.orFail failure result : Step σ α) := by
  cases result with
  | ok value => exact pure
  | error text => exact throw

theorem iterate {callback : α → Step σ Bool} {items : List α}
    (keeps : ∀ item ∈ items, Keeps P (callback item)) : Keeps P (Step.iterate callback items) := by
  induction items with
  | nil => exact pure
  | cons item items ih =>
    refine bind (keeps item List.mem_cons_self) fun stop => ?_
    cases stop with
    | true => exact pure
    | false => exact ih fun other member => keeps other (List.mem_cons_of_mem item member)

theorem forM {action : α → Step σ Unit} {items : List α} (keeps : ∀ item, Keeps P (action item)) :
    Keeps P (items.forM action) := by
  induction items with
  | nil => exact pure
  | cons item items ih => exact bind (keeps item) fun _ => ih

/-- A part that keeps one property, followed by one that turns it into another. -/
theorem bind_into {Q : World σ → Prop} {first : Step σ α} (keeps : Keeps P first)
    (weaker : ∀ world, P world → Q world) (rest : ∀ value world, P world → Q (next value world).2)
    (world : World σ) (holds : P world) :
    Q ((first >>= next) world).2 := by
  have after := keeps world holds
  change Q (ExceptT.bindCont next (first world).1 (first world).2).2
  cases (first world).1 with
  | ok value => exact rest value _ after
  | error failure => exact weaker _ after

end Keeps

end Keeping

/-! ## Addresses of the calls -/

section Addresses

open Step

variable {σ κ : Type}

/-- What is assumed of the keepers: the text of an address is longer than the address, and the
distribution module does not change the validators of the staking module. -/
structure Keepers.Sdk (keepers : Keepers σ κ) : Prop where
  valText_longer : ∀ address, address.length < (keepers.valText address).length
  withdrawValidatorCommission : ∀ address state,
    keepers.validators (keepers.withdrawValidatorCommission address state).2 =
      keepers.validators state
  withdrawDelegationRewards : ∀ delegator address state,
    keepers.validators (keepers.withdrawDelegationRewards delegator address state).2 =
      keepers.validators state
  beforeDelegationCreated : ∀ delegator address state,
    keepers.validators (keepers.beforeDelegationCreated delegator address state).2 =
      keepers.validators state
  afterDelegationModified : ∀ delegator address state,
    keepers.validators (keepers.afterDelegationModified delegator address state).2 =
      keepers.validators state
  deleteAllValidatorSlashEvents : ∀ state,
    keepers.validators (keepers.deleteAllValidatorSlashEvents state) = keepers.validators state
  deleteAllValidatorHistoricalRewards : ∀ state,
    keepers.validators (keepers.deleteAllValidatorHistoricalRewards state) =
      keepers.validators state
  setFeePool : ∀ pool state,
    keepers.validators (keepers.setFeePool pool state).2 = keepers.validators state
  afterValidatorCreated : ∀ address state,
    keepers.validators (keepers.afterValidatorCreated address state).2 = keepers.validators state

variable {keepers : Keepers σ κ} {validators : List Validator} {validator : Validator}

/-- Every call was made with the text of a validator's operator. -/
def MadeWithTexts (keepers : Keepers σ κ) (validators : List Validator) (world : World σ) : Prop :=
  ∀ call ∈ world.calls, ∃ validator ∈ validators, call.address = keepers.valText validator.operator

/-- The validators are unchanged, and every call was made with the text of an operator. -/
def Unchanged (keepers : Keepers σ κ) (validators : List Validator) (world : World σ) : Prop :=
  keepers.validators world.state = validators ∧ MadeWithTexts keepers validators world

theorem Unchanged.call {α : Type} {operation : σ → Except String α × σ}
    (kept : ∀ state, keepers.validators (operation state).2 = keepers.validators state) :
    Keeps (Unchanged keepers validators) (Step.call operation) :=
  Keeps.call fun world holds => ⟨(kept world.state).trans holds.1, holds.2⟩

theorem MadeWithTexts.record (member : validator ∈ validators) {operation : ValidatorOperation}
    {failed : Bool} {world : World σ} (holds : MadeWithTexts keepers validators world) :
    MadeWithTexts keepers validators { world with
      calls := world.calls ++ [⟨operation, keepers.valText validator.operator, failed⟩] } := by
  intro call inside
  rcases List.mem_append.mp inside with earlier | now
  · exact holds call earlier
  · rw [List.mem_singleton.mp now]
    exact ⟨validator, member, rfl⟩

theorem Unchanged.record (member : validator ∈ validators) {operation : ValidatorOperation}
    {failed : Bool} :
    Keeps (Unchanged keepers validators)
      (Step.record ⟨operation, keepers.valText validator.operator, failed⟩) :=
  Keeps.record fun _ holds => ⟨holds.1, holds.2.record member⟩

variable (sdk : keepers.Sdk)

include sdk in
theorem withdrawCommission_keeps (member : validator ∈ validators) :
    Keeps (Unchanged keepers validators) (withdrawCommission keepers validator) :=
  (Unchanged.call (sdk.withdrawValidatorCommission _)).bind fun _ =>
    (Unchanged.record member).bind fun _ => Keeps.pure

include sdk in
theorem donate_keeps {address : Bytes} :
    Keeps (Unchanged keepers validators) (donate keepers address) := by
  refine Keeps.bind Keeps.read fun scraps => ?_
  cases scraps with
  | error text => exact Keeps.pure
  | ok scraps =>
    refine Keeps.bind Keeps.read fun feePool => ?_
    cases feePool with
    | error text => exact Keeps.pure
    | ok feePool => exact Unchanged.call (sdk.setFeePool _)

include sdk in
theorem reinitializeValidator_keeps (member : validator ∈ validators) :
    Keeps (Unchanged keepers validators) (reinitializeValidator keepers validator) := by
  refine Keeps.bind (donate_keeps sdk) fun donated => ?_
  refine (Unchanged.record member).bind fun _ => ?_
  cases donated with
  | error text => exact Keeps.pure
  | ok _ =>
    refine (Unchanged.call (sdk.afterValidatorCreated _)).bind fun created => ?_
    exact (Unchanged.record member).bind fun _ => Keeps.pure

include sdk in
theorem prepareDistribution_keeps :
    Keeps (Unchanged keepers validators) (prepareDistribution keepers) := by
  refine Keeps.read_bind fun world holds => ?_
  rw [holds.1]
  refine (Keeps.iterate fun _ member => withdrawCommission_keeps sdk member).bind fun _ => ?_
  refine Keeps.bind Keeps.read fun delegations => Keeps.orFail.bind fun dels => ?_
  refine Keeps.bind (Keeps.forM fun delegation => ?_) fun _ => ?_
  · exact Keeps.orFail.bind fun _ => Keeps.orFail.bind fun _ =>
      (Unchanged.call (sdk.withdrawDelegationRewards _ _)).bind fun _ => Keeps.pure
  refine Keeps.bind (Keeps.forM fun delegation => ?_) fun _ => ?_
  · exact Keeps.orFail.bind fun _ => Keeps.orFail.bind fun _ =>
      (Unchanged.call (sdk.beforeDelegationCreated _ _)).bind fun _ => Keeps.orFail.bind fun _ =>
        (Unchanged.call (sdk.afterDelegationModified _ _)).bind fun _ => Keeps.orFail
  refine (Unchanged.call sdk.deleteAllValidatorSlashEvents).bind fun _ => ?_
  refine (Unchanged.call sdk.deleteAllValidatorHistoricalRewards).bind fun _ => ?_
  refine Keeps.read_bind fun world holds => ?_
  rw [holds.1]
  exact Keeps.iterate fun validator member => reinitializeValidator_keeps sdk member

/-- The staking part makes no call for a validator. -/
theorem MadeWithTexts.call {α : Type} {operation : σ → Except String α × σ} :
    Keeps (MadeWithTexts keepers validators) (Step.call operation) :=
  Keeps.call fun _ => id

theorem resetHeights_keeps {unbondings : List Unbonding}
    {set : Unbonding → σ → Except String Unit × σ} :
    Keeps (MadeWithTexts keepers validators) (resetHeights unbondings set) := by
  induction unbondings with
  | nil => exact Keeps.pure
  | cons unbonding unbondings ih =>
    exact MadeWithTexts.call.bind fun _ => Keeps.orFail.bind fun _ => ih

theorem prepareStaking_keeps {jailAllowedAddrs : List Bytes} :
    Keeps (MadeWithTexts keepers validators) (prepareStaking keepers jailAllowedAddrs) := by
  refine Keeps.bind Keeps.read fun _ => resetHeights_keeps.bind fun _ => ?_
  refine Keeps.bind Keeps.read fun _ => resetHeights_keeps.bind fun _ => ?_
  refine Keeps.bind Keeps.read fun _ => Keeps.bind (Keeps.forM fun operator => ?_) fun _ => ?_
  · exact Keeps.bind Keeps.read fun _ => Keeps.orFail.bind fun _ =>
      MadeWithTexts.call.bind fun _ => Keeps.orFail
  refine Keeps.bind Keeps.read fun closed => ?_
  cases closed with
  | error text => exact Keeps.pure
  | ok _ =>
    refine MadeWithTexts.call.bind fun _ => Keeps.orFail.bind fun _ => ?_
    refine Keeps.bind Keeps.read fun _ => Keeps.forM fun info => ?_
    exact MadeWithTexts.call.bind fun _ => Keeps.orFail

include sdk in
/-- Every call of the export was made with the text of an operator's address. -/
theorem prepForZeroHeightGenesis_calls (jailAllowedAddrs : List Bytes) (state : σ) :
    MadeWithTexts keepers (keepers.validators state)
      (prepForZeroHeightGenesis keepers jailAllowedAddrs { state }).2 := by
  have start : Unchanged keepers (keepers.validators state) { state } := by
    refine ⟨rfl, fun call inside => ?_⟩
    cases inside
  have checked : Keeps (Unchanged keepers (keepers.validators state))
      (jailAllowedAddrs.forM fun address => do
        let _ ← orFail .fatal (keepers.valAddressFromBech32 address)) :=
    Keeps.forM fun _ => Keeps.orFail.bind fun _ => Keeps.pure
  have weaker (world : World σ) (holds : Unchanged keepers (keepers.validators state) world) :
      MadeWithTexts keepers (keepers.validators state) world := holds.2
  refine Keeps.bind_into checked weaker (fun _ => ?_) _ start
  refine Keeps.bind_into (prepareDistribution_keeps sdk) weaker fun _ world holds => ?_
  exact prepareStaking_keeps world (weaker world holds)

end Addresses

/-- What the export should do. If it returns nil, then each operation was carried out for each
validator with the validator's own address; if a donation or a re-initialization fails, it returns
an error. -/
def ProcessesEveryValidator {σ κ : Type} (keepers : Keepers σ κ) (jailAllowedAddrs : List Bytes)
    (state : σ) : Prop :=
  let (outcome, world) := prepForZeroHeightGenesis keepers jailAllowedAddrs { state }
  (outcome = .ok () → ∀ validator ∈ keepers.validators state, ∀ operation, ∃ call ∈ world.calls,
    call.operation = operation ∧ call.address = validator.operator) ∧
  ∀ call ∈ world.calls, call.operation ≠ .withdrawCommission → call.failed = true →
    ∃ text, outcome = .error (.error text)

/-- No validator can be called with its own address: the address would be the text of a shorter
one, which would be a validator's, too. -/
theorem no_own_address {σ κ : Type} {keepers : Keepers σ κ} (sdk : keepers.Sdk)
    {validators : List Validator} {world : World σ} (texts : MadeWithTexts keepers validators world)
    (own : ∀ validator ∈ validators, ∃ call ∈ world.calls, call.address = validator.operator) :
    validators = [] := by
  rw [List.eq_nil_iff_forall_not_mem]
  intro validator member
  generalize length : validator.operator.length = n
  induction n using Nat.strong_induction_on generalizing validator with
  | _ n ih =>
    obtain ⟨call, made, address⟩ := own validator member
    obtain ⟨shorter, member', text⟩ := texts call made
    have longer := sdk.valText_longer shorter.operator
    rw [← text, address, length] at longer
    exact ih _ longer shorter member' rfl

/-- An export that returns nil has processed every validator only if there is none. -/
theorem export_processes_iff {σ κ : Type} (keepers : Keepers σ κ) (sdk : keepers.Sdk)
    (jailAllowedAddrs : List Bytes) (state : σ)
    (returned : (prepForZeroHeightGenesis keepers jailAllowedAddrs { state }).1 = .ok ()) :
    ProcessesEveryValidator keepers jailAllowedAddrs state ↔ keepers.validators state = [] := by
  have texts := prepForZeroHeightGenesis_calls sdk jailAllowedAddrs state
  rw [ProcessesEveryValidator]
  generalize prepForZeroHeightGenesis keepers jailAllowedAddrs { state } = result
    at returned texts ⊢
  obtain ⟨outcome, world⟩ := result
  constructor
  · rintro ⟨carriedOut, -⟩
    refine no_own_address sdk texts fun validator member => ?_
    obtain ⟨call, made, -, address⟩ := carriedOut returned validator member .withdrawCommission
    exact ⟨call, made, address⟩
  · intro none
    rw [none] at texts ⊢
    refine ⟨fun _ validator member => (by cases member), fun call made => ?_⟩
    obtain ⟨validator, member, -⟩ := texts call made
    cases member

namespace Demo

/-- Keepers of a chain with the given validators. The distribution module knows a validator by its
raw address only. -/
def keepers (validators : List Validator) : Keepers Unit Nat where
  valText address := 0 :: address
  valAddressFromBech32 text := .ok text.tail
  accAddressFromBech32 text := .ok text.tail
  validators _ := validators
  getAllDelegations _ := .ok []
  redelegations _ := []
  setRedelegation _ _ := (.ok (), ())
  unbondingDelegations _ := []
  setUnbondingDelegation _ _ := (.ok (), ())
  validatorKeys _ := validators.map Validator.operator
  getValidator address _ :=
    match validators.find? fun validator => validator.operator == address with
    | some validator => .ok validator
    | none => .error "validator does not exist"
  setValidator _ _ := (.ok (), ())
  closeIterator _ := .ok ()
  applyAndReturnValidatorSetUpdates _ := (.ok (), ())
  signingInfos _ := []
  setValidatorSigningInfo _ _ := (.ok (), ())
  withdrawValidatorCommission address _ :=
    (if address ∈ validators.map Validator.operator then .ok ()
      else .error "no validator commission to withdraw", ())
  withdrawDelegationRewards _ _ _ := (.ok (), ())
  beforeDelegationCreated _ _ _ := (.ok (), ())
  afterDelegationModified _ _ _ := (.ok (), ())
  deleteAllValidatorSlashEvents _ := ()
  deleteAllValidatorHistoricalRewards _ := ()
  getValidatorOutstandingRewardsCoins address _ :=
    .ok (if address ∈ validators.map Validator.operator then 7 else 0)
  getFeePool _ := .ok 0
  setFeePool _ _ := (.ok (), ())
  addCoins := (· + ·)
  afterValidatorCreated address _ :=
    (if address ∈ validators.map Validator.operator then .ok ()
      else .error "validator does not exist", ())

theorem keepers_sdk (validators : List Validator) : (keepers validators).Sdk where
  valText_longer address := Nat.lt_succ_self address.length
  withdrawValidatorCommission _ _ := rfl
  withdrawDelegationRewards _ _ _ := rfl
  beforeDelegationCreated _ _ _ := rfl
  afterDelegationModified _ _ _ := rfl
  deleteAllValidatorSlashEvents _ := rfl
  deleteAllValidatorHistoricalRewards _ := rfl
  setFeePool _ _ := rfl
  afterValidatorCreated _ _ := rfl

/-- A chain with one validator, whose address has one byte. -/
def single : Keepers Unit Nat := keepers [⟨[1], 0, false⟩]

end Demo

/-- The export returns nil although its only validator was not re-initialized. -/
theorem export_skips_validator :
    (prepForZeroHeightGenesis Demo.single [] { state := () }).1 = .ok () ∧
      (prepForZeroHeightGenesis Demo.single [] { state := () }).2.calls =
        [⟨.withdrawCommission, [0, 1], true⟩, ⟨.donateOutstandingRewards, [0, 1], false⟩,
          ⟨.afterValidatorCreated, [0, 1], true⟩] ∧
      ¬ ProcessesEveryValidator Demo.single [] () := by
  have returned : (prepForZeroHeightGenesis Demo.single [] { state := () }).1 = .ok () := by
    decide +kernel
  have calls : (prepForZeroHeightGenesis Demo.single [] { state := () }).2.calls =
      [⟨.withdrawCommission, [0, 1], true⟩, ⟨.donateOutstandingRewards, [0, 1], false⟩,
        ⟨.afterValidatorCreated, [0, 1], true⟩] := by
    decide +kernel
  refine ⟨returned, calls, fun processes => ?_⟩
  have failed : ⟨.afterValidatorCreated, [0, 1], true⟩ ∈
      (prepForZeroHeightGenesis Demo.single [] { state := () }).2.calls := by
    rw [calls]
    decide
  obtain ⟨failure, outcome⟩ := processes.2 _ failed (by decide) rfl
  cases returned.symm.trans outcome

/-- A chain without validators is processed, a chain with one is not. -/
theorem export_processes_iff_demo :
    ProcessesEveryValidator (Demo.keepers []) [] () ∧
      ¬ ProcessesEveryValidator Demo.single [] () := by
  constructor
  · exact (export_processes_iff (Demo.keepers []) (Demo.keepers_sdk []) [] ()
      (by decide +kernel)).mpr rfl
  · intro processed
    cases (export_processes_iff Demo.single (Demo.keepers_sdk _) [] () (by decide +kernel)).mp
      processed

end Torium.App
