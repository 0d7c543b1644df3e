import Torium.Lib.Monitor
import Torium.Lib.Transition
import Torium.Sdk.EncodedSize

/-!
# Sending a transaction once

A request is normalized, preflighted, shown to the caller for authorization and sent. The code
between two promises runs without interruption, so the signal can only be aborted while a promise
is awaited. A monitor of the program says what must have happened before the transaction is sent.
-/

namespace Torium.Sdk

open Evm Generator Concurrent

/-! ## Normalization is idempotent -/

section Normalization

variable {format : AddressFormat} {shown : Text} {request normalized : ToriumTransactionRequest}

theorem normalizeToriumEvmAddress_idem {text address : Text}
    (valid : normalizeToriumEvmAddress format text = .ok address) :
    normalizeToriumEvmAddress format address = .ok address := by
  unfold normalizeToriumEvmAddress at valid
  split at valid
  · cases valid
    rw [normalizeToriumEvmAddress, format.parse_checksum]
    rfl
  · cases valid

theorem normalizeToriumHash_idem {text hash : Text} (valid : normalizeToriumHash text = .ok hash) :
    normalizeToriumHash hash = .ok hash := by
  simp only [normalizeToriumHash, throwIf, bind_eq_ok, revertIf_eq_ok, exists_const,
    Bool.not_eq_false] at valid
  obtain ⟨isHash, same⟩ := valid
  cases same
  rw [normalizeToriumHash, toLowerCase_eq isHash, isHash_hashText, toLowerCase_hashText]
  rfl

theorem toLower_hex {digits : Text} (valid : digits.all Hexadecimal.isDigit) :
    (digits.map Char.toLower).all Hexadecimal.isDigit ∧
      (digits.map Char.toLower).map Char.toLower = digits.map Char.toLower := by
  rw [← Hexadecimal.numeral_value valid]
  exact ⟨Hexadecimal.all_isDigit_numeral _ _, Hexadecimal.toLower_numeral _ _⟩

theorem isHexData_cases {text : Text} (data : isHexData text) : ∃ digits,
    text = '0' :: 'x' :: digits ∧ digits.length % 2 = 0 ∧ digits.all Hexadecimal.isDigit := by
  unfold isHexData at data
  split at data
  · rename_i digits
    rw [Bool.and_eq_true, beq_iff_eq] at data
    exact ⟨digits, rfl, data⟩
  · cases data

theorem normalizeToriumHexData_idem {text data : Text}
    (valid : normalizeToriumHexData text = .ok data) : normalizeToriumHexData data = .ok data := by
  simp only [normalizeToriumHexData, throwIf, bind_eq_ok, revertIf_eq_ok, exists_const,
    Bool.not_eq_false] at valid
  obtain ⟨isData, same⟩ := valid
  cases same
  obtain ⟨digits, rfl, even, hex⟩ := isHexData_cases isData
  obtain ⟨hex', lower⟩ := toLower_hex hex
  have lowered : toLowerCase ('0' :: 'x' :: digits) = '0' :: 'x' :: digits.map Char.toLower := rfl
  have again : toLowerCase ('0' :: 'x' :: digits.map Char.toLower) =
      '0' :: 'x' :: digits.map Char.toLower := congrArg ('0' :: 'x' :: ·) lower
  have valid : isHexData ('0' :: 'x' :: digits.map Char.toLower) := by
    rw [isHexData, List.length_map, even, hex']
    rfl
  rw [lowered, normalizeToriumHexData, valid, again]
  rfl

theorem normalizeRecipient_idem {recipient result : Option (Option Text)}
    (valid : normalizeRecipient format recipient = .ok result) :
    normalizeRecipient format result = .ok result := by
  cases recipient with
  | none =>
    cases valid
    rfl
  | some recipient =>
    cases recipient with
    | none =>
      cases valid
      rfl
    | some text =>
      cases read : normalizeToriumEvmAddress format text with
      | error message =>
        rw [normalizeRecipient, read] at valid
        cases valid
      | ok address =>
        rw [normalizeRecipient, read] at valid
        cases valid
        rw [normalizeRecipient, normalizeToriumEvmAddress_idem read]
        rfl

theorem normalizeData_idem {data result : Option Text} (valid : normalizeData data = .ok result) :
    normalizeData result = .ok result := by
  cases data with
  | none =>
    cases valid
    rfl
  | some text =>
    cases read : normalizeToriumHexData text with
    | error message =>
      rw [normalizeData, read] at valid
      cases valid
    | ok data =>
      rw [normalizeData, read] at valid
      cases valid
      rw [normalizeData, normalizeToriumHexData_idem read]
      rfl

/-- A function that keeps its own results keeps a list of them. -/
theorem mapM_idem {α : Type} {f : α → Except String α} (idem : ∀ a b, f a = .ok b → f b = .ok b)
    {list result : List α} (mapped : list.mapM f = .ok result) : result.mapM f = .ok result := by
  induction list generalizing result with
  | nil =>
    cases mapped
    rfl
  | cons a list ih =>
    simp only [List.mapM_cons, bind_eq_ok] at mapped
    obtain ⟨b, first, rest, others, same⟩ := mapped
    cases same
    rw [List.mapM_cons, idem a b first, ih others]
    rfl

theorem normalizeAccessEntry_idem {entry result : AccessEntry}
    (valid : normalizeAccessEntry format entry = .ok result) :
    normalizeAccessEntry format result = .ok result := by
  simp only [normalizeAccessEntry, bind_eq_ok] at valid
  obtain ⟨address, read, storageKeys, keys, same⟩ := valid
  cases same
  rw [normalizeAccessEntry, normalizeToriumEvmAddress_idem read,
    mapM_idem (fun _ _ => normalizeToriumHash_idem) keys]
  rfl

theorem normalizeAccessList_idem {list result : Option (List AccessEntry)}
    (valid : normalizeAccessList format list = .ok result) :
    normalizeAccessList format result = .ok result := by
  cases list with
  | none =>
    cases valid
    rfl
  | some entries =>
    cases mapped : entries.mapM (normalizeAccessEntry format) with
    | error message =>
      rw [normalizeAccessList, mapped] at valid
      cases valid
    | ok entries' =>
      rw [normalizeAccessList, mapped] at valid
      cases valid
      rw [normalizeAccessList, mapM_idem (fun _ _ => normalizeAccessEntry_idem) mapped]
      rfl

/-- The checks of a request, and where the fields of its normal form come from. -/
structure Normalizes (format : AddressFormat) (shown : Text)
    (request normalized : ToriumTransactionRequest) : Prop where
  keys : request.otherKeys = []
  type : request.type = none ∨ request.type = some "eip1559".toList
  account : ∃ given address, request.account = some given ∧
    normalizeToriumEvmAddress format (given.text shown) = .ok address ∧
    normalized.account = some (given.normalized address)
  recipient : normalizeRecipient format request.recipient = .ok normalized.recipient
  data : normalizeData request.data = .ok normalized.data
  deployment : ¬ (normalized.recipient.join = none ∧
    (normalized.data = none ∨ normalized.data = some ['0', 'x']))
  size : ifDefined normalized.data (fun data =>
    throwIf (toriumMaxEncodedTransactionBytes ≤ (data.length - 2) / 2)
      "Torium transaction data cannot fit within the encoded transaction limit.") = .ok ()
  amounts : checkAmounts request = .ok ()
  accessList : normalizeAccessList format request.accessList = .ok normalized.accessList
  same : normalized = { request with
    type := some "eip1559".toList
    account := normalized.account
    recipient := normalized.recipient
    data := normalized.data
    accessList := normalized.accessList }

theorem normalizeShown_ok : normalizeShown format shown request = .ok normalized ↔
      Normalizes format shown request normalized := by
  simp only [normalizeShown, throwIf, bind_eq_ok, revertIf_eq_ok, orRevert_eq_ok, exists_const]
  constructor
  · rintro ⟨keys, given, account, type, address, valid, recipient, to_, data, from_, deployment, ⟨⟩,
      size, ⟨⟩, amounts, accessList, list, same⟩
    cases same
    refine ⟨not_not.mp keys, ?_, ⟨given, address, account, valid, rfl⟩, to_, from_, deployment,
      size, amounts, list, rfl⟩
    by_contra other
    rw [not_or] at other
    exact type other
  · intro normal
    obtain ⟨given, address, account, valid, normalAccount⟩ := normal.account
    refine ⟨not_not.mpr normal.keys, given, account, ?_, address, valid, _, normal.recipient, _,
      normal.data, normal.deployment, (), normal.size, (), normal.amounts, _, normal.accessList, ?_⟩
    · rintro ⟨defined, other⟩
      exact normal.type.elim defined other
    · rw [← normalAccount]
      exact congrArg Except.ok normal.same.symm

variable {shown' : Text} {changed result : ToriumTransactionRequest}

/-- A request with the recipient, the data and the access list of a normalized one keeps them when
it is normalized again. -/
theorem Normalizes.keeps (first : Normalizes format shown request normalized)
    (recipient : changed.recipient = normalized.recipient) (data : changed.data = normalized.data)
    (accessList : changed.accessList = normalized.accessList)
    (second : Normalizes format shown' changed result) :
    result.recipient = normalized.recipient ∧ result.data = normalized.data ∧
      result.accessList = normalized.accessList := by
  have recipient' := second.recipient
  have data' := second.data
  have accessList' := second.accessList
  rw [recipient, normalizeRecipient_idem first.recipient] at recipient'
  rw [data, normalizeData_idem first.data] at data'
  rw [accessList, normalizeAccessList_idem first.accessList] at accessList'
  exact ⟨(Except.ok.inj recipient').symm, (Except.ok.inj data').symm,
    (Except.ok.inj accessList').symm⟩

/-- A normalized request with other amounts is its own normal form, if the amounts are valid. -/
theorem Normalizes.amend (first : Normalizes format shown request normalized) {gas nonce fee tip}
    (amounts : checkAmounts { normalized with
      gas, nonce, maxFeePerGas := fee, maxPriorityFeePerGas := tip } = .ok ()) :
    normalizeShown format shown
        { normalized with gas, nonce, maxFeePerGas := fee, maxPriorityFeePerGas := tip } =
      .ok { normalized with gas, nonce, maxFeePerGas := fee, maxPriorityFeePerGas := tip } := by
  have type : normalized.type = some "eip1559".toList := congrArg (·.type) first.same
  obtain ⟨given, address, -, valid, account⟩ := first.account
  refine normalizeShown_ok.mpr ⟨?_, .inr type, ?_, normalizeRecipient_idem first.recipient,
    normalizeData_idem first.data, first.deployment, first.size, amounts,
    normalizeAccessList_idem first.accessList, ?_⟩
  · exact (congrArg (·.otherKeys) first.same).trans first.keys
  · refine ⟨given.normalized address, address, account, ?_, ?_⟩
    · cases given with
      | address text => exact normalizeToriumEvmAddress_idem valid
      | object => exact valid
    · rw [account]
      cases given <;> rfl
  · rw [← type]

end Normalization

/-! ## Amounts -/

section Amounts

variable {request : ToriumTransactionRequest}

theorem ifDefined_ok {α : Type} {field : Option α} {check : α → Except String Unit} :
    ifDefined field check = .ok () ↔ ∀ value, field = some value → check value = .ok () := by
  cases field with
  | none => exact ⟨fun _ value absent => (by cases absent), fun _ => rfl⟩
  | some given =>
    constructor
    · intro passed value same
      cases same
      exact passed
    · intro passed
      exact passed given rfl

/-- The amounts of a preflight are valid in a request. -/
theorem Computed.amounts_valid {normalized : ToriumTransactionRequest} {account : Text}
    {chainId : Int} {answers : Answers} {preflight : ToriumTransactionPreflight}
    (computed : Computed normalized account chainId answers preflight)
    (valid : checkAmounts normalized = .ok ()) (value : request.value = normalized.value) :
    checkAmounts { request with
      gas := some preflight.gasLimit
      nonce := some preflight.requestedNonce
      maxFeePerGas := some preflight.maxFeePerGas
      maxPriorityFeePerGas := some preflight.maxPriorityFeePerGas } = .ok () := by
  simp only [checkAmounts, bind_eq_ok] at valid
  obtain ⟨⟨⟩, validValue, ⟨⟩, validGas, ⟨⟩, validNonce, -⟩ := valid
  have gas : assertTransactionGas preflight.gasLimit = .ok () := by
    rw [computed.gasLimit_eq]
    cases given : normalized.gas with
    | none => exact computed.estimate
    | some gas => exact ifDefined_ok.mp validGas gas given
  have nonce : assertTransactionNonce preflight.requestedNonce = .ok () := by
    rw [computed.requestedNonce_eq]
    cases given : normalized.nonce with
    | none => exact computed.pending
    | some nonce => exact ifDefined_ok.mp validNonce nonce given
  rw [← value] at validValue
  simp only [checkAmounts, bind_eq_ok]
  exact ⟨(), validValue, (), gas, (), nonce, (), computed.fee, (), computed.tip, (),
    revertIf_eq_ok.mpr (not_lt.mpr computed.minimum), (),
    revertIf_eq_ok.mpr (not_lt.mpr computed.covered),
    revertIf_eq_ok.mpr (not_lt.mpr computed.ordered)⟩

end Amounts

/-! ## The action -/

section Sending

open Sdk.Action

variable {μ : Type} [DecidableEq μ] (format : AddressFormat) (toriumChains : List (ClientChain μ))

/-- The request with the amounts of the preflight. -/
def prepared (snapshot : ToriumTransactionRequest) (preflight : ToriumTransactionPreflight) :
    ToriumTransactionRequest :=
  { snapshot with
    type := some "eip1559".toList
    gas := some preflight.gasLimit
    nonce := some preflight.requestedNonce
    maxFeePerGas := some preflight.maxFeePerGas
    maxPriorityFeePerGas := some preflight.maxPriorityFeePerGas }

def sendToriumTransactionOnceImpl (clientChain preflightChain : ClientChain μ)
    (request : ToriumTransactionRequest) : Action Text := do
  throwIfAborted
  assertToriumChain toriumChains clientChain
  assertToriumChain toriumChains preflightChain
  throwIf (clientChain.id ≠ preflightChain.id)
    "Torium wallet and preflight clients must use the same chain."
  let requestSnapshot ← normalizeToriumTransactionRequest format request
  let preflight ← preflightToriumTransactionImpl format toriumChains preflightChain requestSnapshot
  throwIf (preflight.canSubmit = false)
    "Torium transaction preflight did not authorize submission."
  let preparedRequest ←
    normalizeToriumTransactionRequest format (prepared requestSnapshot preflight)
  throwIfAborted
  let authorized ← await (command (F := Wallet) (.authorize preflight))
  throwIf (authorized ≠ true) "Torium transaction authorization was rejected."
  throwIfAborted
  let signer ← getAccountAddress format preparedRequest.account
  throwIf (signer ≠ preflight.account) "Torium transaction signer changed after authorization."
  let hash ← await (command (F := Wallet) (.sendTransaction preparedRequest))
  normalizeToriumHash hash

/-- The longest timeout of an action. -/
def maximumTimeoutMs : Int := 300000

def validateTimeout : Option JsNumber → Except String Unit
  | none => pure ()
  | some value => throwIf (value.any (fun n => 1 ≤ n ∧ n ≤ maximumTimeoutMs) = false)
      "Torium action timeout must be an integer from 1 through 300000."

/-- A write action is run once. The caller may stop waiting for it when the signal is aborted, but
the action itself goes on until it reads the signal. -/
def runToriumWriteActionOnce {α : Type} (timeoutMs : Option JsNumber) (action : Action α) :
    Action α := do
  validateTimeout timeoutMs
  throwIfAborted
  action

def sendToriumTransactionOnce (clientChain preflightChain : ClientChain μ)
    (request : ToriumTransactionRequest) (timeoutMs : Option JsNumber) : Action Text :=
  runToriumWriteActionOnce timeoutMs
    (sendToriumTransactionOnceImpl format toriumChains clientChain preflightChain request)

end Sending

/-! ## What is seen of an action -/

/-- What an action has done so far: the answers it read, the preflights that were authorized and
the requests it sent. `clear` says that the signal was read as not aborted and that no promise was
awaited since. -/
structure Seen where
  answers : List Answers := []
  authorized : List ToriumTransactionPreflight := []
  sent : List ToriumTransactionRequest := []
  clear : Bool := false

def Seen.watch : (command : WalletCommand) → Wallet.Response command → Seen → Seen
  | .aborted, aborted, seen => { seen with clear := !aborted }
  | .accountAddress, _, seen => seen
  | .query _ _, .ok answers, seen =>
    { seen with answers := seen.answers ++ [answers], clear := false }
  | .authorize preflight, .ok true, seen =>
    { seen with authorized := seen.authorized ++ [preflight], clear := false }
  | .sendTransaction parameters, _, seen =>
    { seen with sent := seen.sent ++ [parameters], clear := false }
  | _, _, seen => { seen with clear := false }

/-- The fields of a request are those of the preflight; absent ones are read as their defaults. -/
structure Matches (request : ToriumTransactionRequest) (preflight : ToriumTransactionPreflight) :
    Prop where
  recipient : request.recipient.join = preflight.recipient
  data : request.data.getD ['0', 'x'] = preflight.data
  value : request.value.getD 0 = preflight.value
  accessList : request.accessList.getD [] = preflight.accessList
  gas : request.gas = some preflight.gasLimit
  nonce : request.nonce = some preflight.requestedNonce
  maxFeePerGas : request.maxFeePerGas = some preflight.maxFeePerGas
  maxPriorityFeePerGas : request.maxPriorityFeePerGas = some preflight.maxPriorityFeePerGas

/-- The preflight agrees with the answers that were read: nothing blocks the transaction. -/
structure Affordable (preflight : ToriumTransactionPreflight) (answers : Answers) : Prop where
  nonce : preflight.requestedNonce = answers.pendingNonce
  gas : answers.gasEstimate ≤ preflight.gasLimit
  funds : preflight.gasLimit * preflight.maxFeePerGas + preflight.value ≤ answers.balance

/-- What must have happened before a request is sent. -/
def Seen.Authorizes (seen : Seen) (request : ToriumTransactionRequest) : Prop :=
  seen.clear = true ∧ seen.sent = [] ∧ ∃ preflight ∈ seen.authorized, ∃ answers ∈ seen.answers,
    preflight.canSubmit = true ∧ Matches request preflight ∧ Affordable preflight answers

/-- The monitor of an action. -/
def walletMonitor : Monitor Wallet Seen where
  watch := Seen.watch
  admits
    | .sendTransaction request, seen => seen.Authorizes request
    | _, _ => True

section Rules

open Sdk.Action

variable {α β : Type} {seen : Seen}

/-- An action that sends only what was authorized. -/
abbrev Guarded (action : Action α) (post : α → Seen → Prop) (seen : Seen) : Prop :=
  MonitoredAttempt walletMonitor action post (fun _ _ => True) seen

namespace Guarded

theorem bind {action : Action α} {next : α → Action β} {post : β → Seen → Prop}
    (first : Guarded action (fun value => Guarded (next value) post) seen) :
    Guarded (action >>= next) post seen :=
  MonitoredAttempt.bind first

theorem compute {result : Except String α} {post : α → Seen → Prop}
    (holds : ∀ value, result = .ok value → post value seen) :
    Guarded (Action.compute result) post seen := by
  cases result with
  | error message => exact trivial
  | ok value => exact holds value rfl

theorem throwIfAborted {post : Unit → Seen → Prop} (holds : post () { seen with clear := true }) :
    Guarded Action.throwIfAborted post seen := by
  refine ⟨trivial, fun aborted => ?_⟩
  cases aborted with
  | true => exact trivial
  | false => exact holds

variable {post : Text → Seen → Prop} {request : ToriumTransactionRequest}

theorem shownAddress {account : Account} (holds : ∀ text, post text seen) :
    Guarded (Action.shownAddress account) post seen := by
  cases account with
  | address text => exact holds text
  | object => exact ⟨trivial, holds⟩

theorem getChainId {post : JsNumber → Seen → Prop}
    (holds : ∀ id, post id { seen with clear := false }) :
    Guarded (await (command (F := Wallet) .getChainId)) post seen := by
  refine ⟨trivial, fun response => ?_⟩
  cases response with
  | error message => exact trivial
  | ok id => exact holds id

theorem call {parameters : ToriumTransactionRequest} {post : Unit → Seen → Prop}
    (holds : post () { seen with clear := false }) :
    Guarded (await (command (F := Wallet) (.call parameters))) post seen := by
  refine ⟨trivial, fun response => ?_⟩
  cases response with
  | error message => exact trivial
  | ok => exact holds

theorem query {parameters : ToriumTransactionRequest} {address : Text}
    {post : Answers → Seen → Prop} (holds : ∀ answers,
      post answers { seen with answers := seen.answers ++ [answers], clear := false }) :
    Guarded (await (command (F := Wallet) (.query parameters address))) post seen := by
  refine ⟨trivial, fun response => ?_⟩
  cases response with
  | error message => exact trivial
  | ok answers => exact holds answers

theorem authorize {preflight : ToriumTransactionPreflight} {post : Bool → Seen → Prop}
    (rejected : ∀ seen, post false seen)
    (accepted : post true
      { seen with authorized := seen.authorized ++ [preflight], clear := false }) :
    Guarded (await (command (F := Wallet) (.authorize preflight))) post seen := by
  refine ⟨trivial, fun response => ?_⟩
  cases response with
  | error message => exact trivial
  | ok agreed =>
    cases agreed with
    | false => exact rejected _
    | true => exact accepted

theorem sendTransaction (authorized : seen.Authorizes request)
    (holds : ∀ hash seen, post hash seen) :
    Guarded (await (command (F := Wallet) (.sendTransaction request))) post seen := by
  refine ⟨authorized, fun response => ?_⟩
  cases response with
  | error message => exact trivial
  | ok hash => exact holds hash _

variable {format : AddressFormat}

theorem normalizeToriumTransactionRequest {post : ToriumTransactionRequest → Seen → Prop}
    (holds : ∀ shown normalized, Normalizes format shown request normalized →
      post normalized seen) :
    Guarded (Sdk.normalizeToriumTransactionRequest format request) post seen :=
  bind (shownAddress fun shown => compute fun normalized normal =>
    holds shown normalized (normalizeShown_ok.mp normal))

theorem getAccountAddress {account : Option Account} (holds : ∀ address, post address seen) :
    Guarded (Sdk.getAccountAddress format account) post seen :=
  bind (shownAddress fun _ => compute fun address _ => holds address)

variable {μ : Type} [DecidableEq μ] {toriumChains : List (ClientChain μ)} {chain : ClientChain μ}

/-- A preflight is computed from answers that were read. -/
theorem preflight (unsent : seen.sent = []) :
    Guarded (preflightToriumTransactionImpl format toriumChains chain request)
      (fun preflight seen => seen.sent = [] ∧ ∃ shown normalized account, ∃ answers ∈ seen.answers,
        Normalizes format shown request normalized ∧
          Computed normalized account chain.id answers preflight) seen := by
  refine bind (throwIfAborted ?_)
  refine bind (normalizeToriumTransactionRequest fun shown normalized normal => ?_)
  refine bind (getAccountAddress fun account => ?_)
  refine bind (compute fun _ _ => bind (getChainId fun observed => bind (throwIfAborted ?_)))
  refine bind (compute fun _ _ => bind (call (bind (throwIfAborted ?_))))
  refine bind (query fun answers => bind (throwIfAborted (compute fun preflight computed => ?_)))
  exact ⟨unsent, shown, normalized, account, answers,
    List.mem_append_right _ (List.mem_singleton_self answers), normal, computePreflight_ok computed⟩

end Guarded

end Rules

section Sending

variable {format : AddressFormat} {request snapshot normalized result : ToriumTransactionRequest}
variable {shown shown' shown'' account : Text} {chainId : Int} {answers : Answers}
variable {preflight : ToriumTransactionPreflight}

theorem Computed.affordable (computed : Computed normalized account chainId answers preflight)
    (submit : preflight.canSubmit = true) : Affordable preflight answers := by
  have none := computed.canSubmit_eq.symm.trans submit
  obtain ⟨cost, -, -⟩ := assertToriumUint256_ok.mp computed.cost
  rw [blockersOf, List.isEmpty_iff, List.append_eq_nil_iff, List.append_eq_nil_iff] at none
  obtain ⟨⟨enough, funded⟩, next⟩ := none
  refine ⟨?_, ?_, ?_⟩
  · by_contra other
    rw [if_pos other] at next
    cases next
  · by_contra low
    rw [if_pos (not_le.mp low)] at enough
    cases enough
  · by_contra short
    rw [← cost, if_pos (not_le.mp short)] at funded
    cases funded

/-- What is sent is the preflighted request with the amounts of the preflight. -/
theorem Computed.matches_prepared (first : Normalizes format shown request snapshot)
    (second : Normalizes format shown' snapshot normalized)
    (computed : Computed normalized account chainId answers preflight)
    (third : Normalizes format shown'' (prepared snapshot preflight) result) :
    Matches result preflight := by
  obtain ⟨recipient, data, accessList⟩ := first.keeps rfl rfl rfl second
  obtain ⟨recipient', data', accessList'⟩ := first.keeps
    (show (prepared snapshot preflight).recipient = snapshot.recipient from rfl) rfl rfl third
  have value : normalized.value = snapshot.value := congrArg (·.value) second.same
  have value' : result.value = snapshot.value := congrArg (·.value) third.same
  refine ⟨?_, ?_, ?_, ?_, congrArg (·.gas) third.same, congrArg (·.nonce) third.same,
    congrArg (·.maxFeePerGas) third.same, congrArg (·.maxPriorityFeePerGas) third.same⟩
  · rw [recipient', computed.recipient_eq, recipient]
  · rw [data', computed.data_eq, data]
  · rw [value', computed.value_eq, value]
  · rw [accessList', computed.accessList_eq, accessList]

/-- The request with the amounts of its preflight is its own normal form. -/
theorem Computed.normalizes_prepared (first : Normalizes format shown request snapshot)
    (second : Normalizes format shown' snapshot normalized)
    (computed : Computed normalized account chainId answers preflight) :
    normalizeShown format shown (prepared snapshot preflight) =
      .ok (prepared snapshot preflight) := by
  have type : snapshot.type = some "eip1559".toList := congrArg (·.type) first.same
  have value : normalized.value = snapshot.value := congrArg (·.value) second.same
  have amounts : checkAmounts normalized = .ok () := by
    have same : checkAmounts normalized = checkAmounts snapshot := by
      rw [second.same]
      rfl
    exact same.trans second.amounts
  have amended := first.amend (computed.amounts_valid amounts value.symm)
  have prepared_eq : prepared snapshot preflight = { snapshot with
      gas := some preflight.gasLimit
      nonce := some preflight.requestedNonce
      maxFeePerGas := some preflight.maxFeePerGas
      maxPriorityFeePerGas := some preflight.maxPriorityFeePerGas } := by
    rw [prepared, ← type]
  rw [prepared_eq]
  exact amended

variable {μ : Type} [DecidableEq μ] {toriumChains : List (ClientChain μ)}
variable {clientChain preflightChain : ClientChain μ} {timeoutMs : Option JsNumber}

/-- The action sends only what was authorized. -/
theorem sendToriumTransactionOnce_guarded :
    Guarded (sendToriumTransactionOnce format toriumChains clientChain preflightChain request
      timeoutMs) (fun _ _ => True) {} := by
  open Guarded in
  refine bind (compute fun _ _ => bind (throwIfAborted ?_))
  refine bind (throwIfAborted (bind (compute fun _ _ => bind (compute fun _ _ => ?_))))
  refine bind (compute fun _ _ => ?_)
  refine bind (Guarded.normalizeToriumTransactionRequest fun shown snapshot first => ?_)
  refine bind ((Guarded.preflight rfl).mono fun outcome seen holds => ?_)
  cases outcome with
  | error message => exact trivial
  | ok preflight =>
    obtain ⟨unsent, shown', normalized, account, answers, read, second, computed⟩ := holds
    refine bind (compute fun _ submit => ?_)
    have canSubmit : preflight.canSubmit = true := by
      change revertIf (preflight.canSubmit = false) _ = _ at submit
      rwa [revertIf_eq_ok, Bool.not_eq_false] at submit
    refine bind (Guarded.normalizeToriumTransactionRequest fun shown'' result third => ?_)
    refine bind (throwIfAborted (bind (authorize (fun _ => ?_) ?_)))
    · exact bind (compute fun _ refused => (by cases refused))
    · refine bind (compute fun _ _ => bind (throwIfAborted ?_))
      refine bind (Guarded.getAccountAddress fun _ => bind (compute fun _ _ => ?_))
      refine bind (sendTransaction ?_ fun hash seen => compute fun _ _ => trivial)
      exact ⟨rfl, unsent, preflight, List.mem_append_right _ (List.mem_singleton_self preflight),
        answers, read, canSubmit, computed.matches_prepared first second third,
        computed.affordable canSubmit⟩

end Sending

/-! ## Runs -/

/-- An action in execution, with the state of its signal. -/
structure Session where
  program : Program Wallet (Except String Text)
  aborted : Bool
  seen : Seen := {}

/-- What the environment decides about one command: the answer, and whether the signal is aborted
while the answer is awaited. -/
structure Moment where
  respond : (command : WalletCommand) → Wallet.Response command
  abort : Bool

/-- Commands whose promise is awaited. The others are part of the code that runs without
interruption. -/
def WalletCommand.isPromise : WalletCommand → Bool
  | .aborted | .accountAddress => false
  | _ => true

def Session.response (session : Session) (moment : Moment) :
    (command : WalletCommand) → Wallet.Response command
  | .aborted => session.aborted
  | command => moment.respond command

def Session.step (session : Session) (moment : Moment) : Option Session :=
  match session.program with
  | .done _ => none
  | .call c next => some {
      program := next (session.response moment c)
      aborted := session.aborted || (c.isPromise && moment.abort)
      seen := Seen.watch c (session.response moment c) session.seen }

/-- What holds in every session of an action: it is guarded, its signal is as it was read last,
and it sent at most one request. -/
structure Session.Sound (session : Session) : Prop where
  guarded : Monitored walletMonitor session.program (fun _ _ => True) session.seen
  clear : session.seen.clear = true → session.aborted = false
  once : session.seen.sent.length ≤ 1

/-- Only a read of the signal makes it clear, and no promise leaves it clear. -/
theorem Seen.clear_watch {c : WalletCommand} {response : Wallet.Response c} {seen : Seen}
    (clear : (Seen.watch c response seen).clear = true) :
    c = .aborted ∨ c = .accountAddress ∧ seen.clear = true := by
  cases c with
  | aborted => exact .inl rfl
  | accountAddress => exact .inr ⟨rfl, clear⟩
  | getChainId => cases clear
  | call parameters => cases clear
  | query parameters address => cases response <;> cases clear
  | authorize preflight =>
    cases response with
    | error message => cases clear
    | ok agreed => cases agreed <;> cases clear
  | sendTransaction parameters => cases clear

theorem Seen.sent_watch (c : WalletCommand) (response : Wallet.Response c) (seen : Seen) :
    (Seen.watch c response seen).sent = seen.sent ∨ ∃ parameters, c = .sendTransaction parameters ∧
        (Seen.watch c response seen).sent = seen.sent ++ [parameters] := by
  cases c with
  | aborted | accountAddress | getChainId => exact .inl rfl
  | call parameters => exact .inl rfl
  | query parameters address => cases response <;> exact .inl rfl
  | authorize preflight =>
    cases response with
    | error message => exact .inl rfl
    | ok agreed => cases agreed <;> exact .inl rfl
  | sendTransaction parameters => exact .inr ⟨parameters, rfl, rfl⟩

theorem Session.Sound.step {session after : Session} {moment : Moment} (sound : session.Sound)
    (taken : session.step moment = some after) : after.Sound := by
  obtain ⟨program, aborted, seen⟩ := session
  cases program with
  | done value => cases taken
  | call c next =>
    cases taken
    refine ⟨sound.guarded.2 _, ?_, ?_⟩
    · intro clear
      rcases Seen.clear_watch clear with rfl | ⟨rfl, before⟩
      · -- The signal was read by the command itself.
        change (!aborted) = true at clear
        rw [Bool.not_eq_true'] at clear
        rw [clear]
        rfl
      · have calm : aborted = false := sound.clear before
        rw [calm]
        rfl
    · rcases Seen.sent_watch c _ seen with kept | ⟨parameters, rfl, added⟩
      · rw [kept]
        exact sound.once
      · obtain ⟨-, unsent, -⟩ := sound.guarded.1
        rw [added, unsent]
        exact le_rfl

/-- In every run the action sends at most one request. When it does, the signal is not aborted
and the caller authorized a preflight with the same fields, which nothing that was read blocks.
Normalizing the request again with the amounts of its preflight changes nothing. -/
theorem sends_what_was_authorized {μ : Type} [DecidableEq μ] (format : AddressFormat)
    (toriumChains : List (ClientChain μ)) (clientChain preflightChain : ClientChain μ)
    (request : ToriumTransactionRequest) (timeoutMs : Option JsNumber) (aborted : Bool) :
    (∀ moments session, Transition.Run Session.step Transition.Free moments
        { program := (sendToriumTransactionOnce format toriumChains clientChain preflightChain
            request timeoutMs).run
          aborted } session →
      session.seen.sent.length ≤ 1 ∧
      ∀ parameters, session.program.next? = some (.sendTransaction parameters) →
        session.aborted = false ∧ session.seen.sent = [] ∧
          ∃ preflight ∈ session.seen.authorized, ∃ answers ∈ session.seen.answers,
            preflight.canSubmit = true ∧ Matches parameters preflight ∧
              Affordable preflight answers) ∧
    ∀ shown shown' snapshot normalized account chainId answers preflight,
      normalizeShown format shown request = .ok snapshot →
      normalizeShown format shown' snapshot = .ok normalized →
      computePreflight normalized account chainId answers = .ok preflight →
      normalizeShown format shown (prepared snapshot preflight) =
        .ok (prepared snapshot preflight) := by
  constructor
  · intro moments session run
    have start : Session.Sound { program := (sendToriumTransactionOnce format toriumChains
        clientChain preflightChain request timeoutMs).run, aborted } := by
      refine ⟨sendToriumTransactionOnce_guarded.mono fun _ _ _ => trivial, ?_, Nat.zero_le 1⟩
      intro clear
      cases clear
    have sound := run.invariant start fun holds _ taken => holds.step taken
    refine ⟨sound.once, fun parameters issued => ?_⟩
    obtain ⟨clear, unsent, rest⟩ := sound.guarded.next issued
    exact ⟨sound.clear clear, unsent, rest⟩
  · intro shown shown' snapshot normalized account chainId answers preflight first second computed
    exact (computePreflight_ok computed).normalizes_prepared (normalizeShown_ok.mp first)
      (normalizeShown_ok.mp second)

namespace Demo

/-- Whether the action is about to send. -/
def sending (session : Session) : Bool :=
  match session.program.next? with
  | some (.sendTransaction _) => true
  | _ => false

/-- The action on the transfer. -/
def session : Session where
  program :=
    (sendToriumTransactionOnce format [walletChain] walletChain walletChain transfer none).run
  aborted := false

end Demo

theorem sends_what_was_authorized_demo :
    ∃ (session : Session) (parameters : ToriumTransactionRequest),
    session.program.next? = some (.sendTransaction parameters) ∧ session.aborted = false ∧
      session.seen.sent = [] ∧ ∃ preflight ∈ session.seen.authorized,
        Matches parameters preflight := by
  obtain ⟨session, run, reached⟩ := Transition.run_of_execute_any
    (show (Transition.execute Session.step (List.replicate 12 ⟨Demo.respond, false⟩)
      Demo.session).any Demo.sending by decide +kernel)
  unfold Demo.sending at reached
  split at reached
  · rename_i parameters issued
    obtain ⟨calm, unsent, preflight, agreed, answers, -, -, fields, -⟩ :=
      ((sends_what_was_authorized Demo.format [Demo.walletChain] Demo.walletChain Demo.walletChain
        Demo.transfer none false).1 _ session run).2 parameters issued
    exact ⟨session, parameters, issued, calm, unsent, preflight, agreed, fields⟩
  · cases reached

end Torium.Sdk
