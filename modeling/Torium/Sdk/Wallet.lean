import Torium.Lib.Program
import Torium.Lib.Rlp
import Torium.Sdk.Values

/-!
# The wallet of the SDK

A transaction request is normalized, simulated and measured before anyone signs it. The client
that answers the queries, the signal that aborts the action and the account object, whose address
may change between two reads, are the environment of a program. Everything that the code computes
from the answers is a function of them.
-/

namespace Torium.Sdk

open Evm Generator Concurrent

/-- A number, given by its integer value if it has one. -/
abbrev JsNumber : Type := Option Int

/-- The account of a request: an address, or an object that shows one. -/
inductive Account where
  | address (text : Text)
  | object
  deriving DecidableEq

structure AccessEntry where
  address : Text
  storageKeys : List Text
  deriving DecidableEq

/-- A request. A field that is undefined is `none`; the recipient, `to` in the
source, may also be null. -/
structure ToriumTransactionRequest where
  account : Option Account := none
  recipient : Option (Option Text) := none
  data : Option Text := none
  value : Option Int := none
  gas : Option Int := none
  nonce : Option JsNumber := none
  maxFeePerGas : Option Int := none
  maxPriorityFeePerGas : Option Int := none
  type : Option Text := none
  accessList : Option (List AccessEntry) := none
  otherKeys : List Text := []
  deriving DecidableEq

inductive PreflightBlocker where
  | gasBelowEstimate
  | insufficientFunds
  | nonceMismatch
  deriving DecidableEq

structure ToriumTransactionPreflight where
  chainId : Int
  account : Text
  recipient : Option Text
  data : Text
  value : Int
  accessList : List AccessEntry
  gasEstimate : Int
  gasLimit : Int
  maxFeePerGas : Int
  maxPriorityFeePerGas : Int
  maximumCost : Int
  balance : Int
  pendingNonce : JsNumber
  requestedNonce : JsNumber
  encodedTransactionBytes : Nat
  canSubmit : Bool
  blockers : List PreflightBlocker
  deriving DecidableEq

def toriumMaxTransactionGas : Int := 25000000
def toriumMaxEncodedTransactionBytes : Nat := 131072
def toriumMinimumBaseFeePerGas : Int := 1000000000
def toriumMinimumPriorityFeePerGas : Int := 1

/-! ## Checks of single values -/

section Checks

variable (format : AddressFormat)

def normalizeToriumEvmAddress (value : Text) : Except String Text :=
  match format.parse value with
  | some address => pure (format.checksum address)
  | none => throw "Torium EVM address must be a valid 20-byte EIP-55 or uniform-case value."

def normalizeToriumHash (value : Text) : Except String Text := do
  throwIf (isHash value = false)
    "Torium hash must be an exact 32-byte 0x-prefixed hexadecimal value."
  pure (toLowerCase value)

/-- The pattern `^0x(?:[0-9a-fA-F]{2})*$`. -/
def isHexData : Text → Bool
  | '0' :: 'x' :: digits => digits.length % 2 == 0 && digits.all Hexadecimal.isDigit
  | _ => false

def normalizeToriumHexData (value : Text) : Except String Text := do
  throwIf (isHexData value = false)
    "Torium hex data must be 0x-prefixed and contain complete bytes."
  pure (toLowerCase value)

def assertTransactionGas (value : Int) : Except String Unit := do
  let _ ← assertToriumUint256 value
  throwIf (toriumMaxTransactionGas < value)
    "Torium transaction gas exceeds the local block gas limit."

def assertTransactionNonce (value : JsNumber) : Except String Unit :=
  throwIf (value.any (fun n => 0 ≤ n ∧ n ≤ MAX_SAFE_INTEGER) = false)
    "Torium transaction nonce must be a non-negative safe integer."

def normalizeAccessEntry (entry : AccessEntry) : Except String AccessEntry := do
  let address ← normalizeToriumEvmAddress format entry.address
  let storageKeys ← entry.storageKeys.mapM normalizeToriumHash
  pure { address, storageKeys }

def normalizeAccessList : Option (List AccessEntry) → Except String (Option (List AccessEntry))
  | none => pure none
  | some entries => some <$> entries.mapM (normalizeAccessEntry format)

/-- A check of a field that may be absent. -/
def ifDefined {α : Type} (field : Option α) (check : α → Except String Unit) :
    Except String Unit :=
  match field with
  | none => pure ()
  | some value => check value

def checkUint256 (value : Int) : Except String Unit := do
  let _ ← assertToriumUint256 value
  pure ()

end Checks

/-! ## Normalization -/

section Normalization

variable (format : AddressFormat)

def Account.text (shown : Text) : Account → Text
  | .address text => text
  | .object => shown

/-- The account of a normalized request. -/
def Account.normalized (accountAddress : Text) : Account → Account
  | .address _ => .address accountAddress
  | .object => .object

def normalizeRecipient : Option (Option Text) → Except String (Option (Option Text))
  | some (some text) =>
    (fun address => some (some address)) <$> normalizeToriumEvmAddress format text
  | absent => pure absent

def normalizeData : Option Text → Except String (Option Text)
  | none => pure none
  | some text => some <$> normalizeToriumHexData text

/-- The checks of the amounts of a request. -/
def checkAmounts (request : ToriumTransactionRequest) : Except String Unit := do
  ifDefined request.value checkUint256
  ifDefined request.gas assertTransactionGas
  ifDefined request.nonce assertTransactionNonce
  ifDefined request.maxFeePerGas checkUint256
  ifDefined request.maxPriorityFeePerGas checkUint256
  ifDefined request.maxPriorityFeePerGas fun tip =>
    throwIf (tip < toriumMinimumPriorityFeePerGas)
      "Torium maximum priority fee is below the protocol minimum."
  ifDefined request.maxFeePerGas fun fee =>
    throwIf (fee < toriumMinimumBaseFeePerGas +
        request.maxPriorityFeePerGas.getD toriumMinimumPriorityFeePerGas)
      "Torium maximum fee cannot cover the protocol base fee and priority fee."
  ifDefined request.maxFeePerGas fun fee =>
    ifDefined request.maxPriorityFeePerGas fun tip =>
      throwIf (fee < tip) "Torium maximum priority fee must not exceed the maximum fee."

/-- The normalized request, if the account object shows the given address. -/
def normalizeShown (shown : Text) (request : ToriumTransactionRequest) :
    Except String ToriumTransactionRequest := do
  throwIf (request.otherKeys ≠ [])
    "Torium stable transaction helper received an unsupported standard EVM field."
  let given ← orRevert "Torium transaction requires an explicit account." request.account
  throwIf (request.type ≠ none ∧ request.type ≠ some "eip1559".toList)
    "Torium stable transaction helper accepts EIP-1559 requests only."
  let accountAddress ← normalizeToriumEvmAddress format (given.text shown)
  let account := given.normalized accountAddress
  let recipient ← normalizeRecipient format request.recipient
  let data ← normalizeData request.data
  throwIf (recipient.join = none ∧ (data = none ∨ data = some ['0', 'x']))
    "Torium contract deployment requires non-empty standard EVM bytecode."
  ifDefined data fun data =>
    throwIf (toriumMaxEncodedTransactionBytes ≤ (data.length - 2) / 2)
      "Torium transaction data cannot fit within the encoded transaction limit."
  checkAmounts request
  let accessList ← normalizeAccessList format request.accessList
  pure { request with
    type := some "eip1559".toList
    account := some account
    recipient
    data
    accessList }

end Normalization

/-! ## The environment of an action -/

/-- The answers to the four queries that are made at once. -/
structure Answers where
  gasEstimate : Int
  maxFeePerGas : Int
  maxPriorityFeePerGas : Int
  balance : Int
  pendingNonce : JsNumber

/-- What an action does with its environment: read the signal and the account object, query the
client, ask for the authorization and send. -/
inductive WalletCommand where
  | aborted
  | accountAddress
  | getChainId
  | call (parameters : ToriumTransactionRequest)
  | query (parameters : ToriumTransactionRequest) (address : Text)
  | authorize (preflight : ToriumTransactionPreflight)
  | sendTransaction (parameters : ToriumTransactionRequest)

/-- The answers; a promise may also be rejected. -/
@[reducible] def Wallet : Interface where
  Command := WalletCommand
  Response
    | .aborted => Bool
    | .accountAddress => Text
    | .getChainId => Except String JsNumber
    | .call _ => Except String Unit
    | .query _ _ => Except String Answers
    | .authorize _ => Except String Bool
    | .sendTransaction _ => Except String Text

abbrev Action (α : Type) : Type := ExceptT String (Program Wallet) α

namespace Action

/-- A computation of the action itself. -/
def compute {α : Type} (result : Except String α) : Action α := ExceptT.mk (.done result)

instance : MonadLift (Except String) (ExceptT String (Program Wallet)) := ⟨compute⟩

/-- A command whose promise is awaited. -/
def await {α : Type} (promise : Program Wallet (Except String α)) : Action α := ExceptT.mk promise

def throwIfAborted : Action Unit := do
  let aborted ← ExceptT.lift (command (F := Wallet) .aborted)
  if aborted then throw "The operation was aborted." else pure ()

/-- The address that the account shows at this moment. -/
def shownAddress : Account → Action Text
  | .address text => pure text
  | .object => ExceptT.lift (command (F := Wallet) .accountAddress)

end Action

section Preflight

open Sdk.Action

variable {μ : Type} [DecidableEq μ] (format : AddressFormat)

def normalizeToriumTransactionRequest (request : ToriumTransactionRequest) :
    Action ToriumTransactionRequest := do
  let shown ← shownAddress (request.account.getD (.address []))
  normalizeShown format shown request

def getAccountAddress (account : Option Account) : Action Text := do
  let shown ← shownAddress (account.getD (.address []))
  normalizeToriumEvmAddress format shown

/-- A chain definition, with the metadata that must be canonical. -/
structure ClientChain (μ : Type) where
  id : Int
  torium : μ
  nativeCurrency : μ

def assertToriumChain (toriumChains : List (ClientChain μ)) (chain : ClientChain μ) :
    Except String Unit := do
  let canonical ← orRevert "Torium chain ID must match a canonical versioned replay domain."
    (toriumChains.find? fun candidate => candidate.id == chain.id)
  throwIf (chain.torium ≠ canonical.torium ∨ chain.nativeCurrency ≠ canonical.nativeCurrency)
    "Torium wallet client requires a canonical Torium chain definition."

end Preflight

/-! ## The encoded transaction -/

/-- The fields of an EIP-1559 transaction without its signature. -/
structure Eip1559 where
  chainId : Nat
  nonce : Nat
  maxPriorityFeePerGas : Nat
  maxFeePerGas : Nat
  gas : Nat
  recipient : List Byte
  value : Nat
  data : List Byte
  accessList : List (List Byte × List (List Byte))

structure Signature where
  yParity : Bool
  r : BitVec 256
  s : BitVec 256

/-- The bytes that a text of hexadecimal digits stands for. -/
def pairBytes : Text → List Byte
  | high :: low :: rest => BitVec.ofNat 8 (Hexadecimal.value [high, low]) :: pairBytes rest
  | _ => []

def hexToBytes (text : Text) : List Byte := pairBytes (text.drop 2)

def bytesToHex (bytes : List Byte) : Text :=
  '0' :: 'x' :: bytes.flatMap fun byte => Hexadecimal.numeral 2 byte.toNat

def accessItem (entry : List Byte × List (List Byte)) : Rlp :=
  .list [.bytes entry.1, .list (entry.2.map .bytes)]

/-- The fields in the order of the envelope. -/
def Eip1559.items (tx : Eip1559) : List Rlp :=
  [.nat tx.chainId, .nat tx.nonce, .nat tx.maxPriorityFeePerGas, .nat tx.maxFeePerGas, .nat tx.gas,
    .bytes tx.recipient, .nat tx.value, .bytes tx.data, .list (tx.accessList.map accessItem)]

def Signature.items (signature : Signature) : List Rlp :=
  [.nat signature.yParity.toNat, .nat signature.r.toNat, .nat signature.s.toNat]

/-- The signed transaction: its type, then the list of its fields. -/
def Eip1559.encode (tx : Eip1559) (signature : Signature) : List Byte :=
  2 :: Rlp.encode (.list (tx.items ++ signature.items))

def serializeTransaction (tx : Eip1559) (signature : Signature) : Text :=
  bytesToHex (tx.encode signature)

def maximumLengthSignatureComponent : BitVec 256 := BitVec.allOnes 256

def getMaximumSignedTransactionBytes (request : Eip1559) : Nat :=
  let serialized := serializeTransaction request
    { r := maximumLengthSignatureComponent, s := maximumLengthSignatureComponent, yParity := true }
  (serialized.length - 2) / 2

/-- The transaction with the given fields, as they are encoded. -/
def transactionOf (chainId : Int) (nonce : JsNumber) (maxFeePerGas maxPriorityFeePerGas gas : Int)
    (recipient : Option Text) (value : Int) (data : Text) (accessList : List AccessEntry) :
    Eip1559 where
  chainId := chainId.toNat
  nonce := (nonce.getD 0).toNat
  maxPriorityFeePerGas := maxPriorityFeePerGas.toNat
  maxFeePerGas := maxFeePerGas.toNat
  gas := gas.toNat
  recipient := (recipient.map hexToBytes).getD []
  value := value.toNat
  data := hexToBytes data
  accessList := accessList.map fun entry =>
    (hexToBytes entry.address, entry.storageKeys.map hexToBytes)

/-- The transaction that a preflight is about. -/
def ToriumTransactionPreflight.transaction (preflight : ToriumTransactionPreflight) : Eip1559 :=
  transactionOf preflight.chainId preflight.requestedNonce preflight.maxFeePerGas
    preflight.maxPriorityFeePerGas preflight.gasLimit preflight.recipient preflight.value
    preflight.data preflight.accessList

/-! ## The preflight -/

section Preflight

open Sdk.Action

variable {μ : Type} [DecidableEq μ] (format : AddressFormat) (toriumChains : List (ClientChain μ))

/-- The blockers of a transaction, in the order in which they are found. -/
def blockersOf (gasLimit maximumCost : Int) (requestedNonce : JsNumber) (answers : Answers) :
    List PreflightBlocker :=
  (if gasLimit < answers.gasEstimate then [PreflightBlocker.gasBelowEstimate] else []) ++
  (if answers.balance < maximumCost then [.insufficientFunds] else []) ++
  (if requestedNonce ≠ answers.pendingNonce then [.nonceMismatch] else [])

/-- What the preflight computes from the answers of the client. -/
def computePreflight (normalized : ToriumTransactionRequest) (account : Text) (chainId : Int)
    (answers : Answers) : Except String ToriumTransactionPreflight := do
  assertTransactionGas answers.gasEstimate
  assertTransactionNonce answers.pendingNonce
  let gasLimit := normalized.gas.getD answers.gasEstimate
  let maxFeePerGas := normalized.maxFeePerGas.getD answers.maxFeePerGas
  let maxPriorityFeePerGas := normalized.maxPriorityFeePerGas.getD answers.maxPriorityFeePerGas
  checkUint256 maxFeePerGas
  checkUint256 maxPriorityFeePerGas
  throwIf (maxFeePerGas < maxPriorityFeePerGas)
    "Torium maximum priority fee must not exceed the maximum fee."
  throwIf (maxPriorityFeePerGas < toriumMinimumPriorityFeePerGas)
    "Torium maximum priority fee is below the protocol minimum."
  throwIf (maxFeePerGas < toriumMinimumBaseFeePerGas + maxPriorityFeePerGas)
    "Torium maximum fee cannot cover the protocol base fee and priority fee."
  let value := normalized.value.getD 0
  let maximumCost ← assertToriumUint256 (gasLimit * maxFeePerGas + value)
  let requestedNonce := normalized.nonce.getD answers.pendingNonce
  let data := normalized.data.getD ['0', 'x']
  let accessList := normalized.accessList.getD []
  let encodedTransactionBytes := getMaximumSignedTransactionBytes
    (transactionOf chainId requestedNonce maxFeePerGas maxPriorityFeePerGas gasLimit
      normalized.recipient.join value data accessList)
  throwIf (toriumMaxEncodedTransactionBytes < encodedTransactionBytes)
    "Torium signed transaction exceeds the encoded transaction limit."
  let blockers := blockersOf gasLimit maximumCost requestedNonce answers
  pure {
    chainId
    account
    recipient := normalized.recipient.join
    data
    value
    accessList
    gasEstimate := answers.gasEstimate
    gasLimit
    maxFeePerGas
    maxPriorityFeePerGas
    maximumCost
    balance := answers.balance
    pendingNonce := answers.pendingNonce
    requestedNonce
    encodedTransactionBytes
    canSubmit := blockers.isEmpty
    blockers }

def preflightToriumTransactionImpl (chain : ClientChain μ) (request : ToriumTransactionRequest) :
    Action ToriumTransactionPreflight := do
  throwIfAborted
  let normalized ← normalizeToriumTransactionRequest format request
  let account ← getAccountAddress format normalized.account
  assertToriumChain toriumChains chain
  let observedChainId ← await (command (F := Wallet) .getChainId)
  throwIfAborted
  throwIf (observedChainId ≠ some chain.id)
    "Torium preflight endpoint does not match the configured chain."
  let simulationRequest := { normalized with account := some (.address account), gas := none }
  await (command (F := Wallet) (.call simulationRequest))
  throwIfAborted
  let answers ← await (command (F := Wallet) (.query simulationRequest account))
  throwIfAborted
  computePreflight normalized account chain.id answers

variable {format toriumChains}
variable {normalized : ToriumTransactionRequest} {account : Text} {chainId : Int}
variable {answers : Answers} {preflight : ToriumTransactionPreflight}

/-- What holds of a preflight that was computed: where its fields come from, and the checks that
they passed. -/
structure Computed (normalized : ToriumTransactionRequest) (account : Text) (chainId : Int)
    (answers : Answers) (preflight : ToriumTransactionPreflight) : Prop where
  chainId_eq : preflight.chainId = chainId
  account_eq : preflight.account = account
  recipient_eq : preflight.recipient = normalized.recipient.join
  data_eq : preflight.data = normalized.data.getD ['0', 'x']
  value_eq : preflight.value = normalized.value.getD 0
  accessList_eq : preflight.accessList = normalized.accessList.getD []
  gasEstimate_eq : preflight.gasEstimate = answers.gasEstimate
  gasLimit_eq : preflight.gasLimit = normalized.gas.getD answers.gasEstimate
  maxFeePerGas_eq : preflight.maxFeePerGas = normalized.maxFeePerGas.getD answers.maxFeePerGas
  maxPriorityFeePerGas_eq : preflight.maxPriorityFeePerGas =
    normalized.maxPriorityFeePerGas.getD answers.maxPriorityFeePerGas
  balance_eq : preflight.balance = answers.balance
  pendingNonce_eq : preflight.pendingNonce = answers.pendingNonce
  requestedNonce_eq : preflight.requestedNonce = normalized.nonce.getD answers.pendingNonce
  canSubmit_eq : preflight.canSubmit = (blockersOf preflight.gasLimit preflight.maximumCost
    preflight.requestedNonce answers).isEmpty
  estimate : assertTransactionGas answers.gasEstimate = .ok ()
  pending : assertTransactionNonce answers.pendingNonce = .ok ()
  fee : checkUint256 preflight.maxFeePerGas = .ok ()
  tip : checkUint256 preflight.maxPriorityFeePerGas = .ok ()
  ordered : preflight.maxPriorityFeePerGas ≤ preflight.maxFeePerGas
  minimum : toriumMinimumPriorityFeePerGas ≤ preflight.maxPriorityFeePerGas
  covered : toriumMinimumBaseFeePerGas + preflight.maxPriorityFeePerGas ≤ preflight.maxFeePerGas
  cost : assertToriumUint256 (preflight.gasLimit * preflight.maxFeePerGas + preflight.value) =
    .ok preflight.maximumCost
  bytes : preflight.encodedTransactionBytes =
    getMaximumSignedTransactionBytes preflight.transaction
  fits : preflight.encodedTransactionBytes ≤ toriumMaxEncodedTransactionBytes

theorem computePreflight_ok
    (passed : computePreflight normalized account chainId answers = .ok preflight) :
    Computed normalized account chainId answers preflight := by
  simp only [computePreflight, throwIf, bind_eq_ok, revertIf_eq_ok, exists_const] at passed
  obtain ⟨⟨⟩, estimate, ⟨⟩, pending, ⟨⟩, fee, ⟨⟩, tip, ordered, minimum, covered, cost, assured,
    fits, same⟩ := passed
  cases same
  exact ⟨rfl, rfl, rfl, rfl, rfl, rfl, rfl, rfl, rfl, rfl, rfl, rfl, rfl, rfl, estimate, pending,
    fee, tip, not_lt.mp ordered, not_lt.mp minimum, not_lt.mp covered, assured, rfl, not_lt.mp fits⟩

/-- A preflight that was returned was computed from the normalized request and some answers. -/
theorem preflight_computed {chain : ClientChain μ} {request : ToriumTransactionRequest}
    (passed : (preflightToriumTransactionImpl format toriumChains chain request).run.Returns
      (.ok preflight)) :
    ∃ normalized account answers, Computed normalized account chain.id answers preflight := by
  simp only [preflightToriumTransactionImpl, Program.returns_bind_ok] at passed
  obtain ⟨-, -, normalized, -, account, -, -, -, -, -, -, -, -, -, -, -, -, -, answers, -, -, -,
    computed⟩ := passed
  exact ⟨normalized, account, answers, computePreflight_ok computed⟩

end Preflight

end Torium.Sdk
