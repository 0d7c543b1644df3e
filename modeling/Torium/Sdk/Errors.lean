import Mathlib.Algebra.Order.Floor.Defs
import Mathlib.Data.Rat.Floor
import Torium.Generator.Input

/-!
# Normalization of errors

Anything can be thrown, so an error is a value of the language: a primitive one, or an object
whose properties are read from the heap. Its causes may be cyclic. The pattern engine, the case
mapping and the arithmetic of the standard library are parameters.

Two errors that differ in their message texts only are normalized to the same error, if they fall
into the same category: every pass over the causes but the classification ignores the texts.
-/

namespace Torium.Sdk

open Generator

/-! ## Values -/

/-- A number of the language. -/
inductive JsNum where
  | finite (value : ℚ)
  | nan
  | infinite (negative : Bool)
  deriving DecidableEq

/-- A value of the language. Objects and functions are compared by identity. -/
inductive JsValue where
  | undefined
  | null
  | bool (value : Bool)
  | number (value : JsNum)
  | bigint (value : Int)
  | string (value : Text)
  | object (reference : Nat)
  | function (reference : Nat)
  deriving DecidableEq

/-- The objects and functions: their properties, what a function returns or throws for a text, the
number that an object converts to, and whether it is an error of the SDK. -/
structure JsHeap where
  property : Nat → String → JsValue
  call : Nat → Text → Except JsValue JsValue
  convert : Nat → JsNum
  isSdkError : Nat → Bool

/-- The standard library. Patterns are given by their source text. -/
class JsLibrary where
  toLowerCase : Text → Text
  test : String → Text → Bool
  replace : String → String → Text → Text
  parseNumber : Text → JsNum
  bigintNumber : Int → JsNum
  multiply : ℚ → ℚ → JsNum

/-- A property of a value; one that is no object has no properties. -/
def JsHeap.get (heap : JsHeap) (value : JsValue) (key : String) : JsValue :=
  match value with
  | .object reference => heap.property reference key
  | _ => .undefined

def JsHeap.toNumber [JsLibrary] (heap : JsHeap) : JsValue → JsNum
  | .undefined => .nan
  | .null => .finite 0
  | .bool value => .finite (if value then 1 else 0)
  | .number value => value
  | .bigint value => JsLibrary.bigintNumber value
  | .string value => JsLibrary.parseNumber value
  | .object reference => heap.convert reference
  | .function reference => heap.convert reference

/-- The smaller of a number, rounded down, and 30000. -/
def floorCapped : JsNum → JsNum
  | .finite value => .finite (min ⌊value⌋ 30000 : Int)
  | .nan => .nan
  | .infinite negative => if negative then .infinite true else .finite 30000

/-! ## Errors of the SDK -/

inductive ErrorCategory where
  | configuration | wrongChain | transport | rateLimit | timeout | cancellation | rpc | simulation
  | revert | nonce | fee | funds | replacement | compatibility | contract | unknown
  deriving DecidableEq

inductive OperationKind where
  | read | write | broadcast
  deriving DecidableEq

inductive ClientKind where
  | endpoint | publicClient | wallet | contract
  deriving DecidableEq

structure ErrorContext where
  operation : Text
  kind : OperationKind
  clientKind : Option ClientKind := none
  method : Option Text := none
  chainId : Option JsNum := none
  requestId : Option Text := none
  fallbackCategory : Option ErrorCategory := none

inductive CauseCode where
  | number (value : JsNum)
  | text (value : Text)

inductive ToriumErrorCause where
  | mk (name : Text) (message : Text) (code : Option CauseCode) (cause : Option ToriumErrorCause)

structure ToriumSdkError where
  code : String
  category : ErrorCategory
  message : String
  context : ErrorContext
  retryable : Bool
  safeToRetry : Bool
  rpcCode : Option JsNum
  httpStatus : Option JsNum
  retryAfterMs : Option JsNum
  revertData : Option Text
  revertReason : Option Text
  cause : Option ToriumErrorCause

/-- A field of the JSON form. -/
inductive JsonField where
  | text (value : Text)
  | number (value : JsNum)
  | bool (value : Bool)
  | cause (value : ToriumErrorCause)

/-- What normalization throws. -/
inductive Thrown where
  | typeError (message : String)
  | value (value : JsValue)

def categoryName : ErrorCategory → String
  | .configuration => "configuration"
  | .wrongChain => "wrong-chain"
  | .transport => "transport"
  | .rateLimit => "rate-limit"
  | .timeout => "timeout"
  | .cancellation => "cancellation"
  | .rpc => "rpc"
  | .simulation => "simulation"
  | .revert => "revert"
  | .nonce => "nonce"
  | .fee => "fee"
  | .funds => "funds"
  | .replacement => "replacement"
  | .compatibility => "compatibility"
  | .contract => "contract"
  | .unknown => "unknown"

def categoryCode : ErrorCategory → String
  | .configuration => "TORIUM_CONFIG_INVALID"
  | .wrongChain => "TORIUM_WRONG_CHAIN"
  | .transport => "TORIUM_TRANSPORT_FAILED"
  | .rateLimit => "TORIUM_RATE_LIMITED"
  | .timeout => "TORIUM_TIMEOUT"
  | .cancellation => "TORIUM_CANCELLED"
  | .rpc => "TORIUM_RPC_FAILED"
  | .simulation => "TORIUM_SIMULATION_FAILED"
  | .revert => "TORIUM_REVERTED"
  | .nonce => "TORIUM_NONCE_INVALID"
  | .fee => "TORIUM_FEE_INVALID"
  | .funds => "TORIUM_FUNDS_INSUFFICIENT"
  | .replacement => "TORIUM_REPLACEMENT_FAILED"
  | .compatibility => "TORIUM_COMPATIBILITY_FAILED"
  | .contract => "TORIUM_CONTRACT_FAILED"
  | .unknown => "TORIUM_UNKNOWN_FAILED"

def defaultMessage : ErrorCategory → String
  | .configuration => "The Torium action configuration is invalid."
  | .wrongChain => "The Torium action is connected to the wrong chain."
  | .transport => "The Torium transport request failed."
  | .rateLimit => "The Torium RPC request was rate limited."
  | .timeout => "The Torium action exceeded its timeout."
  | .cancellation => "The Torium action was cancelled."
  | .rpc => "The Torium JSON-RPC request failed."
  | .simulation => "The Torium transaction simulation failed."
  | .revert => "The Torium EVM execution reverted."
  | .nonce => "The Torium transaction nonce is invalid."
  | .fee => "The Torium transaction fee is invalid."
  | .funds => "The Torium account has insufficient funds."
  | .replacement => "The Torium transaction replacement failed."
  | .compatibility => "The Torium endpoint or deployment is incompatible."
  | .contract => "The Torium contract action failed."
  | .unknown => "The Torium action failed."

def kindName : OperationKind → String
  | .read => "read"
  | .write => "write"
  | .broadcast => "broadcast"

def clientKindName : ClientKind → String
  | .endpoint => "endpoint"
  | .publicClient => "public"
  | .wallet => "wallet"
  | .contract => "contract"

/-- The JSON form: the fields that are defined, in their order. -/
def ToriumSdkError.toJSON (error : ToriumSdkError) : List (String × JsonField) :=
  [("name", some (.text "ToriumSdkError".toList)),
   ("message", some (.text error.message.toList)),
   ("code", some (.text error.code.toList)),
   ("category", some (.text (categoryName error.category).toList)),
   ("operation", some (.text error.context.operation)),
   ("kind", some (.text (kindName error.context.kind).toList)),
   ("clientKind", error.context.clientKind.map fun kind => .text (clientKindName kind).toList),
   ("method", error.context.method.map .text),
   ("chainId", error.context.chainId.map .number),
   ("requestId", error.context.requestId.map .text),
   ("retryable", some (.bool error.retryable)),
   ("safeToRetry", some (.bool error.safeToRetry)),
   ("rpcCode", error.rpcCode.map .number),
   ("httpStatus", error.httpStatus.map .number),
   ("retryAfterMs", error.retryAfterMs.map .number),
   ("revertData", error.revertData.map .text),
   ("revertReason", error.revertReason.map .text),
   ("cause", error.cause.map .cause)].filterMap fun (key, field) =>
     field.map fun value => (key, value)

/-! ## The chain of causes -/

/-- One error of the chain. -/
structure ErrorRecord where
  value : JsValue
  name : Text
  message : Text

def textOr (fallback : String) : JsValue → Text
  | .string text => text
  | _ => fallback.toList

def JsHeap.record (heap : JsHeap) (value : JsValue) : ErrorRecord where
  value
  name := textOr "Error" (heap.get value "name")
  message := textOr "" (heap.get value "message")

/-- The loop of `errorChain`; without an answer when it takes more rounds than given. -/
def errorChainFrom (heap : JsHeap) :
    Nat → List ErrorRecord → List JsValue → JsValue → Option (List ErrorRecord)
  | 0, _, _, _ => none
  | rounds + 1, result, visited, current =>
    if current = .undefined ∨ current = .null ∨ 8 ≤ result.length ∨ current ∈ visited then
      some result
    else
      errorChainFrom heap rounds (result ++ [heap.record current]) (current :: visited)
        (heap.get current "cause")

def errorChain (heap : JsHeap) (rounds : Nat) (error : JsValue) : Option (List ErrorRecord) :=
  errorChainFrom heap rounds [] [] error

def finiteNumber : JsValue → Option JsNum
  | .number (.finite value) => some (.finite value)
  | _ => none

def firstNumber (heap : JsHeap) (chain : List ErrorRecord) (key : String) : Option JsNum :=
  chain.findSome? fun record => finiteNumber (heap.get record.value key)

section Texts

variable [JsLibrary]

def sanitizeText (value : Text) : Text :=
  JsLibrary.replace "0x[0-9a-f]\x7b64,\x7d" "[redacted-hex]"
    (JsLibrary.replace
      ("\\b(?:authorization|api[-_ ]?key|token|secret|password|mnemonic|private[-_ ]?key)" ++
        "\\s*[:=]\\s*\\S+") "[redacted-field]"
      (JsLibrary.replace "\\bbearer\\s+\\S+" "Bearer [redacted]"
        (JsLibrary.replace "\\b[a-z][a-z0-9+.-]*:\\/\\/\\S+" "[redacted-url]" value)))

def safeString : JsValue → Option Text
  | .string text => some (sanitizeText text)
  | _ => none

def firstSafeString (heap : JsHeap) (chain : List ErrorRecord) (key : String) : Option Text :=
  chain.findSome? fun record => safeString (heap.get record.value key)

/-- A text of hexadecimal data that is not too long. -/
def hexData : JsValue → Option Text
  | .string text =>
    if JsLibrary.test "^0x[0-9a-f]*$" text ∧ text.length ≤ 131074 then some text else none
  | _ => none

def firstRevertData (heap : JsHeap) (chain : List ErrorRecord) : Option Text :=
  chain.findSome? fun record =>
    [heap.get record.value "raw", heap.get record.value "data",
      heap.get (heap.get record.value "data") "data"].findSome? hexData

/-- The delay that one error of the chain names, if it does. -/
def retryAfterOf (heap : JsHeap) (value : JsValue) : Except JsValue (Option JsNum) :=
  match heap.get value "retryAfterMs" with
  | .number (.finite direct) =>
    if 0 ≤ direct then pure (some (floorCapped (.finite direct))) else fromHeaders
  | _ => fromHeaders
where
  fromHeaders : Except JsValue (Option JsNum) :=
    match heap.get (heap.get value "headers") "get" with
    | .function reference => do
        let header ← heap.call reference "retry-after".toList
        match heap.toNumber header with
        | .finite seconds =>
          if 0 ≤ seconds then pure (some (floorCapped (JsLibrary.multiply seconds 1000)))
          else pure none
        | _ => pure none
    | _ => pure none

def getRetryAfterMs (heap : JsHeap) : List ErrorRecord → Except JsValue (Option JsNum)
  | [] => pure none
  | record :: chain => do
      match ← retryAfterOf heap record.value with
      | some delay => pure (some delay)
      | none => getRetryAfterMs heap chain

/-! ## Classification -/

def isNumber : JsValue → Bool
  | .number _ => true
  | _ => false

def classify (heap : JsHeap) (chain : List ErrorRecord) (context : ErrorContext) : ErrorCategory :=
  let names := chain.map fun record => JsLibrary.toLowerCase record.name
  let messages := chain.map fun record => JsLibrary.toLowerCase record.message
  let codes := chain.map fun record => heap.get record.value "code"
  let statuses := chain.map fun record => heap.get record.value "status"
  let hasName (pattern : String) := names.any (JsLibrary.test pattern)
  let hasMessage (pattern : String) := messages.any (JsLibrary.test pattern)
  if hasName "abort|userrejectedrequest" ∨ .number (.finite 4001) ∈ codes ∨
      hasMessage "user rejected|request rejected by user" then .cancellation
  else if hasName "timeout" ∨ hasMessage "timed? out|timeout" then .timeout
  else if .number (.finite (-32005)) ∈ codes ∨ .number (.finite 429) ∈ statuses ∨
      hasName "limitexceeded|ratelimit" ∨ hasMessage "rate.?limit|too many requests" then .rateLimit
  else if hasName "chainmismatch|chainnotfound|switchchain" ∨
      hasMessage ("wrong chain|chain id.+does not match|chain mismatch|" ++
        "does not match the configured chain|must use the same chain") then .wrongChain
  else if JsLibrary.test "typeerror|rangeerror" (names.head?.getD []) then .configuration
  else if hasName "replacement" ∨
      hasMessage "replacement transaction underpriced|transaction replaced" then .replacement
  else if hasName "nonce" ∨
      hasMessage "nonce too (?:low|high)|nonce mismatch|transaction nonce" then .nonce
  else if hasName "fee|tipabovefeecap" ∨ hasMessage "fee cap|priority fee|transaction fee" then .fee
  else if hasName "insufficientfunds" ∨ hasMessage "insufficient funds" then .funds
  else if hasName "contractfunctionreverted|executionreverted|rawcontract" ∨
      hasMessage "execution reverted|revert(?:ed)?" then .revert
  else if hasName "httprequest|websocketrequest|socketclosed|network|fetch" ∨
      hasMessage ("transport unavailable|network error|fetch failed|offline|" ++
        "connection (?:closed|refused|reset)") ∨ statuses.any isNumber then .transport
  else if hasName "rpc" ∨ codes.any isNumber then .rpc
  else if hasName "callexecution|estimategasexecution|simulation" then .simulation
  else if hasName "contractfunction|abifunction|contract" then .contract
  else context.fallbackCategory.getD .unknown

def isTransient (category : ErrorCategory) (rpcCode httpStatus : Option JsNum) : Bool :=
  match category with
  | .transport => httpStatus.all fun status =>
    decide (status ∈ [408, 429, 500, 502, 503, 504].map JsNum.finite)
  | .rateLimit | .timeout => true
  | .rpc => decide (rpcCode.getD (.finite 0) ∈ [-32603, -32002, -32005].map JsNum.finite)
  | _ => false

/-! ## The summary of the causes -/

def safeCauseNames : List String :=
  ["Error", "TypeError", "RangeError", "DOMException", "AbortError", "UserRejectedRequestError",
   "TimeoutError", "WaitForTransactionReceiptTimeoutError", "LimitExceededRpcError",
   "ChainMismatchError", "ChainNotFoundError", "SwitchChainError",
   "ReplacementTransactionUnderpricedError", "NonceTooLowError", "NonceTooHighError",
   "FeeCapTooLowError", "TipAboveFeeCapError", "InsufficientFundsError",
   "ContractFunctionRevertedError", "ExecutionRevertedError", "RawContractError",
   "CallExecutionError", "EstimateGasExecutionError", "SimulationError",
   "ContractFunctionZeroDataError", "AbiFunctionNotFoundError", "HttpRequestError",
   "WebSocketRequestError", "SocketClosedError", "NetworkError", "FetchError",
   "InvalidParamsRpcError", "InternalRpcError", "RpcRequestError"]

def safeCauseCodes : List String :=
  ["ABORT_ERR", "ECONNREFUSED", "ECONNRESET", "ENETUNREACH", "ETIMEDOUT", "EAI_AGAIN",
   "ERR_NETWORK", "ERR_CANCELED", "ERR_ABORTED"]

def safeCauseName : JsValue → Text
  | .string text => if text ∈ safeCauseNames.map String.toList then text else "Error".toList
  | _ => "Error".toList

def safeCauseCode : JsValue → Option CauseCode
  | .number (.finite value) => some (.number (.finite value))
  | .string text =>
    if text ∈ safeCauseCodes.map String.toList then some (.text text) else none
  | _ => none

/-- The recursion of `toToriumErrorCause`; without an answer when it is deeper than given. -/
def toToriumErrorCause (heap : JsHeap) :
    Nat → JsValue → Nat → List JsValue → Option (Option ToriumErrorCause)
  | 0, _, _, _ => none
  | calls + 1, error, depth, visited =>
    if error = .undefined ∨ error = .null ∨ 5 ≤ depth ∨ error ∈ visited then some none
    else do
      let name := safeCauseName (heap.get error "name")
      let message := "Upstream ".toList ++ name ++ " details were redacted.".toList
      let cause ← toToriumErrorCause heap calls (heap.get error "cause") (depth + 1)
        (error :: visited)
      some (some (.mk name message (safeCauseCode (heap.get error "code")) cause))

/-! ## Normalization -/

def validLabel (value : Text) : Bool :=
  decide (1 ≤ value.length) && decide (value.length ≤ 96) &&
    JsLibrary.test "^[a-z0-9_.:-]+$" value

def assertContext (context : ErrorContext) : Except Thrown Unit :=
  match [("operation", some context.operation), ("method", context.method),
      ("requestId", context.requestId)].find? fun (_, value) =>
        value.any fun text => !validLabel text with
  | some (label, _) => throw (.typeError ("Torium diagnostic " ++ label ++ " is invalid."))
  | none => pure ()

/-- The error for an error that is none of the SDK. There is no answer when the loops take more
rounds than given. -/
def normalizeForeign (heap : JsHeap) (rounds : Nat) (error : JsValue) (context : ErrorContext) :
    Option (Except Thrown ToriumSdkError) := do
  let chain ← errorChain heap rounds error
  let cause ← toToriumErrorCause heap rounds error 0 []
  let category := classify heap chain context
  let rpcCode := firstNumber heap chain "code"
  let httpStatus := firstNumber heap chain "status"
  let retryable := isTransient category rpcCode httpStatus
  some (match getRetryAfterMs heap chain with
    | .error thrown => .error (.value thrown)
    | .ok retryAfterMs => .ok {
        code := categoryCode category
        category
        message := defaultMessage category
        context
        retryable
        safeToRetry := decide (context.kind = .read) && retryable
        rpcCode
        httpStatus
        retryAfterMs
        revertData := firstRevertData heap chain
        revertReason := firstSafeString heap chain "reason"
        cause })

def isSdkError (heap : JsHeap) : JsValue → Bool
  | .object reference => heap.isSdkError reference
  | _ => false

/-- The normalized error, or the error itself when it is one of the SDK. -/
def normalizeToriumError (heap : JsHeap) (rounds : Nat) (error : JsValue) (context : ErrorContext) :
    Option (Except Thrown (JsValue ⊕ ToriumSdkError)) :=
  match assertContext context with
  | .error thrown => some (.error thrown)
  | .ok () =>
    if isSdkError heap error then some (.ok (.inl error))
    else (normalizeForeign heap rounds error context).map fun result => result.map .inr

end Texts

/-! ## Termination -/

section Termination

variable {heap : JsHeap} {rounds more depth : Nat} {visited : List JsValue} {error : JsValue}

/-- The chain has at most eight errors, so its loop ends after nine rounds. -/
theorem errorChainFrom_ends {result : List ErrorRecord} (positive : 0 < rounds)
    (enough : 8 < rounds + result.length) (larger : rounds ≤ more) :
    errorChainFrom heap more result visited error =
        errorChainFrom heap rounds result visited error ∧
      (errorChainFrom heap rounds result visited error).isSome := by
  induction rounds generalizing more result visited error with
  | zero => exact absurd positive (Nat.lt_irrefl 0)
  | succ rounds ih =>
    obtain ⟨more, rfl⟩ := Nat.exists_eq_add_of_le' (Nat.one_le_of_lt larger)
    rw [errorChainFrom, errorChainFrom]
    split_ifs with stop
    · exact ⟨rfl, rfl⟩
    · rw [not_or, not_or, not_or] at stop
      refine ih (by omega) ?_ (Nat.le_of_succ_le_succ larger)
      rw [List.length_append, List.length_singleton]
      omega

theorem toToriumErrorCause_ends (positive : 0 < rounds) (enough : 5 < rounds + depth)
    (larger : rounds ≤ more) :
    toToriumErrorCause heap more error depth visited =
        toToriumErrorCause heap rounds error depth visited ∧
      (toToriumErrorCause heap rounds error depth visited).isSome := by
  induction rounds generalizing more error depth visited with
  | zero => exact absurd positive (Nat.lt_irrefl 0)
  | succ rounds ih =>
    obtain ⟨more, rfl⟩ := Nat.exists_eq_add_of_le' (Nat.one_le_of_lt larger)
    rw [toToriumErrorCause, toToriumErrorCause]
    split_ifs with stop
    · exact ⟨rfl, rfl⟩
    · rw [not_or, not_or, not_or] at stop
      obtain ⟨same, ends⟩ := @ih more (depth + 1) (error :: visited) (heap.get error "cause")
        (by omega) (by omega) (Nat.le_of_succ_le_succ larger)
      obtain ⟨cause, found⟩ := Option.isSome_iff_exists.mp ends
      rw [same, found]
      exact ⟨rfl, rfl⟩

variable [JsLibrary] {context : ErrorContext}

/-- Nine rounds are enough for every error, whatever its causes are. -/
theorem normalizeToriumError_ends :
    ∃ result, ∀ rounds, 9 ≤ rounds →
      normalizeToriumError heap rounds error context = some result := by
  have chained {rounds : Nat} (enough : 9 ≤ rounds) :
      errorChain heap rounds error = errorChain heap 9 error ∧ (errorChain heap 9 error).isSome :=
    errorChainFrom_ends (by decide) (by decide) enough
  have caused {rounds : Nat} (enough : 9 ≤ rounds) :
      toToriumErrorCause heap rounds error 0 [] = toToriumErrorCause heap 9 error 0 [] ∧
        (toToriumErrorCause heap 9 error 0 []).isSome :=
    toToriumErrorCause_ends (by decide) (by decide) enough
  have ends : (normalizeToriumError heap 9 error context).isSome := by
    obtain ⟨chain, found⟩ := Option.isSome_iff_exists.mp (chained le_rfl).2
    obtain ⟨cause, found'⟩ := Option.isSome_iff_exists.mp (caused le_rfl).2
    rw [normalizeToriumError, normalizeForeign, found, found']
    cases assertContext context with
    | error thrown => rfl
    | ok _ =>
      dsimp only
      split_ifs <;> rfl
  obtain ⟨result, found⟩ := Option.isSome_iff_exists.mp ends
  refine ⟨result, fun rounds enough => ?_⟩
  rw [← found, normalizeToriumError, normalizeToriumError, normalizeForeign, normalizeForeign,
    (chained enough).1, (caused enough).1]

end Termination

/-! ## Message texts -/

/-- Heaps that differ in the message texts of their objects only. -/
structure AlikeButMessages (heap other : JsHeap) : Prop where
  property : ∀ reference key, key ≠ "message" →
    heap.property reference key = other.property reference key
  message : ∀ reference, heap.property reference "message" = other.property reference "message" ∨
    ∃ text text', heap.property reference "message" = .string text ∧
      other.property reference "message" = .string text'
  call : heap.call = other.call
  convert : heap.convert = other.convert
  isSdkError : heap.isSdkError = other.isSdkError

section Silence

variable {heap other : JsHeap} (alike : AlikeButMessages heap other)
variable {chain chain' : List ErrorRecord}

/-- What a record shows besides its message. -/
def ErrorRecord.shown (record : ErrorRecord) : JsValue × Text := (record.value, record.name)

/-- A search that looks at the values only. -/
theorem findSome?_shown {α : Type} (read : JsHeap → JsValue → Option α)
    (agree : ∀ value, read heap value = read other value)
    (same : chain.map ErrorRecord.shown = chain'.map ErrorRecord.shown) :
    (chain.findSome? fun record => read heap record.value) =
      chain'.findSome? fun record => read other record.value := by
  have values (list : List ErrorRecord) (found : JsValue → Option α) :
      (list.findSome? fun record => found record.value) =
        (list.map ErrorRecord.shown).findSome? fun shown => found shown.1 := by
    rw [List.findSome?_map]
    rfl
  rw [values, values, same, funext agree]

include alike

theorem AlikeButMessages.get (value : JsValue) (key : String)
    (differs : key ≠ "message" := by decide) : heap.get value key = other.get value key := by
  cases value with
  | object reference => exact alike.property reference key differs
  | _ => rfl

/-- Both loops end at the same time, with records that differ in their messages only. -/
theorem errorChainFrom_shown {rounds : Nat} {result result' : List ErrorRecord}
    {visited : List JsValue} {current : JsValue}
    (same : result.map ErrorRecord.shown = result'.map ErrorRecord.shown) :
    (errorChainFrom heap rounds result visited current).map (·.map ErrorRecord.shown) =
      (errorChainFrom other rounds result' visited current).map (·.map ErrorRecord.shown) := by
  induction rounds generalizing result result' visited current with
  | zero => rfl
  | succ rounds ih =>
    have length : result.length = result'.length := by
      rw [← List.length_map (f := ErrorRecord.shown), same, List.length_map]
    rw [errorChainFrom, errorChainFrom, length]
    split_ifs with stop
    · exact congrArg some same
    · rw [alike.get current "cause"]
      refine ih ?_
      rw [List.map_append, List.map_append, same]
      simp only [List.map_cons, List.map_nil, ErrorRecord.shown, JsHeap.record,
        alike.get current "name"]

theorem toToriumErrorCause_silent {rounds depth : Nat} {error : JsValue} {visited : List JsValue} :
    toToriumErrorCause heap rounds error depth visited =
      toToriumErrorCause other rounds error depth visited := by
  induction rounds generalizing error depth visited with
  | zero => rfl
  | succ rounds ih =>
    rw [toToriumErrorCause, toToriumErrorCause, alike.get error "name",
      alike.get error "code", alike.get error "cause", ih]

variable [JsLibrary]

theorem retryAfterOf_silent (value : JsValue) :
    retryAfterOf heap value = retryAfterOf other value := by
  have numbers : heap.toNumber = other.toNumber := by
    funext number
    cases number with
    | object reference => exact congrFun alike.convert reference
    | function reference => exact congrFun alike.convert reference
    | _ => rfl
  have headers : retryAfterOf.fromHeaders heap value = retryAfterOf.fromHeaders other value := by
    rw [retryAfterOf.fromHeaders, retryAfterOf.fromHeaders, alike.get value "headers",
      alike.get _ "get", alike.call, numbers]
  rw [retryAfterOf, retryAfterOf, alike.get value "retryAfterMs", headers]

section Chain

variable (same : chain.map ErrorRecord.shown = chain'.map ErrorRecord.shown)

include same

omit [JsLibrary] in
theorem firstNumber_silent (key : String) (differs : key ≠ "message" := by decide) :
    firstNumber heap chain key = firstNumber other chain' key :=
  findSome?_shown (fun heap value => finiteNumber (heap.get value key))
    (fun value => by rw [alike.get value key differs]) same

theorem firstSafeString_silent (key : String) (differs : key ≠ "message" := by decide) :
    firstSafeString heap chain key = firstSafeString other chain' key :=
  findSome?_shown (fun heap value => safeString (heap.get value key))
    (fun value => by rw [alike.get value key differs]) same

theorem firstRevertData_silent : firstRevertData heap chain = firstRevertData other chain' := by
  refine findSome?_shown (fun heap value => [heap.get value "raw", heap.get value "data",
      heap.get (heap.get value "data") "data"].findSome? hexData) (fun value => ?_) same
  simp only [alike.get _ "raw", alike.get _ "data"]

theorem getRetryAfterMs_silent : getRetryAfterMs heap chain = getRetryAfterMs other chain' := by
  induction chain generalizing chain' with
  | nil =>
    cases chain' with
    | nil => rfl
    | cons record chain' => cases same
  | cons record chain ih =>
    cases chain' with
    | nil => cases same
    | cons record' chain' =>
      obtain ⟨shown, rest⟩ := List.cons.inj same
      have value : record.value = record'.value := congrArg Prod.fst shown
      rw [getRetryAfterMs, getRetryAfterMs, value, retryAfterOf_silent alike, ih rest]

end Chain

/-- Errors of the same category are normalized alike. -/
theorem normalizeForeign_silent {rounds : Nat} {error : JsValue} {context : ErrorContext}
    (chained : errorChain heap rounds error = some chain)
    (chained' : errorChain other rounds error = some chain')
    (category : classify heap chain context = classify other chain' context) :
    normalizeForeign heap rounds error context = normalizeForeign other rounds error context := by
  have same : chain.map ErrorRecord.shown = chain'.map ErrorRecord.shown := by
    have shown : (errorChain heap rounds error).map (·.map ErrorRecord.shown) =
        (errorChain other rounds error).map (·.map ErrorRecord.shown) :=
      errorChainFrom_shown alike rfl
    rw [chained, chained'] at shown
    exact Option.some.inj shown
  simp only [normalizeForeign, chained, chained', Option.bind_eq_bind, Option.bind_some, category,
    firstNumber_silent alike same "code", firstNumber_silent alike same "status",
    firstSafeString_silent alike same "reason", getRetryAfterMs_silent alike same,
    firstRevertData_silent alike same, toToriumErrorCause_silent alike]

end Silence

/-- The JSON form of a normalized error. An error of the SDK is returned as it is. -/
def jsonForm : JsValue ⊕ ToriumSdkError → Option (List (String × JsonField))
  | .inl _ => none
  | .inr error => some error.toJSON

/-- Normalization ends on every error. Two errors that are none of the SDK, differ in message texts
only and are put into the same category have the same JSON form when they are normalized. -/
theorem error_normalization_silent [JsLibrary] :
    (∀ heap error context, ∃ result, ∀ rounds, 9 ≤ rounds →
      normalizeToriumError heap rounds error context = some result) ∧
    ∀ heap other error context rounds chain chain', AlikeButMessages heap other →
      isSdkError heap error = false →
      errorChain heap rounds error = some chain → errorChain other rounds error = some chain' →
      classify heap chain context = classify other chain' context →
      (normalizeToriumError heap rounds error context).map (·.map jsonForm) =
        (normalizeToriumError other rounds error context).map (·.map jsonForm) := by
  refine ⟨fun heap error context => normalizeToriumError_ends, ?_⟩
  intro heap other error context rounds chain chain' alike foreign chained chained' category
  have foreign' : isSdkError other error = false := by
    rw [← foreign]
    cases error with
    | object reference => exact (congrFun alike.isSdkError reference).symm
    | _ => rfl
  rw [normalizeToriumError, normalizeToriumError, foreign, foreign',
    normalizeForeign_silent alike chained chained' category]

namespace Demo

/-- A library as far as the errors below need it: the pattern of the labels, and alternatives of
plain words. -/
@[reducible] def jsLibrary : JsLibrary where
  toLowerCase text := text.map Char.toLower
  test pattern text :=
    if pattern = "^[a-z0-9_.:-]+$" then
      !text.isEmpty && text.all fun c => c.isAlphanum || "_.:-".toList.contains c
    else (pattern.toList.splitOn '|').any fun words => text.tails.any words.isPrefixOf
  replace _ _ text := text
  parseNumber _ := .nan
  bigintNumber _ := .nan
  multiply a b := .finite (a * b)

/-- One error that is its own cause, with the given message. -/
def cyclic (message : Text) : JsHeap where
  property _ key :=
    if key = "cause" then .object 0 else if key = "message" then .string message else .undefined
  call _ _ := .ok .undefined
  convert _ := .nan
  isSdkError _ := false

theorem cyclic_alike (first second : Text) : AlikeButMessages (cyclic first) (cyclic second) where
  property reference key differs := by
    simp only [cyclic, if_neg differs]
  message reference := .inr ⟨first, second, rfl, rfl⟩
  call := rfl
  convert := rfl
  isSdkError := rfl

def context : ErrorContext where
  operation := "read".toList
  kind := .read

def normalized (message : String) :
    Option (Except Thrown (Option (List (String × JsonField)))) :=
  (@normalizeToriumError jsLibrary (cyclic message.toList) 9 (.object 0) context).map
    (·.map jsonForm)

end Demo

/-- Two messages of a reverted call give one JSON form. -/
theorem error_normalization_silent_demo :
    (∃ form, Demo.normalized "execution reverted: secret" = some (.ok (some form))) ∧
      Demo.normalized "execution reverted: secret" =
        Demo.normalized "execution reverted: other" := by
  refine ⟨⟨_, rfl⟩, ?_⟩
  refine (@error_normalization_silent Demo.jsLibrary).2 _ _ _ _ 9 _ _ (Demo.cyclic_alike _ _) rfl
    rfl rfl ?_
  decide +kernel

end Torium.Sdk
