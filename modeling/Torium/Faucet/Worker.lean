import Torium.Faucet.World

/-!
# The worker

One goroutine drains the queue, so that the nonces of the signer are used one after
the other. A request is driven to a terminal state: a submission that is in flight is
settled from what the chain shows, and only then signed again.

Steps that can fail run in `Attempt`; what follows a failed step is skipped, and its
error is what the Go function returns. Logs and metrics are left out, and with them
the counter of attempts, which only the log shows.
-/

namespace Torium.Faucet

open Evm Concurrent

/-- A text occurs in another. -/
def contains (needle : GoString) : GoString → Bool
  | [] => needle.isEmpty
  | first :: rest => needle.isPrefixOf (first :: rest) || contains needle rest

/-- `%q` for the strings of the service, which have nothing to escape. -/
def quoted (s : GoString) : GoString := text "\"" ++ s ++ text "\""

def JournalError.message : JournalError → GoString
  | .encode _ => text "encode journal entry for hashing: json: error calling MarshalJSON for " ++
      text "type time.Time: Time.MarshalJSON: year outside of range [0,9999]"
  | .write message => message

/-- The name of an entry in the errors of its replay. -/
def EntryType.label : EntryType → GoString
  | .requestAccepted => text "accepted request"
  | .txSubmitted => text "submitted"
  | .txConfirmed => text "confirmed"
  | .txFailed => text "failed"
  | .requestDenied | .servicePaused | .serviceResumed | .signerRotated | .refillObserved
  | .other _ => []

def StoreError.message : StoreError → GoString
  | .missingIdentifiers => text "accepted request entry is missing identifiers"
  | .invalidAmount type => type.label ++ text " entry has an invalid amount"
  | .unknownRequest type id =>
    type.label ++ text " entry references unknown request " ++ quoted id
  | .invalidNonce => text "submitted entry has an invalid nonce: expected integer"
  | .invalidBlockNumber => text "confirmed entry has an invalid block number: expected integer"
  | .unknownType name => text "unknown journal entry type " ++ quoted name
  | .idempotencyIndex id => text "idempotency index references unknown request " ++ quoted id
  | .journal error => error.message

/-- Steps that can fail. -/
abbrev Attempt (α : Type) : Type := ExceptT GoError (Program service) α

namespace Attempt

variable {α : Type}

/-- A command that does not fail. -/
def ask (c : Command) : Attempt (Response c) := ExceptT.lift (call c)

/-- A call whose error is returned with a text before it. -/
def rpc (context : String) (program : Program service (Except GoError α)) : Attempt α :=
  ExceptT.mk do
    match ← program with
    | .ok value => pure (.ok value)
    | .error error => pure (.error (error.wrap context))

def require (condition : Prop) [Decidable condition] (message : GoString) : Attempt Unit :=
  if condition then pure () else throw { message }

def must (value : Option α) (message : GoString) : Attempt α :=
  match value with
  | some value => pure value
  | none => throw { message }

/-- Journal an operation at the time of the clock. -/
def record (context : String) (operation : Time → Operation) : Attempt Unit := do
  let now ← ask .now
  match ← ask (.perform (operation now)) with
  | .failed error => throw (GoError.wrap { message := error.message } context)
  | .done | .request _ _ | .denied _ | .panicked => pure ()

/-- Hand a transaction to the node; its error is returned with a text before it. -/
def broadcast (purpose : Purpose) (transaction : Transaction) (context : GoError → String) :
    Attempt Unit := do
  match ← ask (.sendTransaction purpose transaction) with
  | none => pure ()
  | some error => throw (error.wrap (context error))

end Attempt

open Attempt

section Programs

variable [EthText] (profile : Profile)

def transferGas : Nat := 21000

def isBroadcastRejection (error : GoError) : Bool :=
  let message := toLower error.message
  contains (text "nonce too low") message || contains (text "invalid nonce") message ||
    contains (text "replacement transaction underpriced") message ||
    contains (text "insufficient funds") message

def isTerminalFundingError (error : GoError) : Bool := contains (text "terminal:") error.message

def chainIDMismatch (got want : Int) : GoString :=
  text "EVM chain ID mismatch: got " ++ intText got ++ text ", want " ++ intText want

/-- The tip that the node suggests, or a default. -/
def suggestedTip : Attempt Int := do
  match ← ask .suggestGasTipCap with
  | .ok tip => if 0 < tip then pure tip else pure 1000000000
  | .error _ => pure 1000000000

/-- One poll for a receipt; `none` when there is none yet. -/
def pollOnce (hash : Bytes32) : Attempt (Option Receipt) := do
  match ← ask (.transactionReceipt hash) with
  | .ok receipt => pure (some receipt)
  | .error error =>
    if error.notFound then pure none
    else throw { error with
      message := text "read funding receipt " ++ hashHex hash ++ text ": " ++ error.message }

/-- The wait for a receipt ends with the error of its context. -/
def waitExpired (ofClient : Bool) (hash : Bytes32) : Attempt Receipt := do
  let waiting := text "wait for funding receipt " ++ hashHex hash ++ text ": "
  if ← ask (.contextErr ofClient) then
    throw { message := waiting ++ text "context canceled", canceled := true }
  else throw { message := waiting ++ text "context deadline exceeded" }

/-- Poll for a receipt; so many more polls fit before the deadline. -/
def pollReceipt (ofClient : Bool) (hash : Bytes32) : Nat → Attempt Receipt
  | 0 => do
      match ← pollOnce hash with
      | some receipt => pure receipt
      | none => waitExpired ofClient hash
  | polls + 1 => do
      match ← pollOnce hash with
      | some receipt => pure receipt
      | none => pollReceipt ofClient hash polls

def waitForReceipt (ofClient : Bool) (hash : Bytes32) : Attempt Receipt := do
  let polls ← ask .deadline
  pollReceipt ofClient hash polls

/-- What the chain shows about a submission. -/
inductive SettleOutcome where
  | unknown
  | confirmed
  | reverted
  | gone
  deriving DecidableEq

def settleSubmission (request : Request) : Attempt SettleOutcome := do
  let hash := hexToHash request.transactionHash
  match ← ask (.transactionReceipt hash) with
  | .ok receipt =>
    if receipt.successful then do
      record "" (.recordConfirmed request.id hash receipt.blockNumber)
      pure .confirmed
    else pure .reverted
  | .error error =>
    if error.notFound then do
      let confirmedNonce ← rpc "" (call (.nonceAt request (hexToAddress request.signerAddress)))
      if request.nonce < confirmedNonce then pure .gone else pure .unknown
    else throw error

/-- Sign a stuck submission again, at its nonce and with higher fees. -/
def replaceSubmission (request : Request) (bump : Int) : Attempt Unit := do
  let amount ← must (setString? request.amountBaseUnits)
    (text "terminal: request amount is unreadable")
  let chainID ← rpc "read chain ID: " (call .chainID)
  require (chainID = profile.evmChainID)
    (text "terminal: " ++ chainIDMismatch chainID profile.evmChainID)
  let signerAddress ← ask .signerAddress
  require (request.signerAddress = addressHex signerAddress)
    (text "submission belongs to a rotated signer; waiting for chain evidence")
  let baseFee ← rpc "read base fee: " (call .headBaseFee)
  let tip ← suggestedTip
  let multiplier := 1 + bump
  let bumpedTip := tip * multiplier
  let (signed, _) ← rpc "terminal: sign replacement transaction: " (call (.sign (.replace request)
    { chainID
      nonce := request.nonce
      gasTipCap := bumpedTip
      gasFeeCap := (baseFee * 2 + bumpedTip) * multiplier
      gas := transferGas
      recipient := hexToAddress request.address
      value := amount }))
  record "terminal: journal replacement transaction: "
    (.recordSubmitted request.id signed.hash request.nonce (hexToAddress request.signerAddress))
  broadcast (.replace request) signed fun _ => "broadcast replacement transaction: "

/-- One attempt to sign, send and confirm. The submission is journaled before it is sent. -/
def fundOnce (requestID : GoString) : Attempt Unit := do
  let request ← must (← ask (.get requestID))
    (text "terminal: request " ++ requestID ++ text " disappeared")
  let amount ← must (setString? request.amountBaseUnits)
    (text "terminal: request amount is unreadable")
  let chainID ← rpc "read chain ID: " (call .chainID)
  require (chainID = profile.evmChainID)
    (text "terminal: " ++ chainIDMismatch chainID profile.evmChainID)
  let signerAddress ← ask .signerAddress
  let nonce ← rpc "read pending nonce: " (call (.pendingNonceAt signerAddress))
  let baseFee ← rpc "read base fee: " (call .headBaseFee)
  let tip ← suggestedTip
  let (signed, signedBy) ← rpc "terminal: sign funding transaction: "
    (call (.sign (.fund requestID)
      { chainID
        nonce
        gasTipCap := tip
        gasFeeCap := baseFee * 2 + tip
        gas := transferGas
        recipient := hexToAddress request.address
        value := amount }))
  require (signedBy = signerAddress) (text "signer rotated mid-attempt")
  record "terminal: journal submitted transaction: "
    (.recordSubmitted requestID signed.hash nonce signerAddress)
  broadcast (.fund requestID) signed fun error =>
    if isBroadcastRejection error then "broadcast rejected: " else "broadcast funding transaction: "
  let receipt ← waitForReceipt false signed.hash
  require receipt.successful
    (text "terminal: funding transaction " ++ hashHex signed.hash ++ text " reverted")
  record "" (.recordConfirmed requestID signed.hash receipt.blockNumber)

/-- Send the balance of the signer, without the gas, to the reserve. -/
def drain (reserve : Address) : Attempt (Bytes32 × Int) := do
  let paused ← ask .isPaused
  require paused.1 (text "drain requires the service to be paused")
  let chainID ← rpc "read chain ID: " (call .chainID)
  require (chainID = profile.evmChainID) (chainIDMismatch chainID profile.evmChainID)
  let signerAddress ← ask .signerAddress
  let balance ← rpc "read hot balance: " (call (.balanceAt signerAddress))
  let nonce ← rpc "read pending nonce: " (call (.pendingNonceAt signerAddress))
  let baseFee ← rpc "read base fee: " (call .headBaseFee)
  let tip ← suggestedTip
  let feeCap := baseFee * 2 + tip
  let value := balance - feeCap * transferGas
  require (0 < value)
    (text "hot balance " ++ intText balance ++ text " cannot cover drain gas")
  let (signed, _) ← rpc "sign drain transaction: " (call (.sign .drain
    { chainID, nonce, gasTipCap := tip, gasFeeCap := feeCap, gas := transferGas
      recipient := reserve, value }))
  broadcast .drain signed fun _ => "broadcast drain transaction: "
  let receipt ← waitForReceipt true signed.hash
  require receipt.successful (text "drain transaction " ++ hashHex signed.hash ++ text " reverted")
  pure (signed.hash, value)

/-! ## The loop -/

/-- The variables of `process` that live across its loop. -/
structure Progress where
  replacementBumps : Int := 0
  unknownSince : Time := 0
  deriving DecidableEq

/-- Sleep and go round the loop again, or leave it when the service stops. -/
def retryLater (progress : Progress) : Program service (Option Progress) := do
  if ← call .sleep then pure (some progress) else pure none

/-- Journal that a request has failed; an error of the journal is ignored. -/
def giveUp (requestID reason : GoString) : Program service (Option Progress) := do
  call (.recordOutcome false)
  let now ← call .now
  let _ ← call (.perform (.recordFailed requestID reason now))
  pure none

/-- The last part of the loop: no submission of the request can land any more. -/
def attemptFunding (requestID : GoString) (progress : Progress) :
    Program service (Option Progress) := do
  let signerAddress ← call .signerAddress
  if ← call (.signerFenced signerAddress) then retryLater progress
  else
    match ← (fundOnce profile requestID).run with
    | .ok () => do
        call (.recordOutcome true)
        pure none
    | .error error =>
      if error.canceled then pure none
      else if isTerminalFundingError error then giveUp requestID error.message
      else retryLater progress

/-- A submission that stays unknown for the whole timeout is replaced. -/
def awaitOrReplace (request : Request) (progress : Progress) :
    Program service (Option Progress) := do
  let now ← call .now
  let since := if progress.unknownSince.isZero then now else progress.unknownSince
  if profile.transactionTimeout < Time.sub now since then
    let bumps := progress.replacementBumps + 1
    let _ ← (replaceSubmission profile request bumps).run
    retryLater { replacementBumps := bumps, unknownSince := 0 }
  else retryLater { progress with unknownSince := since }

def settleAndContinue (requestID : GoString) (request : Request) (progress : Progress) :
    Program service (Option Progress) := do
  match ← (settleSubmission request).run with
  | .error _ => retryLater progress
  | .ok .confirmed => do
      call (.recordOutcome true)
      pure none
  | .ok .reverted => giveUp requestID (text "funding transaction reverted")
  | .ok .gone => attemptFunding profile requestID { progress with unknownSince := 0 }
  | .ok .unknown => awaitOrReplace profile request progress

/-- A request that is not in a terminal state, once round the loop. -/
def advance (requestID : GoString) (request : Request) (progress : Progress) :
    Program service (Option Progress) := do
  let paused ← call .isPaused
  if paused.1 then retryLater progress
  else
    let state ← call (.evaluate 0)
    if state.rpcDown ∨ state.balanceFloor then retryLater progress
    else if request.status = .submitted ∧ request.transactionHash ≠ [] then
      settleAndContinue profile requestID request progress
    else attemptFunding profile requestID progress

/-- `process`, once round its loop; `none` when it returns. -/
def processOnce (requestID : GoString) (progress : Progress) :
    Program service (Option Progress) := do
  if ← call (.contextErr false) then pure none
  else
    match ← call (.get requestID) with
    | none => pure none
    | some request =>
      match request.status with
      | .confirmed | .failed | .denied => pure none
      | .queued | .submitted => advance profile requestID request progress

/-- What the worker does between two commands of its programs. -/
inductive WorkerState where
  | waiting
  | processing (requestID : GoString) (progress : Progress)
  | stopped
  deriving DecidableEq

def workerTurn : WorkerState → Program service WorkerState
  | .waiting => do
      match ← call .dequeue with
      | some requestID => pure (.processing requestID {})
      | none => pure .stopped
  | .processing requestID progress => do
      match ← processOnce profile requestID progress with
      | some progress => pure (.processing requestID progress)
      | none => pure .waiting
  | .stopped => pure .stopped

/-! ## Start and probe -/

/-- Put a pending request into the queue again; it fails when the queue is full. -/
def requeueOne (request : Request) : Attempt Unit := do
  if ← ask (.tryEnqueue request.id) then pure ()
  else
    record "" (.recordFailed request.id (text "queue capacity exceeded during restart recovery"))

def requeue : List Request → Attempt Unit
  | [] => pure ()
  | request :: rest => do
      requeueOne request
      requeue rest

def reconcile : Attempt Unit := do
  let pending ← ask .pendingRequests
  requeue pending

/-- The signer and the balance of the last probe. -/
abbrev Probed : Type := Option (Address × Int)

def observeRefill (probed : Probed) (balance : Int) : Program service Probed := do
  let signerAddress ← call .signerAddress
  match probed with
  | none => pure (some (signerAddress, balance))
  | some (lastSigner, lastBalance) =>
    if lastSigner ≠ signerAddress then pure (some (signerAddress, balance))
    else if profile.amountPerRequest ≤ balance - lastBalance then do
      let now ← call .now
      let _ ← call (.perform (.recordRefill (text "balance-increase-observed")
        (intText (balance - lastBalance)) now))
      pure (some (signerAddress, balance))
    else pure (some (signerAddress, balance))

def probeOnce (probed : Probed) : Program service Probed := do
  match ← call .chainID with
  | .error _ => do
      call (.recordRPCProbe false)
      pure probed
  | .ok chainID =>
    if chainID ≠ profile.evmChainID then do
      call (.recordRPCProbe false)
      pure probed
    else do
      let signerAddress ← call .signerAddress
      match ← call (.balanceAt signerAddress) with
      | .error _ => do
          call (.recordRPCProbe false)
          pure probed
      | .ok balance => do
          call (.recordRPCProbe true)
          call (.recordBalance balance)
          observeRefill profile probed balance

end Programs

end Torium.Faucet
