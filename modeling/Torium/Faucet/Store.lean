import Mathlib.Data.List.Sort
import Mathlib.Logic.Function.Basic
import Torium.Faucet.Journal

/-!
# The request store

The store keeps its state in maps and journals every change before it applies it;
a restart applies the journaled entries to an empty store. Applying an entry that
does not fit may fail after a part of it took effect, so `applyEntry` returns the
store together with the error.

All operations run under one lock, so each is one step. Whether a journal write
fails is decided by the environment and is an argument of the operation.
-/

namespace Torium.Faucet

open Evm

inductive Status where
  | queued
  | submitted
  | confirmed
  | denied
  | failed
  deriving DecidableEq

structure Request where
  id : GoString
  status : Status
  address : GoString
  amountBaseUnits : GoString
  createdAt : Time
  updatedAt : Time
  reason : GoString := []
  transactionHash : GoString := []
  blockNumber : Nat := 0
  nonce : Nat := 0
  signerAddress : GoString := []
  deriving DecidableEq

/-- The limits of one deployment of the service. -/
structure Profile where
  evmChainID : Int
  amountPerRequest : Int
  cooldownPerAddress : Duration
  perAddressDailyCap : Int
  globalDailyBudget : Int
  haltBelow : Int
  queueCapacity : Nat
  transactionTimeout : Duration
  errorRateWindow : Nat
  errorRateTripCount : Nat
  rpcTripAfter : Nat
  deriving DecidableEq

structure AddressState where
  lastAccepted : Time := 0
  dailyCount : GoString → Nat := fun _ => 0

structure Store where
  journal : Journal
  profile : Profile
  requests : GoString → Option Request := fun _ => none
  order : List GoString := []
  idempotency : GoString → Option GoString := fun _ => none
  addresses : Address → Option AddressState := fun _ => none
  spentByDay : GoString → Option Int := fun _ => none
  paused : Bool := false
  pauseReason : GoString := []
  fencedKeys : Address → Option Time := fun _ => none
  activeSigner : Address := 0

inductive StoreError where
  | missingIdentifiers
  | invalidAmount (type : EntryType)
  | unknownRequest (type : EntryType) (id : GoString)
  | invalidNonce
  | invalidBlockNumber
  | unknownType (name : GoString)
  | idempotencyIndex (id : GoString)
  | journal (error : JournalError)
  deriving DecidableEq

/-- The state of an address; it is created when there is none. -/
def Store.addressStateFor (store : Store) (address : Address) : AddressState × Store :=
  match store.addresses address with
  | some state => (state, store)
  | none => ({}, { store with addresses := Function.update store.addresses address (some {}) })

/-- Budgets never become negative. -/
def Store.addSpent (store : Store) (day : GoString) (amount : Int) : Store :=
  let current := (store.spentByDay day).getD 0 + amount
  { store with
    spentByDay := Function.update store.spentByDay day (some (if current < 0 then 0 else current)) }

def Store.setRequest (store : Store) (id : GoString) (request : Request) : Store :=
  { store with requests := Function.update store.requests id (some request) }

/-- A new request, at the end of the order of requests. -/
def Store.addRequest (store : Store) (request : Request) : Store :=
  { store.setRequest request.id request with order := store.order ++ [request.id] }

section Apply

variable [EthText]

/-- The bookkeeping of an accepted request for its address. -/
def AddressState.count (state : AddressState) (at_ : Time) : AddressState :=
  { lastAccepted := at_
    dailyCount := Function.update state.dailyCount (budgetDay at_)
      (state.dailyCount (budgetDay at_) + 1) }

def Store.countAccepted (store : Store) (address : Address) (at_ : Time) : Store :=
  let (state, store) := store.addressStateFor address
  { store with addresses := Function.update store.addresses address (some (state.count at_)) }

def Store.applyAccepted (store : Store) (entry : Entry) : Store × Option StoreError :=
  let request : Request :=
    { id := entry.payload.get "requestId"
      status := .queued
      address := entry.payload.get "address"
      amountBaseUnits := entry.payload.get "amountBaseUnits"
      createdAt := entry.at_
      updatedAt := entry.at_ }
  if request.id = [] ∨ request.address = [] then (store, some .missingIdentifiers)
  else
    let store := store.addRequest request
    let store := { store with
      idempotency := Function.update store.idempotency (entry.payload.get "idempotencyKey")
        (some request.id) }
    let store := store.countAccepted (hexToAddress request.address) entry.at_
    match setString? request.amountBaseUnits with
    | some amount => (store.addSpent (budgetDay entry.at_) amount, none)
    | none => (store, some (.invalidAmount entry.type))

def Store.applyDenied (store : Store) (entry : Entry) : Store × Option StoreError :=
  let id := entry.payload.get "requestId"
  if id = [] then (store, none)
  else
    (store.addRequest
      { id
        status := .denied
        address := entry.payload.get "address"
        amountBaseUnits := entry.payload.get "amountBaseUnits"
        reason := entry.payload.get "reason"
        createdAt := entry.at_
        updatedAt := entry.at_ }, none)

def Store.applySubmitted (store : Store) (entry : Entry) : Store × Option StoreError :=
  let id := entry.payload.get "requestId"
  match store.requests id with
  | none => (store, some (.unknownRequest entry.type id))
  | some request =>
    let request := { request with
      status := .submitted
      transactionHash := entry.payload.get "transactionHash"
      signerAddress := entry.payload.get "signerAddress"
      updatedAt := entry.at_ }
    match scanUint64? (entry.payload.get "nonce") with
    | some nonce => (store.setRequest id { request with nonce }, none)
    | none => (store.setRequest id request, some .invalidNonce)

def Store.applyConfirmed (store : Store) (entry : Entry) : Store × Option StoreError :=
  let id := entry.payload.get "requestId"
  match store.requests id with
  | none => (store, some (.unknownRequest entry.type id))
  | some request =>
    let request := { request with
      status := .confirmed
      transactionHash := entry.payload.get "transactionHash"
      updatedAt := entry.at_ }
    match scanUint64? (entry.payload.get "blockNumber") with
    | some blockNumber => (store.setRequest id { request with blockNumber }, none)
    | none => (store.setRequest id request, some .invalidBlockNumber)

/-- A failed request releases its budget reservation. -/
def Store.applyFailed (store : Store) (entry : Entry) : Store × Option StoreError :=
  let id := entry.payload.get "requestId"
  match store.requests id with
  | none => (store, some (.unknownRequest entry.type id))
  | some request =>
    let request := { request with
      status := .failed
      reason := entry.payload.get "reason"
      updatedAt := entry.at_ }
    let store := store.setRequest id request
    match setString? request.amountBaseUnits with
    | some amount => (store.addSpent (budgetDay request.createdAt) (-amount), none)
    | none => (store, some (.invalidAmount entry.type))

def Store.applyRotated (store : Store) (entry : Entry) : Store :=
  let oldSigner := entry.payload.get "oldSigner"
  { store with
    fencedKeys := if oldSigner ≠ [] then
      Function.update store.fencedKeys (hexToAddress oldSigner) (some entry.at_)
    else store.fencedKeys
    activeSigner := hexToAddress (entry.payload.get "newSigner") }

def Store.applyEntry (store : Store) (entry : Entry) : Store × Option StoreError :=
  match entry.type with
  | .requestAccepted => store.applyAccepted entry
  | .requestDenied => store.applyDenied entry
  | .txSubmitted => store.applySubmitted entry
  | .txConfirmed => store.applyConfirmed entry
  | .txFailed => store.applyFailed entry
  | .servicePaused =>
    ({ store with paused := true, pauseReason := entry.payload.get "reason" }, none)
  | .serviceResumed => ({ store with paused := false, pauseReason := [] }, none)
  | .signerRotated => (store.applyRotated entry, none)
  | .refillObserved => (store, none)
  | .other name => (store, some (.unknownType name))

/-- Replay is strict: the first entry that fails stops it. -/
def Store.replay (store : Store) : List Entry → Except (Nat × StoreError) Store
  | [] => .ok store
  | entry :: entries =>
    match store.applyEntry entry with
    | (store, none) => store.replay entries
    | (_, some error) => .error (entry.sequence, error)

def newStore (journal : Journal) (entries : List Entry) (profile : Profile) :
    Except (Nat × StoreError) Store :=
  Store.replay { journal, profile } entries

end Apply

structure DenialError where
  reason : GoString
  retryAfterSeconds : Int := 0
  deriving DecidableEq

/-- What an operation of the store returns. -/
inductive Outcome where
  | done
  | request (snapshot : Request) (replay : Bool)
  | denied (denial : DenialError)
  | failed (error : StoreError)
  | panicked
  deriving DecidableEq

section Operations

variable [EthText]

/-- A client key counts for one address and one UTC day. -/
def idempotencyKeyFor (clientKey : GoString) (address : Address) (at_ : Time) : GoString :=
  toLower (addressHex address) ++ text "|" ++ budgetDay at_ ++ text "|" ++ clientKey

variable [Digest]

/-- Journal an entry and apply it. -/
def Store.transition (store : Store) (fault : Option GoString) (type : EntryType) (at_ : Time)
    (payload : Payload) : Store × Option StoreError :=
  match store.journal.append fault type at_ payload with
  | .error error => (store, some (.journal error))
  | .ok (entry, journal) => { store with journal }.applyEntry entry

def Store.cooldownDenial (store : Store) (state : AddressState) (now : Time) :
    Option DenialError :=
  let cooldownEnds := state.lastAccepted + store.profile.cooldownPerAddress
  if ¬ state.lastAccepted.isZero ∧ now < cooldownEnds then
    some { reason := text "address is in cooldown"
           retryAfterSeconds := Time.sub cooldownEnds now / second + 1 }
  else none

/-- The limits that an accepted request has to respect, in the order of the checks. -/
def Store.limitDenial (store : Store) (state : AddressState) (now : Time) : Option DenialError :=
  match store.cooldownDenial state now with
  | some denial => some denial
  | none =>
    if store.profile.perAddressDailyCap ≤ (state.dailyCount (budgetDay now) : Int) then
      some { reason := text "address reached the daily request cap" }
    else if store.profile.globalDailyBudget <
        (store.spentByDay (budgetDay now)).getD 0 + store.profile.amountPerRequest then
      some { reason := text "global daily budget is exhausted" }
    else none

def acceptedPayload (requestID scopedKey : GoString) (address : Address) (amount : Int) : Payload :=
  [(text "requestId", requestID), (text "idempotencyKey", scopedKey),
   (text "address", addressHex address), (text "amountBaseUnits", intText amount)]

/-- The end of `Accept`: a request is accepted once it is durable. -/
def Store.recordAccepted (store : Store) (fault : Option GoString) (scopedKey : GoString)
    (address : Address) (now : Time) (requestID : GoString) : Store × Outcome :=
  match store.transition fault .requestAccepted now
    (acceptedPayload requestID scopedKey address store.profile.amountPerRequest) with
  | (store, some error) => (store, .failed error)
  | (store, none) =>
    match store.requests requestID with
    | some accepted => (store, .request accepted false)
    | none => (store, .panicked)

/-- `Accept`. A denial for a limit leaves an empty address state behind. -/
def Store.accept (store : Store) (fault : Option GoString) (clientKey : GoString)
    (address : Address) (at_ : Time) (requestID : GoString) : Store × Outcome :=
  let scopedKey := idempotencyKeyFor clientKey address at_
  match store.idempotency scopedKey with
  | some existingID =>
    match store.requests existingID with
    | some existing => (store, .request existing true)
    | none => (store, .failed (.idempotencyIndex existingID))
  | none =>
    if store.paused then (store, .denied { reason := text "service is paused" })
    else
      let (state, store) := store.addressStateFor address
      match store.limitDenial state at_ with
      | some denial => (store, .denied denial)
      | none => store.recordAccepted fault scopedKey address at_ requestID

def Store.recordDenied (store : Store) (fault : Option GoString) (requestID : GoString)
    (address : Address) (reason : GoString) (at_ : Time) : Store × Option StoreError :=
  store.transition fault .requestDenied at_
    [(text "requestId", requestID), (text "address", addressHex address),
     (text "amountBaseUnits", intText store.profile.amountPerRequest), (text "reason", reason)]

def Store.recordSubmitted (store : Store) (fault : Option GoString) (requestID : GoString)
    (transactionHash : Bytes32) (nonce : Nat) (signer : Address) (at_ : Time) :
    Store × Option StoreError :=
  store.transition fault .txSubmitted at_
    [(text "requestId", requestID), (text "transactionHash", hashHex transactionHash),
     (text "nonce", natText nonce), (text "signerAddress", addressHex signer)]

def Store.recordConfirmed (store : Store) (fault : Option GoString) (requestID : GoString)
    (transactionHash : Bytes32) (blockNumber : Nat) (at_ : Time) : Store × Option StoreError :=
  store.transition fault .txConfirmed at_
    [(text "requestId", requestID), (text "transactionHash", hashHex transactionHash),
     (text "blockNumber", natText blockNumber)]

def Store.recordFailed (store : Store) (fault : Option GoString) (requestID reason : GoString)
    (at_ : Time) : Store × Option StoreError :=
  store.transition fault .txFailed at_ [(text "requestId", requestID), (text "reason", reason)]

def Store.pause (store : Store) (fault : Option GoString) (reason : GoString) (at_ : Time) :
    Store × Option StoreError :=
  store.transition fault .servicePaused at_ [(text "reason", reason)]

def Store.resume (store : Store) (fault : Option GoString) (at_ : Time) :
    Store × Option StoreError :=
  store.transition fault .serviceResumed at_ []

def Store.recordRotation (store : Store) (fault : Option GoString) (oldSigner newSigner : Address)
    (at_ : Time) : Store × Option StoreError :=
  store.transition fault .signerRotated at_
    ((text "newSigner", addressHex newSigner) ::
      if oldSigner ≠ 0 then [(text "oldSigner", addressHex oldSigner)] else [])

def Store.recordRefill (store : Store) (fault : Option GoString) (source amount : GoString)
    (at_ : Time) : Store × Option StoreError :=
  store.transition fault .refillObserved at_
    [(text "source", source), (text "amountBaseUnits", amount)]

/-- The operations that change the store. -/
inductive Operation where
  | accept (clientKey : GoString) (address : Address) (at_ : Time) (requestID : GoString)
  | recordDenied (requestID : GoString) (address : Address) (reason : GoString) (at_ : Time)
  | recordSubmitted (requestID : GoString) (transactionHash : Bytes32) (nonce : Nat)
      (signer : Address) (at_ : Time)
  | recordConfirmed (requestID : GoString) (transactionHash : Bytes32) (blockNumber : Nat)
      (at_ : Time)
  | recordFailed (requestID reason : GoString) (at_ : Time)
  | pause (reason : GoString) (at_ : Time)
  | resume (at_ : Time)
  | recordRotation (oldSigner newSigner : Address) (at_ : Time)
  | recordRefill (source amount : GoString) (at_ : Time)
  deriving DecidableEq

/-- One operation, and whether its journal write fails. -/
structure Call where
  operation : Operation
  fault : Option GoString := none
  deriving DecidableEq

def Outcome.ofError : Option StoreError → Outcome
  | none => .done
  | some error => .failed error

def Store.perform (store : Store) (call : Call) : Store × Outcome :=
  match call.operation with
  | .accept clientKey address at_ requestID =>
    store.accept call.fault clientKey address at_ requestID
  | .recordDenied requestID address reason at_ =>
    (store.recordDenied call.fault requestID address reason at_).map id .ofError
  | .recordSubmitted requestID transactionHash nonce signer at_ =>
    (store.recordSubmitted call.fault requestID transactionHash nonce signer at_).map id .ofError
  | .recordConfirmed requestID transactionHash blockNumber at_ =>
    (store.recordConfirmed call.fault requestID transactionHash blockNumber at_).map id .ofError
  | .recordFailed requestID reason at_ =>
    (store.recordFailed call.fault requestID reason at_).map id .ofError
  | .pause reason at_ => (store.pause call.fault reason at_).map id .ofError
  | .resume at_ => (store.resume call.fault at_).map id .ofError
  | .recordRotation oldSigner newSigner at_ =>
    (store.recordRotation call.fault oldSigner newSigner at_).map id .ofError
  | .recordRefill source amount at_ =>
    (store.recordRefill call.fault source amount at_).map id .ofError

end Operations

/-- Identifiers of new requests are random; none is drawn that the store knows. -/
def Operation.Fresh (store : Store) : Operation → Prop
  | .accept _ _ _ requestID => store.requests requestID = none
  | .recordDenied requestID _ _ _ => store.requests requestID = none
  | _ => True

instance (store : Store) : DecidablePred (Operation.Fresh store)
  | .accept _ _ _ _ => inferInstanceAs (Decidable (_ = _))
  | .recordDenied _ _ _ _ => inferInstanceAs (Decidable (_ = _))
  | .recordSubmitted _ _ _ _ _ => .isTrue trivial
  | .recordConfirmed _ _ _ _ => .isTrue trivial
  | .recordFailed _ _ _ => .isTrue trivial
  | .pause _ _ => .isTrue trivial
  | .resume _ => .isTrue trivial
  | .recordRotation _ _ _ => .isTrue trivial
  | .recordRefill _ _ _ => .isTrue trivial

def Operation.isSubmission : Operation → Bool
  | .recordSubmitted _ _ _ _ _ => true
  | _ => false

/-! ## Reading the store -/

def Store.get (store : Store) (requestID : GoString) : Option Request := store.requests requestID

def Store.findReplay [EthText] (store : Store) (clientKey : GoString) (address : Address)
    (at_ : Time) : Option Request :=
  (store.idempotency (idempotencyKeyFor clientKey address at_)).bind store.requests

def Store.isPaused (store : Store) : Bool × GoString := (store.paused, store.pauseReason)

def Store.signerFenced (store : Store) (signer : Address) : Bool := (store.fencedKeys signer).isSome

def Store.spentToday (store : Store) (at_ : Time) : Int :=
  (store.spentByDay (budgetDay at_)).getD 0

def Status.isPending (status : Status) : Bool := status = .queued ∨ status = .submitted

/-- Queued and submitted requests, by the time of their acceptance; the sort is stable. -/
def Store.pendingRequests (store : Store) : List Request :=
  ((store.order.filterMap store.requests).filter (·.status.isPending)).insertionSort
    fun left right => left.createdAt ≤ right.createdAt

end Torium.Faucet
