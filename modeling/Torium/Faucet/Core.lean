import Torium.Faucet.Store

/-!
# What the journal determines

The live store and the one that replays its journal differ in one place: a request
that is denied for a limit leaves an empty address state in memory and nothing in
the journal. Reading a missing address state and an empty one is the same, so the
core of a store fills every missing one in. It also leaves the journal out, since
the entries are applied to a store that already has the whole journal open.

Every operation of the store either leaves the core as it is or journals one entry
and applies it.
-/

namespace Torium.Faucet

open Evm Function

/-- The state of an address, created or not. -/
def Store.stateOf (store : Store) (address : Address) : AddressState :=
  (store.addresses address).getD {}

/-- What the entries determine about a store. -/
def Store.core (store : Store) : Store :=
  { store with journal := openJournal [], addresses := fun address => some (store.stateOf address) }

/-- Two stores with the same journal and the same core. -/
structure Store.Alike (s t : Store) : Prop where
  journal : s.journal = t.journal
  core : s.core = t.core

/-- The operation succeeded or was an accept-time denial. -/
def Outcome.Fine : Outcome → Prop
  | .done => True
  | .request _ _ => True
  | .denied _ => True
  | .failed _ => False
  | .panicked => False

instance : DecidablePred Outcome.Fine
  | .done => .isTrue trivial
  | .request _ _ => .isTrue trivial
  | .denied _ => .isTrue trivial
  | .failed _ => .isFalse id
  | .panicked => .isFalse id

theorem Outcome.ofError_eq_failed {result : Option StoreError} {error : StoreError} :
    Outcome.ofError result = .failed error ↔ result = some error := by
  cases result <;> simp [ofError]

theorem Outcome.fine_ofError {error : Option StoreError} :
    (Outcome.ofError error).Fine ↔ error = none := by
  cases error with
  | none => simp [Outcome.ofError, Outcome.Fine]
  | some error => simp [Outcome.ofError, Outcome.Fine]

/-! ## The core -/

section Core

variable {s t : Store}

theorem Store.addressStateFor_eq (address : Address) : s.addressStateFor address =
    (s.stateOf address, { s with
      addresses := update s.addresses address (some (s.stateOf address)) }) := by
  cases found : s.addresses address with
  | some state =>
    have kept : update s.addresses address (some state) = s.addresses := by
      rw [← found, update_eq_self]
    simp only [addressStateFor, stateOf, found, Option.getD_some, kept]
  | none => simp only [addressStateFor, stateOf, found, Option.getD_none]

theorem Store.countAccepted_eq (address : Address) (at_ : Time) : s.countAccepted address at_ =
    { s with
      addresses := update s.addresses address
        (some ((s.stateOf address).count at_)) } := by
  simp only [countAccepted, addressStateFor_eq, update_idem]

/-- Setting an address state sets it in the core. -/
theorem Store.core_setAddress (address : Address) (state : AddressState) :
    { s with addresses := update s.addresses address (some state) }.core =
      { s.core with addresses := update s.core.addresses address (some state) } := by
  simp only [core, stateOf, mk.injEq, true_and, and_true]
  funext other
  by_cases same : other = address
  · subst same
    simp
  · simp [update_of_ne same]

theorem Store.addressStateFor_core (address : Address) :
    (s.addressStateFor address).2.core = s.core := by
  rw [addressStateFor_eq, core_setAddress]
  exact congrArg (fun addresses => { s.core with addresses })
    (update_eq_self address s.core.addresses)

/-- What is read from a store and is the same in its core, is the same in stores with
the same core. -/
theorem Store.eq_of_core {α : Type} (alike : s.core = t.core) (read : Store → α)
    (kept : ∀ u : Store, read u.core = read u := by exact fun _ => rfl) : read s = read t := by
  rw [← kept s, alike, kept t]

theorem Store.requests_of_core (alike : s.core = t.core) : s.requests = t.requests :=
  eq_of_core alike requests

/-- A change of the store that no entry sees. -/
structure Store.Unseen [EthText] (change : Store → Store) : Prop where
  requests (s : Store) : (change s).requests = s.requests
  setRequest (s : Store) (id : GoString) (request : Request) :
    (change s).setRequest id request = change (s.setRequest id request)
  addRequest (s : Store) (request : Request) :
    (change s).addRequest request = change (s.addRequest request)
  addSpent (s : Store) (day : GoString) (amount : Int) :
    (change s).addSpent day amount = change (s.addSpent day amount)
  countAccepted (s : Store) (address : Address) (at_ : Time) :
    (change s).countAccepted address at_ = change (s.countAccepted address at_)
  idempotency (s : Store) (key id : GoString) :
    { change s with idempotency := Function.update (change s).idempotency key (some id) } =
      change { s with idempotency := Function.update s.idempotency key (some id) }
  paused (s : Store) (paused : Bool) (pauseReason : GoString) :
    { change s with paused, pauseReason } = change { s with paused, pauseReason }
  applyRotated (s : Store) (entry : Entry) :
    (change s).applyRotated entry = change (s.applyRotated entry)

theorem Store.Unseen.applyEntry [EthText] {change : Store → Store} (unseen : Unseen change)
    (s : Store) (entry : Entry) :
    (change s).applyEntry entry = (s.applyEntry entry).map change id := by
  unfold Store.applyEntry
  cases entry.type with
  | requestAccepted =>
    simp only [applyAccepted, unseen.addRequest, unseen.idempotency, unseen.countAccepted]
    split_ifs
    · rfl
    · cases setString? (entry.payload.get "amountBaseUnits") with
      | some amount => exact congrArg (·, none) (unseen.addSpent _ _ _)
      | none => rfl
  | requestDenied =>
    simp only [applyDenied, unseen.addRequest]
    split_ifs <;> rfl
  | txSubmitted =>
    simp only [applySubmitted, unseen.requests, unseen.setRequest]
    cases s.requests (entry.payload.get "requestId") with
    | none => rfl
    | some request => cases scanUint64? (entry.payload.get "nonce") <;> rfl
  | txConfirmed =>
    simp only [applyConfirmed, unseen.requests, unseen.setRequest]
    cases s.requests (entry.payload.get "requestId") with
    | none => rfl
    | some request => cases scanUint64? (entry.payload.get "blockNumber") <;> rfl
  | txFailed =>
    simp only [applyFailed, unseen.requests, unseen.setRequest]
    cases s.requests (entry.payload.get "requestId") with
    | none => rfl
    | some request =>
      cases number : setString? request.amountBaseUnits with
      | some amount =>
        simp only [number]
        exact congrArg (·, none) (unseen.addSpent _ _ _)
      | none =>
        simp only [number]
        rfl
  | servicePaused | serviceResumed => exact congrArg (·, none) (unseen.paused _ _ _)
  | signerRotated => exact congrArg (·, none) (unseen.applyRotated _ _)
  | refillObserved | other => rfl

theorem Store.unseen_core [EthText] : Unseen core where
  requests _ := rfl
  setRequest _ _ _ := rfl
  addRequest _ _ := rfl
  addSpent _ _ _ := rfl
  countAccepted s address at_ := by
    rw [countAccepted_eq, countAccepted_eq, core_setAddress]
    rfl
  idempotency _ _ _ := rfl
  paused _ _ _ := rfl
  applyRotated _ _ := rfl

/-- Entries act on the core alone. -/
theorem Store.applyEntry_core [EthText] (alike : s.core = t.core) (entry : Entry) :
    (s.applyEntry entry).1.core = (t.applyEntry entry).1.core ∧
      (s.applyEntry entry).2 = (t.applyEntry entry).2 := by
  refine Prod.ext_iff.mp (?_ : (s.applyEntry entry).map core id = (t.applyEntry entry).map core id)
  rw [← unseen_core.applyEntry, alike, unseen_core.applyEntry]

/-- Creating an empty state is not observed. -/
theorem Store.created_alike (address : Address) : s.Alike (s.addressStateFor address).2 where
  journal := by rw [addressStateFor_eq]
  core := (addressStateFor_core address).symm

/-- What an entry makes of a store, and its error. At most one record is written, and only a
rotation changes the fences. -/
inductive Store.Applied [EthText] (s : Store) (entry : Entry) :
    Store × Option StoreError → Prop where
  | refused {error} : s.Applied entry (s, some error)
  | silent {paused pauseReason fencedKeys activeSigner} (kind : entry.type ≠ .txSubmitted)
      (fences : entry.type ≠ .signerRotated → fencedKeys = s.fencedKeys) :
      s.Applied entry ({ s with paused, pauseReason, fencedKeys, activeSigner }, none)
  | accepted {spentByDay error} (kind : entry.type = .requestAccepted)
      (present : ¬ (entry.payload.get "requestId" = [] ∨ entry.payload.get "address" = []))
      (number : error = none → setString? (entry.payload.get "amountBaseUnits") ≠ none) :
      s.Applied entry ({ s.addRequest
        { id := entry.payload.get "requestId"
          status := .queued
          address := entry.payload.get "address"
          amountBaseUnits := entry.payload.get "amountBaseUnits"
          createdAt := entry.at_
          updatedAt := entry.at_ } with
        idempotency := Function.update s.idempotency (entry.payload.get "idempotencyKey")
          (some (entry.payload.get "requestId"))
        addresses := Function.update s.addresses (hexToAddress (entry.payload.get "address"))
          (some ((s.stateOf (hexToAddress (entry.payload.get "address"))).count entry.at_))
        spentByDay }, error)
  | denied {request} (kind : entry.type = .requestDenied)
      (named : request.id = entry.payload.get "requestId") (status : request.status = .denied)
      (amount : request.amountBaseUnits = entry.payload.get "amountBaseUnits") :
      s.Applied entry (s.addRequest request, none)
  | submitted {old nonce error} (kind : entry.type = .txSubmitted)
      (known : s.requests (entry.payload.get "requestId") = some old)
      (scanned : scanUint64? (entry.payload.get "nonce") = some nonce ∨
        scanUint64? (entry.payload.get "nonce") = none ∧ nonce = old.nonce ∧ error ≠ none) :
      s.Applied entry (s.setRequest (entry.payload.get "requestId") { old with
        status := .submitted
        transactionHash := entry.payload.get "transactionHash"
        signerAddress := entry.payload.get "signerAddress"
        updatedAt := entry.at_
        nonce }, error)
  | confirmed {old blockNumber error} (kind : entry.type = .txConfirmed)
      (known : s.requests (entry.payload.get "requestId") = some old) :
      s.Applied entry (s.setRequest (entry.payload.get "requestId") { old with
        status := .confirmed
        transactionHash := entry.payload.get "transactionHash"
        updatedAt := entry.at_
        blockNumber }, error)
  | failed {old spentByDay error} (kind : entry.type = .txFailed)
      (known : s.requests (entry.payload.get "requestId") = some old) :
      s.Applied entry ({ s.setRequest (entry.payload.get "requestId") { old with
        status := .failed
        reason := entry.payload.get "reason"
        updatedAt := entry.at_ } with spentByDay }, error)

theorem Store.applied [EthText] (s : Store) (entry : Entry) :
    s.Applied entry (s.applyEntry entry) := by
  unfold applyEntry
  cases kind : entry.type with
  | requestAccepted =>
    simp only [applyAccepted, countAccepted_eq]
    split_ifs with missing
    · exact .refused
    · cases number : setString? (entry.payload.get "amountBaseUnits") with
      | some amount => exact .accepted kind missing fun _ => number ▸ Option.some_ne_none amount
      | none => exact .accepted kind missing nofun
  | requestDenied =>
    simp only [applyDenied]
    split_ifs
    · exact .silent (by simp [kind]) fun _ => rfl
    · exact .denied kind rfl rfl rfl
  | txSubmitted =>
    simp only [applySubmitted]
    cases known : s.requests (entry.payload.get "requestId") with
    | none => exact .refused
    | some old =>
      cases scanned : scanUint64? (entry.payload.get "nonce") with
      | some nonce => exact .submitted kind known (.inl scanned)
      | none => exact .submitted kind known (.inr ⟨scanned, rfl, nofun⟩)
  | txConfirmed =>
    simp only [applyConfirmed]
    cases known : s.requests (entry.payload.get "requestId") with
    | none => exact .refused
    | some old =>
      cases scanUint64? (entry.payload.get "blockNumber") <;> exact .confirmed kind known
  | txFailed =>
    simp only [applyFailed]
    cases known : s.requests (entry.payload.get "requestId") with
    | none => exact .refused
    | some old =>
      dsimp only
      split <;> exact .failed kind known
  | signerRotated => exact .silent (by simp [kind]) fun other => absurd kind other
  | servicePaused | serviceResumed | refillObserved =>
    exact .silent (by simp [kind]) fun _ => rfl
  | other => exact .refused

namespace Store.Applied

variable [EthText] {entry : Entry} {result : Store × Option StoreError}
  (applied : s.Applied entry result)

include applied

theorem profile : result.1.profile = s.profile := by cases applied <;> rfl

theorem fences (other : entry.type ≠ .signerRotated) : result.1.fencedKeys = s.fencedKeys := by
  cases applied with
  | silent _ fences => exact fences other
  | _ => rfl

end Store.Applied

/-- Applying an entry leaves the journal alone. -/
theorem Store.applyEntry_journal [EthText] (s : Store) (entry : Entry) :
    (s.applyEntry entry).1.journal = s.journal := by
  have applied := s.applied entry
  generalize s.applyEntry entry = result at applied ⊢
  cases applied <;> rfl

end Core

/-! ## Replay -/

section Replay

variable [EthText] {s t s' : Store} {entries : List Entry} {entry : Entry}

theorem Store.replay_snoc : s.replay (entries ++ [entry]) = .ok s' ↔
    ∃ t, s.replay entries = .ok t ∧ t.applyEntry entry = (s', none) := by
  induction entries generalizing s with
  | nil =>
    simp only [List.nil_append, replay, Except.ok.injEq, exists_eq_left']
    rcases s.applyEntry entry with ⟨next, _ | error⟩ <;> simp
  | cons first rest ih =>
    simp only [List.cons_append, replay]
    split
    next next applied => exact ih
    next => simp

/-- Replay acts on the core alone. -/
theorem Store.replay_core (alike : s.core = t.core) (replayed : s.replay entries = .ok s') :
    ∃ t', t.replay entries = .ok t' ∧ s'.core = t'.core := by
  induction entries generalizing s t with
  | nil =>
    cases replayed
    exact ⟨t, rfl, alike⟩
  | cons first rest ih =>
    simp only [replay] at replayed ⊢
    split at replayed
    next next applied =>
        obtain ⟨cores, errors⟩ := applyEntry_core alike first
        rcases applied' : t.applyEntry first with ⟨next', error⟩
        rw [applied, applied'] at cores errors
        subst errors
        exact ih cores replayed
    next => cases replayed

theorem Store.replay_journal (replayed : s.replay entries = .ok t) : t.journal = s.journal := by
  induction entries generalizing s with
  | nil =>
    cases replayed
    rfl
  | cons first rest ih =>
    simp only [replay] at replayed
    split at replayed
    next next applied =>
        rw [ih replayed, ← applyEntry_journal s first, applied]
    next => cases replayed

end Replay

/-! ## What an operation does -/

section Operations

variable [EthText] {s t : Store}

/-- The second store is the first one after one more entry, in the journal and in memory;
applying the entry may have failed. -/
structure Store.Journals (s t : Store) (entry : Entry) (error : Option StoreError) : Prop where
  entries : t.journal.entries = s.journal.entries ++ [entry]
  reopens : openJournal t.journal.entries = t.journal
  core : (s.applyEntry entry).1.core = t.core
  applied : (s.applyEntry entry).2 = error

theorem Store.Alike.journals {s t u : Store} {entry : Entry} {error : Option StoreError}
    (alike : s.Alike t) (journals : t.Journals u entry error) : s.Journals u entry error where
  entries := alike.journal ▸ journals.entries
  reopens := journals.reopens
  core := (applyEntry_core alike.core entry).1.trans journals.core
  applied := (applyEntry_core alike.core entry).2.trans journals.applied

/-- What an operation journals. -/
def Operation.draft (profile : Profile) : Operation → Draft
  | .accept clientKey address at_ requestID =>
    ⟨.requestAccepted, at_, acceptedPayload requestID (idempotencyKeyFor clientKey address at_)
      address profile.amountPerRequest⟩
  | .recordDenied requestID address reason at_ =>
    ⟨.requestDenied, at_,
      [(text "requestId", requestID), (text "address", addressHex address),
       (text "amountBaseUnits", intText profile.amountPerRequest), (text "reason", reason)]⟩
  | .recordSubmitted requestID transactionHash nonce signer at_ =>
    ⟨.txSubmitted, at_,
      [(text "requestId", requestID), (text "transactionHash", hashHex transactionHash),
       (text "nonce", natText nonce), (text "signerAddress", addressHex signer)]⟩
  | .recordConfirmed requestID transactionHash blockNumber at_ =>
    ⟨.txConfirmed, at_,
      [(text "requestId", requestID), (text "transactionHash", hashHex transactionHash),
       (text "blockNumber", natText blockNumber)]⟩
  | .recordFailed requestID reason at_ =>
    ⟨.txFailed, at_, [(text "requestId", requestID), (text "reason", reason)]⟩
  | .pause reason at_ => ⟨.servicePaused, at_, [(text "reason", reason)]⟩
  | .resume at_ => ⟨.serviceResumed, at_, []⟩
  | .recordRotation oldSigner newSigner at_ =>
    ⟨.signerRotated, at_, (text "newSigner", addressHex newSigner) ::
      if oldSigner ≠ 0 then [(text "oldSigner", addressHex oldSigner)] else []⟩
  | .recordRefill source amount at_ =>
    ⟨.refillObserved, at_, [(text "source", source), (text "amountBaseUnits", amount)]⟩

/-- An operation gets as far as the journal: `Accept` finds no request of the same key, no
pause and no limit in its way. -/
def Operation.Admissible (s : Store) : Operation → Prop
  | .accept clientKey address at_ _ =>
    s.idempotency (idempotencyKeyFor clientKey address at_) = none ∧ s.paused = false ∧
      s.limitDenial (s.stateOf address) at_ = none
  | _ => True

variable [Digest]

/-- A transition that fails to journal its entry changes nothing. -/
theorem Store.transition_cases (fault : Option GoString) (type : EntryType) (at_ : Time)
    (payload : Payload) :
    (∃ error, s.transition fault type at_ payload = (s, some (.journal error))) ∨
      ∃ entry, entry.draft = ⟨type, at_, payload⟩ ∧
        s.Journals (s.transition fault type at_ payload).1 entry
          (s.transition fault type at_ payload).2 := by
  rw [transition]
  split
  next error failed => exact .inl ⟨error, rfl⟩
  next entry journal appended =>
      obtain ⟨extended, reopened, drafted⟩ := Journal.append_reopens appended
      have kept := applyEntry_journal { s with journal } entry
      obtain ⟨core, error⟩ := applyEntry_core (s := s) (t := { s with journal }) rfl entry
      refine .inr ⟨entry, drafted, ?_, ?_, core, error⟩
      · rw [kept]
        exact extended
      · rw [kept]
        exact reopened

theorem Store.recordAccepted_cases (fault : Option GoString) (scopedKey : GoString)
    (address : Address) (now : Time) (requestID : GoString) :
    (∃ error, s.recordAccepted fault scopedKey address now requestID = (s, .failed error)) ∨
      ∃ entry error, entry.draft = ⟨.requestAccepted, now,
          acceptedPayload requestID scopedKey address s.profile.amountPerRequest⟩ ∧
        s.Journals (s.recordAccepted fault scopedKey address now requestID).1 entry error ∧
        ((s.recordAccepted fault scopedKey address now requestID).2.Fine → error = none) := by
  unfold Store.recordAccepted
  generalize acceptedPayload requestID scopedKey address s.profile.amountPerRequest = payload
  have cases := transition_cases (s := s) fault .requestAccepted now payload
  revert cases
  rcases s.transition fault .requestAccepted now payload with ⟨s', error⟩
  rintro (⟨failure, same⟩ | ⟨entry, drafted, journals⟩)
  · cases same
    exact .inl ⟨.journal failure, rfl⟩
  · refine .inr ⟨entry, error, drafted, ?_⟩
    cases error with
    | some error => exact ⟨journals, fun fine => fine.elim⟩
    | none =>
      cases found : s'.requests requestID <;>
        exact ⟨by simpa only [found] using journals, fun _ => rfl⟩

theorem Store.accept_cases (fault : Option GoString) (clientKey : GoString) (address : Address)
    (at_ : Time) (requestID : GoString) :
    s.Alike (s.accept fault clientKey address at_ requestID).1 ∨
      ∃ entry error,
        entry.draft = (Operation.accept clientKey address at_ requestID).draft s.profile ∧
        (Operation.accept clientKey address at_ requestID).Admissible s ∧
        s.Journals (s.accept fault clientKey address at_ requestID).1 entry error ∧
        ((s.accept fault clientKey address at_ requestID).2.Fine → error = none) := by
  have created := created_alike (s := s) address
  have state : (s.addressStateFor address).1 = s.stateOf address := by rw [addressStateFor_eq]
  have profiles : (s.addressStateFor address).2.profile = s.profile := by rw [addressStateFor_eq]
  have limits : (s.addressStateFor address).2.limitDenial (s.stateOf address) at_ =
      s.limitDenial (s.stateOf address) at_ := by
    rw [addressStateFor_eq]
    rfl
  simp only [Store.accept]
  split
  next existingID found => split <;> exact .inl ⟨rfl, rfl⟩
  next found =>
      split_ifs with paused
      · exact .inl ⟨rfl, rfl⟩
      · split
        next denial limited => exact .inl created
        next unlimited =>
            obtain ⟨error, same⟩ | ⟨entry, error, drafted, journals, fine⟩ :=
              recordAccepted_cases (s := (s.addressStateFor address).2) fault
                (idempotencyKeyFor clientKey address at_) address at_ requestID
            · rw [same]
              exact .inl created
            · rw [profiles] at drafted
              rw [state, limits] at unlimited
              exact .inr ⟨entry, error, drafted, ⟨found, eq_false_of_ne_true paused, unlimited⟩,
                created.journals journals, fine⟩

/-- An operation journals one entry or is not observed; if it is fine, the entry was
applied without an error. -/
theorem Store.perform_cases (call : Call) :
    s.Alike (s.perform call).1 ∨ ∃ entry error,
      entry.draft = call.operation.draft s.profile ∧ call.operation.Admissible s ∧
      s.Journals (s.perform call).1 entry error ∧ ((s.perform call).2.Fine → error = none) := by
  obtain ⟨operation, fault⟩ := call
  have recorded (type : EntryType) (at_ : Time) (payload : Payload) :
      s.Alike (s.transition fault type at_ payload).1 ∨
        ∃ entry error, entry.draft = ⟨type, at_, payload⟩ ∧ True ∧
          s.Journals (s.transition fault type at_ payload).1 entry error ∧
          ((Outcome.ofError (s.transition fault type at_ payload).2).Fine → error = none) := by
    obtain ⟨error, same⟩ | ⟨entry, drafted, journals⟩ :=
      transition_cases (s := s) fault type at_ payload
    · rw [same]
      exact .inl ⟨rfl, rfl⟩
    · exact .inr ⟨entry, _, drafted, trivial, journals, Outcome.fine_ofError.mp⟩
  cases operation with
  | accept clientKey address at_ requestID =>
    exact accept_cases (s := s) fault clientKey address at_ requestID
  | recordDenied => exact recorded _ _ _
  | recordSubmitted => exact recorded _ _ _
  | recordConfirmed => exact recorded _ _ _
  | recordFailed | pause | resume | recordRotation | recordRefill => exact recorded _ _ _

end Operations

/-! ## Faithful journals -/

section Faithful

variable [EthText] {profile : Profile} {s t : Store} {entry : Entry} {error : Option StoreError}

/-- If the journal can be replayed at all, it gives the store back. -/
structure Store.Faithful (profile : Profile) (live : Store) : Prop where
  reopens : openJournal live.journal.entries = live.journal
  replayed : ∀ restarted, newStore live.journal live.journal.entries profile = .ok restarted →
    restarted.core = live.core

/-- A store that is opened on a faithful journal has its core. -/
theorem Store.Faithful.reopened (faithful : s.Faithful profile)
    (opened : newStore (openJournal s.journal.entries) s.journal.entries profile = .ok t) :
    t.core = s.core := by
  rw [faithful.reopens] at opened
  exact faithful.replayed t opened

theorem Store.Faithful.alike (faithful : s.Faithful profile) (alike : s.Alike t) :
    t.Faithful profile := by
  constructor
  · rw [← alike.journal]
    exact faithful.reopens
  · rw [← alike.journal, ← alike.core]
    exact faithful.replayed

theorem Store.Faithful.journals (faithful : s.Faithful profile)
    (journals : s.Journals t entry error) : t.Faithful profile := by
  refine ⟨journals.reopens, fun restarted replayed => ?_⟩
  rw [journals.entries] at replayed
  obtain ⟨before, replayed', applied⟩ := replay_snoc.mp replayed
  -- The journal that is open during the replay is not part of the core.
  have opened : Store.core { journal := t.journal, profile } =
      Store.core { journal := s.journal, profile } := rfl
  obtain ⟨before', replayed'', same⟩ := replay_core opened replayed'
  have cores := (applyEntry_core (same.trans (faithful.replayed before' replayed'')) entry).1
  rw [applied] at cores
  exact cores.trans journals.core

/-- Whatever an operation returns, the journal stays faithful. -/
theorem Store.Faithful.perform [Digest] (faithful : s.Faithful profile) (call : Call) :
    (s.perform call).1.Faithful profile := by
  obtain alike | ⟨entry, error, -, -, journals, -⟩ := perform_cases (s := s) call
  · exact faithful.alike alike
  · exact faithful.journals journals

/-- A store that was opened has a faithful journal. -/
theorem Store.Faithful.opened {entries : List Entry}
    (opened : newStore (openJournal entries) entries profile = .ok s) : s.Faithful profile := by
  have journal : s.journal = openJournal entries := replay_journal opened
  constructor
  · rw [journal, openJournal_entries]
  · rw [journal, openJournal_entries]
    intro restarted replayed
    cases opened.symm.trans replayed
    rfl

end Faithful

end Torium.Faucet
