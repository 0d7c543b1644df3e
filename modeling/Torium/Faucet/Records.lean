import Torium.Faucet.Core
import Torium.Lib.Replica

/-!
# The records of requests

A record says which transaction was last submitted for its request: the hash, the
signer and the nonce. The signer and the nonce are the slot of the submission. Only a
new submission changes the slot of a known request; all other operations continue its
record.
-/

namespace Torium.Faucet

open Evm Function

/-- The sender and the nonce of the recorded submission. -/
def Request.slot [EthText] (request : Request) : Address × Nat :=
  (hexToAddress request.signerAddress, request.nonce)

/-- A submission is recorded. -/
def Request.Recorded (request : Request) : Prop :=
  request.status ≠ .queued ∧ request.transactionHash ≠ []

/-- A later record of the same submission. -/
structure Request.Continues (old new : Request) : Prop where
  id : new.id = old.id
  signerAddress : new.signerAddress = old.signerAddress
  nonce : new.nonce = old.nonce
  recorded : old.Recorded → new.Recorded

theorem Request.Continues.refl (request : Request) : request.Continues request :=
  ⟨rfl, rfl, rfl, fun recorded => recorded⟩

theorem Request.Continues.trans {first second third : Request} (here : first.Continues second)
    (later : second.Continues third) : first.Continues third where
  id := later.id.trans here.id
  signerAddress := later.signerAddress.trans here.signerAddress
  nonce := later.nonce.trans here.nonce
  recorded := later.recorded ∘ here.recorded

theorem Request.Continues.slot [EthText] {old new : Request} (continues : old.Continues new) :
    new.slot = old.slot := by
  rw [Request.slot, Request.slot, continues.signerAddress, continues.nonce]

/-- Every known request continues its record. -/
def Store.Keeps (s t : Store) : Prop :=
  ∀ id old, s.requests id = some old → ∃ new, t.requests id = some new ∧ old.Continues new

/-- Requests are filed under their identifiers. -/
def Store.Keyed (s : Store) : Prop := ∀ id request, s.requests id = some request → request.id = id

/-- At most one record is written, and it has the property. -/
def Store.Rewrites (s t : Store) (id : GoString) (written : Request → Prop) : Prop :=
  t.requests = s.requests ∨
    ∃ new, written new ∧ t.requests = Function.update s.requests id (some new)

variable {other : GoString}

section Rewrites

variable {s t u : Store} {id : GoString} {written written' : Request → Prop}

theorem Store.Keeps.of_eq (same : t.requests = s.requests) : s.Keeps t :=
  fun _ old known => ⟨old, by rw [same, known], .refl old⟩

theorem Store.Keeps.trans (here : s.Keeps t) (later : t.Keeps u) : s.Keeps u := by
  intro id old known
  obtain ⟨middle, known', continues⟩ := here id old known
  obtain ⟨new, known'', continues'⟩ := later id middle known'
  exact ⟨new, known'', continues.trans continues'⟩

theorem Store.Rewrites.mono (implies : ∀ request, written request → written' request)
    (rewrites : s.Rewrites t id written) : s.Rewrites t id written' := by
  obtain same | ⟨new, property, same⟩ := rewrites
  · exact .inl same
  · exact .inr ⟨new, implies new property, same⟩

theorem Store.Rewrites.frame (rewrites : s.Rewrites t id written) (elsewhere : other ≠ id) :
    t.requests other = s.requests other := by
  obtain same | ⟨new, -, same⟩ := rewrites
  · rw [same]
  · rw [same, update_of_ne elsewhere]

theorem Store.Rewrites.keeps
    (rewrites : s.Rewrites t id fun new => ∀ old, s.requests id = some old → old.Continues new) :
    s.Keeps t := by
  obtain same | ⟨new, property, same⟩ := rewrites
  · exact Keeps.of_eq same
  · intro other old known
    by_cases here : other = id
    · subst here
      exact ⟨new, by rw [same, update_self], property old known⟩
    · exact ⟨old, by rw [same, update_of_ne here, known], .refl old⟩

/-- A record is an old one, or it was written. -/
theorem Store.Rewrites.cases {request : Request} (rewrites : s.Rewrites t id written)
    (known : t.requests other = some request) :
    s.requests other = some request ∨ other = id ∧ written request := by
  obtain same | ⟨new, property, same⟩ := rewrites
  · exact .inl (same ▸ known)
  · by_cases here : other = id
    · subst here
      rw [same, update_self] at known
      cases known
      exact .inr ⟨rfl, property⟩
    · rw [same, update_of_ne here] at known
      exact .inl known

/-- What the new record has is not lost. -/
theorem Store.Rewrites.holds (rewrites : s.Rewrites t id written)
    (known : ∃ old, s.requests other = some old ∧ written' old)
    (implies : ∀ request, written request → written' request) :
    ∃ new, t.requests other = some new ∧ written' new := by
  obtain same | ⟨new, property, same⟩ := rewrites
  · rw [same]
    exact known
  · rw [same]
    by_cases here : other = id
    · exact ⟨new, by rw [here, update_self], implies new property⟩
    · rw [update_of_ne here]
      exact known

theorem Store.Rewrites.keyed (keyed : s.Keyed)
    (rewrites : s.Rewrites t id fun new => new.id = id) : t.Keyed := by
  intro other request known
  obtain old | ⟨rfl, property⟩ := rewrites.cases known
  · exact keyed other request old
  · exact property

end Rewrites

/-! ## Entries -/

section Entries

variable [EthText] {s t : Store} {entry : Entry} {error : Option StoreError}

/-- Entries that continue the records of all known requests. -/
structure Entry.Continuing (entry : Entry) (s : Store) : Prop where
  fresh : entry.type = .requestAccepted ∨ entry.type = .requestDenied →
    s.requests (entry.payload.get "requestId") = none
  submits : entry.type ≠ .txSubmitted
  hash : entry.type = .txConfirmed → entry.payload.get "transactionHash" ≠ []

/-- The status that an entry gives to its request. -/
def EntryType.status? : EntryType → Option Status
  | .requestAccepted => some .queued
  | .requestDenied => some .denied
  | .txSubmitted => some .submitted
  | .txConfirmed => some .confirmed
  | .txFailed => some .failed
  | _ => none

namespace Store.Applied

variable {result : Store × Option StoreError} (applied : s.Applied entry result)

include applied

/-- An entry writes no record but that of the request it names. -/
theorem rewrites : s.Rewrites result.1 (entry.payload.get "requestId") fun new =>
    (s.Keyed → new.id = entry.payload.get "requestId") ∧
    (entry.Continuing s → ∀ old, s.requests (entry.payload.get "requestId") = some old →
      old.Continues new) := by
  have fresh (created : entry.type = .requestAccepted ∨ entry.type = .requestDenied)
      (new : Request) (continuing : entry.Continuing s) (old : Request)
      (known : s.requests (entry.payload.get "requestId") = some old) : old.Continues new := by
    rw [continuing.fresh created] at known
    cases known
  cases applied with
  | refused | silent => exact .inl rfl
  | accepted kind => exact .inr ⟨_, ⟨fun _ => rfl, fresh (.inl kind) _⟩, rfl⟩
  | denied kind named => exact .inr ⟨_, ⟨fun _ => named, fresh (.inr kind) _⟩, named ▸ rfl⟩
  | submitted kind known =>
    refine .inr ⟨_, ?_, rfl⟩
    exact ⟨fun keyed => (keyed _ _ known :), fun continuing => absurd kind continuing.submits⟩
  | confirmed kind known =>
    refine .inr ⟨_, ⟨?_, fun continuing old known' => ?_⟩, rfl⟩
    · exact fun keyed => (keyed _ _ known :)
    · cases known.symm.trans known'
      exact ⟨rfl, rfl, rfl, fun _ => ⟨nofun, continuing.hash kind⟩⟩
  | failed kind known =>
    refine .inr ⟨_, ⟨?_, fun _ old known' => ?_⟩, rfl⟩
    · exact fun keyed => (keyed _ _ known :)
    · cases known.symm.trans known'
      exact ⟨rfl, rfl, rfl, fun recorded => ⟨nofun, recorded.2⟩⟩

theorem keyed (keyed : s.Keyed) : result.1.Keyed :=
  (applied.rewrites.mono fun _ written => written.1 keyed).keyed keyed

theorem keeps (continuing : entry.Continuing s) : s.Keeps result.1 :=
  (applied.rewrites.mono fun _ written => written.2 continuing).keeps

theorem status : s.Rewrites result.1 (entry.payload.get "requestId") fun new =>
    entry.type.status? = some new.status := by
  cases applied with
  | refused | silent => exact .inl rfl
  | @denied request kind named status =>
    exact .inr ⟨request, by simp only [kind, status]; rfl, named ▸ rfl⟩
  | accepted kind | submitted kind | confirmed kind | failed kind =>
    exact .inr ⟨_, by rw [kind]; rfl, rfl⟩

/-- Only entries that create a request extend the order. -/
theorem order (other : entry.type ≠ .requestAccepted ∧ entry.type ≠ .requestDenied) :
    result.1.order = s.order := by
  cases applied with
  | accepted kind => exact absurd kind other.1
  | denied kind => exact absurd kind other.2
  | _ => rfl

end Store.Applied

end Entries

/-! ## Operations -/

theorem Store.Alike.requests {s t : Store} (alike : s.Alike t) : t.requests = s.requests :=
  (requests_of_core alike.core).symm

section Operations

variable [EthText] {s t : Store} {entry : Entry} {error : Option StoreError}

theorem Store.Journals.requests (journals : s.Journals t entry error) :
    t.requests = (s.applyEntry entry).1.requests :=
  (requests_of_core journals.core).symm

theorem Store.Journals.keeps (journals : s.Journals t entry error)
    (continuing : entry.Continuing s) : s.Keeps t := by
  have keeps := (s.applied entry).keeps continuing
  unfold Keeps at keeps ⊢
  rw [journals.requests]
  exact keeps

/-- What all operations but a submission journal continues the records. -/
theorem Operation.draft_continuing [EthText.Lawful] {operation : Operation} {profile : Profile}
    (fresh : operation.Fresh s) (other : operation.isSubmission = false)
    (drafted : entry.draft = operation.draft profile) : entry.Continuing s := by
  cases operation with
  | accept clientKey address at_ requestID =>
    obtain ⟨sameType, -, samePayload⟩ := Draft.mk.inj drafted
    refine ⟨fun _ => ?_, by simp [sameType], by simp [sameType]⟩
    rw [samePayload]
    exact fresh
  | recordDenied =>
    obtain ⟨sameType, -, samePayload⟩ := Draft.mk.inj drafted
    refine ⟨fun _ => ?_, by simp [sameType], by simp [sameType]⟩
    rw [samePayload]
    exact fresh
  | recordSubmitted => cases other
  | recordConfirmed requestID hash =>
    obtain ⟨sameType, -, samePayload⟩ := Draft.mk.inj drafted
    refine ⟨by simp [sameType], by simp [sameType], fun _ => ?_⟩
    rw [samePayload]
    exact EthText.Lawful.hashHex_ne_nil hash
  | recordFailed | pause | resume | recordRotation | recordRefill =>
    obtain ⟨sameType, -⟩ := Draft.mk.inj drafted
    exact ⟨by simp [sameType], by simp [sameType], by simp [sameType]⟩

variable [Digest]

/-- The request whose record an operation writes. -/
def Operation.subject? : Operation → Option GoString
  | .accept _ _ _ requestID | .recordDenied requestID _ _ _ | .recordSubmitted requestID _ _ _ _
  | .recordConfirmed requestID _ _ _ | .recordFailed requestID _ _ => some requestID
  | .pause _ _ | .resume _ | .recordRotation _ _ _ | .recordRefill _ _ _ => none

theorem Store.perform_frame {call : Call} (elsewhere : call.operation.subject? ≠ some other) :
    (s.perform call).1.requests other = s.requests other := by
  obtain alike | ⟨entry, error, drafted, -, journals, -⟩ := perform_cases (s := s) call
  · rw [alike.requests]
  · rw [journals.requests]
    obtain ⟨operation, fault⟩ := call
    cases operation with
    | accept | recordDenied | recordSubmitted | recordConfirmed | recordFailed =>
      refine (s.applied entry).rewrites.frame fun same => elsewhere (congrArg some ?_)
      rw [same, (Draft.mk.inj drafted).2.2]
      rfl
    | pause | resume | recordRefill => rw [applyEntry, (Draft.mk.inj drafted).1]
    | recordRotation =>
      rw [applyEntry, (Draft.mk.inj drafted).1]
      rfl

/-- All operations file requests under their identifiers. -/
theorem Store.perform_keyed (keyed : s.Keyed) (call : Call) : (s.perform call).1.Keyed := by
  obtain alike | ⟨entry, error, -, -, journals, -⟩ := perform_cases (s := s) call
  · intro id request known
    rw [alike.requests] at known
    exact keyed id request known
  · intro id request known
    rw [journals.requests] at known
    exact (s.applied entry).keyed keyed id request known

/-- All other operations leave the order of the requests alone. -/
theorem Store.perform_order {call : Call}
    (other : (call.operation.draft s.profile).type ≠ .requestAccepted ∧
      (call.operation.draft s.profile).type ≠ .requestDenied) :
    (s.perform call).1.order = s.order := by
  obtain alike | ⟨entry, error, drafted, -, journals, -⟩ := perform_cases (s := s) call
  · exact (eq_of_core alike.core Store.order).symm
  · rw [← drafted] at other
    exact (eq_of_core journals.core Store.order).symm.trans ((s.applied entry).order other)

/-- What a transition writes is what its entry writes. -/
theorem Store.transition_rewrites {fault : Option GoString} {type : EntryType} {at_ : Time}
    {payload : Payload} {id : GoString} {written : Request → Prop}
    (effect : ∀ entry : Entry, entry.draft = ⟨type, at_, payload⟩ →
      s.Rewrites (s.applyEntry entry).1 id written) :
    s.Rewrites (s.transition fault type at_ payload).1 id written := by
  obtain ⟨error, same⟩ | ⟨entry, drafted, journals⟩ :=
    transition_cases (s := s) fault type at_ payload
  · rw [same]
    exact .inl rfl
  · have effect := effect entry drafted
    rw [Rewrites, ← journals.requests] at effect
    exact effect

/-- What a new submission writes; a nonce that is too large is not read back. -/
theorem Store.recordSubmitted_written (fault : Option GoString) (requestID : GoString)
    (hash : Bytes32) (nonce : Nat) (signer : Address) (at_ : Time) :
    s.Rewrites (s.recordSubmitted fault requestID hash nonce signer at_).1 requestID fun new =>
      ∃ old, s.requests requestID = some old ∧ new.status = .submitted ∧
        new.transactionHash = hashHex hash ∧ new.signerAddress = addressHex signer ∧
        (new.nonce = nonce ∨ 2 ^ 64 ≤ nonce ∧ new.nonce = old.nonce) := by
  refine transition_rewrites fun entry drafted => ?_
  obtain ⟨sameType, -, samePayload⟩ := Draft.mk.inj drafted
  have applied := s.applied entry
  generalize s.applyEntry entry = result at applied ⊢
  cases applied with
  | refused | silent => exact .inl rfl
  | submitted _ known scanned =>
    rw [samePayload] at known scanned ⊢
    refine .inr ⟨_, ⟨_, known, rfl, rfl, rfl, ?_⟩, rfl⟩
    refine scanned.imp (fun nonces => scanUint64?_natText nonces) fun ⟨unread, same, _⟩ => ?_
    refine ⟨?_, same⟩
    change scanUint64? (natText nonce) = none at unread
    rw [scanUint64?_eq] at unread
    split_ifs at unread with small
    exact not_lt.mp small
  | accepted kind | denied kind | confirmed kind | failed kind => cases kind.symm.trans sameType

/-- A new submission is recorded with its signer, and with its nonce unless that cannot be
read back. -/
theorem Store.recordSubmitted_rewrites [EthText.Lawful] (fault : Option GoString)
    (requestID : GoString) (hash : Bytes32) (nonce : Nat) (signer : Address) (at_ : Time) :
    s.Rewrites (s.recordSubmitted fault requestID hash nonce signer at_).1 requestID fun new =>
      ∃ old, s.requests requestID = some old ∧ new.Recorded ∧
        new.signerAddress = addressHex signer ∧ (new.nonce = nonce ∨ new.nonce = old.nonce) := by
  refine (recordSubmitted_written fault requestID hash nonce signer at_).mono ?_
  rintro new ⟨old, known, status, hashes, signers, nonces⟩
  refine ⟨old, known, ⟨by simp [status], ?_⟩, signers, nonces.imp_right And.right⟩
  rw [hashes]
  exact EthText.Lawful.hashHex_ne_nil hash

theorem Store.recordSubmitted_done [EthText.Lawful] {fault : Option GoString}
    {requestID : GoString} {hash : Bytes32} {nonce : Nat} {signer : Address} {at_ : Time}
    (done : (s.recordSubmitted fault requestID hash nonce signer at_).2 = none) :
    ∃ new, (s.recordSubmitted fault requestID hash nonce signer at_).1.requests requestID =
        some new ∧ new.Recorded ∧ new.slot = (signer, nonce) := by
  unfold recordSubmitted at done ⊢
  obtain ⟨error, same⟩ | ⟨entry, drafted, journals⟩ :=
    transition_cases (s := s) fault .txSubmitted at_
      [(text "requestId", requestID), (text "transactionHash", hashHex hash),
       (text "nonce", natText nonce), (text "signerAddress", addressHex signer)]
  · rw [same] at done
    cases done
  · obtain ⟨sameType, -, samePayload⟩ := Draft.mk.inj drafted
    have applied := s.applied entry
    have fine := journals.applied.trans done
    rw [journals.requests]
    generalize s.applyEntry entry = result at applied fine ⊢
    cases applied with
    | refused => cases fine
    | silent kind => exact absurd sameType kind
    | submitted _ _ scanned =>
      rw [samePayload] at scanned ⊢
      refine ⟨_, if_pos rfl, ⟨by simp, EthText.Lawful.hashHex_ne_nil hash⟩, ?_⟩
      obtain nonces | ⟨-, -, wrong⟩ := scanned
      · have same := scanUint64?_natText nonces
        exact Prod.ext (EthText.Lawful.hexToAddress_addressHex signer) same
      · exact absurd fine wrong
    | accepted kind | denied kind | confirmed kind | failed kind => cases kind.symm.trans sameType

/-- Only a new submission changes the slot of a request. -/
theorem Store.perform_keeps [EthText.Lawful] {call : Call} (fresh : call.operation.Fresh s)
    (other : call.operation.isSubmission = false) : s.Keeps (s.perform call).1 := by
  obtain alike | ⟨entry, error, drafted, -, journals, -⟩ := perform_cases (s := s) call
  · exact .of_eq alike.requests
  · exact journals.keeps (Operation.draft_continuing fresh other drafted)

end Operations

end Torium.Faucet
