import Torium.Registry.Lifecycle

/-!
# What the events tell

Whoever follows the events of the registry from its deployment on knows, without a single read
of its storage, which attestations exist, who has issued them for which commitment, what they
supersede and which of them are still active.
-/

namespace Torium.Registry

open Evm Transition Function

/-- What is told about an attestation. -/
structure Summary where
  issuer : Address
  schemaId : Bytes32
  commitment : Bytes32
  supersedes : Bytes32
  status : Status
  deriving DecidableEq

/-- One event more. -/
def Event.follow (known : Bytes32 → Option Summary) : Event → Bytes32 → Option Summary
  | .attestationIssued id issuer schemaId commitment supersedes =>
    update known id (some ⟨issuer, schemaId, commitment, supersedes, .active⟩)
  | .attestationSuperseded id _ _ _ =>
    update known id ((known id).map ({ · with status := .superseded }))
  | .attestationRevoked id _ _ _ =>
    update known id ((known id).map ({ · with status := .revoked }))

def follow (logs : List Event) : Bytes32 → Option Summary :=
  logs.foldl Event.follow fun _ => none

variable [Keccak]

/-- What the storage has. -/
def summary (s : Storage) (id : Bytes32) : Option Summary :=
  let a := s.attestations id
  if a.issuer = 0 then none
  else some ⟨a.issuer, a.schemaId, commitment a, a.supersedes, status a⟩

variable {s t : Storage} {sender : Address} {id : Bytes32}

theorem summary_eq_some (present : Exists s id) : summary s id =
    some ⟨(s.attestations id).issuer, (s.attestations id).schemaId,
      commitment (s.attestations id), (s.attestations id).supersedes, statusOf s id⟩ :=
  if_neg present

/-- A record that keeps its identity and gets a status. -/
theorem summary_of_identity (present : Exists s id)
    (same : (t.attestations id).identity = (s.attestations id).identity) :
    summary t id = (summary s id).map ({ · with status := statusOf t id }) := by
  have issuer := eq_of_identity same Attestation.issuer
  have present' : Exists t id := by rwa [Exists, issuer]
  rw [summary_eq_some present, summary_eq_some present', issuer,
    eq_of_identity same Attestation.schemaId, eq_of_identity same Attestation.supersedes,
    eq_of_identity same commitment]
  rfl

theorem summary_congr (same : t.attestations id = s.attestations id) :
    summary t id = summary s id := by
  rw [summary, summary, same]

omit [Keccak] in
theorem follow_snoc (logs : List Event) (event : Event) :
    follow (logs ++ [event]) = event.follow (follow logs) := by
  rw [follow, List.foldl_append]
  rfl

/-- A transaction logs what it writes. -/
theorem Effect.follow_logs (effect : Effect sender s t) (known : follow s.logs = summary s) :
    follow t.logs = summary t := by
  cases effect with
  | none => exact known
  | @issued p supersedes new issuerNonce count timestamp legal =>
    funext id
    change follow (s.logs ++ _ ++ [_]) id = _
    rw [follow_snoc]
    generalize wrote : issue s sender p supersedes new issuerNonce count timestamp = t
    obtain ⟨rfl, written⟩ | ⟨old, ⟨named, rfl⟩, written⟩ | ⟨old, other, written⟩ :=
      legal.attestations_cases wrote.symm id
    · have active : status (newAttestation sender issuerNonce p supersedes timestamp) = .active :=
        status_eq_active.mpr ⟨legal.issuer_ne, rfl, rfl⟩
      rw [Event.follow, update_self, summary, written, active]
      exact (if_neg legal.issuer_ne).symm
    · obtain ⟨present, unrevoked, -⟩ := status_eq_active.mp (legal.prior_active named)
      have superseded : statusOf t id = .superseded := by
        rw [statusOf, written]
        exact status_eq_superseded.mpr ⟨present, unrevoked, legal.id_ne⟩
      rw [Event.follow, update_of_ne old, if_neg named, follow_snoc, known, Event.follow,
        update_self, summary_of_identity present (legal.identity_other wrote.symm old),
        superseded]
    · rw [Event.follow, update_of_ne old, summary_congr written]
      split_ifs with named
      · rw [List.append_nil, known]
      · rw [follow_snoc, known, Event.follow, update_of_ne fun same => other ⟨named, same⟩]
  | @revoked revoked reason timestamp legal =>
    funext id
    change follow (s.logs ++ [_]) id = _
    rw [follow_snoc, known, Event.follow]
    by_cases here : id = revoked
    · subst here
      have present : Exists s id := (status_eq_active.mp legal.active).1
      have marked : statusOf (markRevoked s id reason sender timestamp) id = .revoked := by
        rw [statusOf, markRevoked_attestations_self]
        exact status_eq_revoked.mpr ⟨present, legal.reason_ne⟩
      rw [update_self, summary_of_identity present (markRevoked_identity s ..), marked]
    · rw [update_of_ne here, summary_congr (markRevoked_attestations_other here)]

/-- In every reachable storage the events tell what the storage has, so that they also tell what
verifies. -/
theorem events_tell_storage (reached : Reachable step Initial s) : follow s.logs = summary s ∧
    ∀ id issuer expected, verify s id issuer expected = true ↔ ∃ schemaId supersedes,
        follow s.logs id = some ⟨issuer, schemaId, expected, supersedes, .active⟩ := by
  have known : follow s.logs = summary s := by
    refine reached.invariant (fun initial => ?_) fun known taken =>
      (step_effect taken).2.follow_logs known
    rw [initial]
    rfl
  refine ⟨known, fun id issuer expected => ?_⟩
  rw [verify_eq_true, known]
  constructor
  · rintro ⟨active, rfl, rfl⟩
    rw [summary_eq_some (status_eq_active.mp active).1, active]
    exact ⟨_, _, rfl⟩
  · rintro ⟨schemaId, supersedes, found⟩
    by_cases missing : (s.attestations id).issuer = 0
    · rw [summary, if_pos missing] at found
      cases found
    · rw [summary_eq_some missing] at found
      injection found with found
      injection found with issued _ committed _ active
      exact ⟨active, issued, committed⟩

omit [Keccak] in
theorem events_tell_storage_superseding :
    ∃ s, Run (@step Keccak.rolling) Free supersedingCalls {} s ∧ s.attestationCount = 2 ∧
      follow s.logs = @summary Keccak.rolling s := by
  obtain ⟨s, run, evaluated⟩ := run_of_execute_any
    (show (execute (@step Keccak.rolling) supersedingCalls {}).any
      (fun s => s.attestationCount = 2) by decide +kernel)
  exact ⟨s, run, of_decide_eq_true evaluated,
    (@events_tell_storage Keccak.rolling s ⟨_, _, rfl, run⟩).1⟩

end Torium.Registry
