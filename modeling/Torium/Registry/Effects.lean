import Torium.Registry.Contract

/-!
# What one registry transaction can do

`Effect sender s t` lists the only three things a transaction does to the
storage: nothing, the writes of a legal issuance, or the writes of a legal
revocation. `step_effect` reads it off the entry points once; every invariant
of the registry is proved over `Effect` and never unfolds an entry point again.
-/

namespace Torium.Registry

open Evm Function

/-- A record exists when its issuer field is set. -/
def Exists (s : Storage) (id : Bytes32) : Prop := (s.attestations id).issuer ≠ 0

instance (s : Storage) (id : Bytes32) : Decidable (Exists s id) :=
  inferInstanceAs (Decidable (_ ≠ _))

/-- The fields of a record that no later call writes; the others are blanked. -/
def Attestation.identity (a : Attestation) : Attestation :=
  { a with supersededBy := 0, revokedAt := 0, supersededAt := 0, revocationReasonHash := 0 }

variable {a : Attestation} {id : Bytes32} {s : Storage} {sender : Address}

/-- What is read from a record and is the same in its identity, is the same in records with
the same identity. -/
theorem eq_of_identity {α : Type} {b : Attestation} (same : a.identity = b.identity)
    (read : Attestation → α) (kept : ∀ c : Attestation, read c.identity = read c := by
      exact fun _ => rfl) : read a = read b := by
  rw [← kept a, same, kept b]

theorem status_eq_missing : status a = .missing ↔ a.issuer = 0 := by
  unfold status
  split_ifs <;> simp_all

theorem status_eq_revoked :
    status a = .revoked ↔ a.issuer ≠ 0 ∧ a.revocationReasonHash ≠ 0 := by
  unfold status
  split_ifs <;> simp_all

theorem status_eq_active :
    status a = .active ↔ a.issuer ≠ 0 ∧ a.revocationReasonHash = 0 ∧ a.supersededBy = 0 := by
  unfold status
  split_ifs <;> simp_all

theorem status_eq_superseded :
    status a = .superseded ↔
      a.issuer ≠ 0 ∧ a.revocationReasonHash = 0 ∧ a.supersededBy ≠ 0 := by
  unfold status
  split_ifs <;> simp_all

theorem requireAttestation_eq_ok :
    requireAttestation s id = .ok a ↔ (s.attestations id).issuer ≠ 0 ∧ s.attestations id = a := by
  simp only [requireAttestation, bind_eq_ok, revertIf_eq_ok, pure_eq_ok, exists_const]

theorem markRevoked_attestations_self (s : Storage) (id reason : Bytes32) (sender : Address)
    (timestamp : Uint64) :
    (markRevoked s id reason sender timestamp).attestations id =
      { s.attestations id with revokedAt := timestamp, revocationReasonHash := reason } := by
  simp [markRevoked]

theorem markRevoked_attestations_other {reason other : Bytes32} {timestamp : Uint64}
    (ne : other ≠ id) :
    (markRevoked s id reason sender timestamp).attestations other = s.attestations other := by
  simp [markRevoked, ne]

theorem checkPrior_ok {issuer : Address} {p : Payload} {supersedes : Bytes32} {u : Unit}
    (h : checkPrior s issuer p supersedes = .ok u) (named : supersedes ≠ 0) :
    status (s.attestations supersedes) = .active ∧
      (s.attestations supersedes).issuer = issuer ∧
      (s.attestations supersedes).schemaId = p.schemaId ∧
      (s.attestations supersedes).subject = p.subject := by
  rw [checkPrior, if_neg named] at h
  simp only [bind_eq_ok, requireAttestation_eq_ok, revertIf_eq_ok, not_not] at h
  obtain ⟨prior, ⟨_, rfl⟩, _, active, _, issuer, _, schema, subject⟩ := h
  exact ⟨active, issuer, schema, subject⟩

theorem markRevoked_identity (s : Storage) (id reason other : Bytes32) (sender : Address)
    (timestamp : Uint64) :
    ((markRevoked s id reason sender timestamp).attestations other).identity =
      (s.attestations other).identity := by
  by_cases self : other = id
  · subst self
    rw [markRevoked_attestations_self]
    rfl
  · rw [markRevoked_attestations_other self]

theorem markRevoked_supersededBy (s : Storage) (id reason other : Bytes32) (sender : Address)
    (timestamp : Uint64) :
    ((markRevoked s id reason sender timestamp).attestations other).supersededBy =
      (s.attestations other).supersededBy := by
  by_cases self : other = id
  · subst self
    rw [markRevoked_attestations_self]
  · rw [markRevoked_attestations_other self]

variable [Keccak]

section

variable (s : Storage) (issuer : Address) (p : Payload) (supersedes id : Bytes32)
variable (issuerNonce attestationCount : Word) (timestamp : Uint64)

@[simp] theorem issue_issuerNonces :
    (issue s issuer p supersedes id issuerNonce attestationCount timestamp).issuerNonces =
      update s.issuerNonces issuer issuerNonce := rfl

@[simp] theorem issue_usedPayloads :
    (issue s issuer p supersedes id issuerNonce attestationCount timestamp).usedPayloads =
      update s.usedPayloads (computeReplayKey issuer p) true := rfl

end

/-- The conditions under which `attest` writes a record, with the values it writes. -/
structure Issuable (s : Storage) (issuer : Address) (p : Payload)
    (supersedes attestationId : Bytes32) (issuerNonce attestationCount : Word) : Prop where
  issuer_ne : issuer ≠ 0
  unused : s.usedPayloads (computeReplayKey issuer p) = false
  prior_active : supersedes ≠ 0 → status (s.attestations supersedes) = .active
  prior_issuer : supersedes ≠ 0 → (s.attestations supersedes).issuer = issuer
  prior_schema : supersedes ≠ 0 → (s.attestations supersedes).schemaId = p.schemaId
  prior_subject : supersedes ≠ 0 → (s.attestations supersedes).subject = p.subject
  id_ne : attestationId ≠ 0
  fresh : (s.attestations attestationId).issuer = 0
  nonce : (s.issuerNonces issuer).toNat + 1 = issuerNonce.toNat
  count : s.attestationCount.toNat + 1 = attestationCount.toNat

/-- The conditions under which `revoke` marks a record. -/
structure Revocable (s : Storage) (sender : Address) (attestationId reason : Bytes32) : Prop where
  reason_ne : reason ≠ 0
  owned : (s.attestations attestationId).issuer = sender
  active : status (s.attestations attestationId) = .active

/-- Everything a transaction by `sender` can do to the storage. -/
inductive Effect (sender : Address) (s : Storage) : Storage → Prop where
  | none : Effect sender s s
  | issued {p supersedes attestationId issuerNonce attestationCount} (timestamp : Uint64)
      (legal : Issuable s sender p supersedes attestationId issuerNonce attestationCount) :
      Effect sender s
        (issue s sender p supersedes attestationId issuerNonce attestationCount timestamp)
  | revoked {attestationId reason} (timestamp : Uint64)
      (legal : Revocable s sender attestationId reason) :
      Effect sender s (markRevoked s attestationId reason sender timestamp)

theorem attest_ok {env : Env} {p : Payload} {supersedes : Bytes32} {t : Storage}
    (sender : env.sender ≠ 0) (h : attest env p supersedes s = .ok (id, t)) :
    Effect env.sender s t := by
  simp only [attest, bind_eq_ok, revertIf_eq_ok, orRevert_eq_ok, pure_eq_ok, Prod.mk.injEq] at h
  obtain ⟨_, _, _, unused, _, prior, nonce, hnonce, _, accepted, time, _, count, hcount,
    rfl, rfl⟩ := h
  obtain ⟨id_ne, fresh⟩ := not_or.mp accepted
  refine .issued time ⟨sender, by simpa using unused, ?_, ?_, ?_, ?_, id_ne, not_not.mp fresh,
    checkedAdd_eq_some.mp hnonce, checkedAdd_eq_some.mp hcount⟩
  · exact fun named => (checkPrior_ok prior named).1
  · exact fun named => (checkPrior_ok prior named).2.1
  · exact fun named => (checkPrior_ok prior named).2.2.1
  · exact fun named => (checkPrior_ok prior named).2.2.2

theorem revoke_ok {env : Env} {reason : Bytes32} {t : Storage}
    (h : revoke env id reason s = .ok t) :
    Effect env.sender s t := by
  simp only [revoke, bind_eq_ok, revertIf_eq_ok, requireAttestation_eq_ok, pure_eq_ok,
    not_not] at h
  obtain ⟨_, reason_ne, _, ⟨_, rfl⟩, _, owned, _, active, time, _, rfl⟩ := h
  exact .revoked time ⟨reason_ne, owned, active⟩

/-- A transaction has a non-zero sender and one of the three effects. -/
theorem step_effect {t : Storage} {call : Call} (h : step s call = some t) :
    call.env.sender ≠ 0 ∧ Effect call.env.sender s t := by
  unfold step at h
  split at h
  · cases h
  · rename_i sender
    refine ⟨sender, ?_⟩
    split at h
    · rename_i ran
      cases h
      unfold run at ran
      split at ran
      · simp only [bind_eq_ok, pure_eq_ok] at ran
        obtain ⟨⟨id, t⟩, issued, rfl⟩ := ran
        exact attest_ok sender issued
      · exact revoke_ok ran
    · cases h
      exact .none

namespace Issuable

variable {t : Storage} {issuer : Address} {p : Payload} {supersedes other : Bytes32}
variable {issuerNonce attestationCount : Word} {timestamp : Uint64}
variable (legal : Issuable s issuer p supersedes id issuerNonce attestationCount)

include legal in
/-- The new identifier is never the one that is superseded. -/
theorem id_ne_prior (named : supersedes ≠ 0) : id ≠ supersedes := by
  rintro rfl
  have := legal.prior_issuer named
  exact legal.issuer_ne (this.symm.trans legal.fresh)

variable (written : t = issue s issuer p supersedes id issuerNonce attestationCount timestamp)

include legal written

/-- What each record is after an issuance. -/
theorem attestations_cases (other : Bytes32) :
    (other = id ∧ t.attestations other = newAttestation issuer issuerNonce p supersedes timestamp) ∨
    (other ≠ id ∧ (supersedes ≠ 0 ∧ other = supersedes) ∧ t.attestations other =
      { s.attestations other with supersededBy := id, supersededAt := timestamp }) ∨
    (other ≠ id ∧ ¬ (supersedes ≠ 0 ∧ other = supersedes) ∧
      t.attestations other = s.attestations other) := by
  subst written
  by_cases isNew : other = id
  · subst isNew
    refine .inl ⟨rfl, ?_⟩
    unfold issue
    dsimp only
    split
    · rw [update_self]
    · rename_i named
      rw [update_of_ne (legal.id_ne_prior named), update_self]
  · refine .inr ?_
    by_cases prior : supersedes ≠ 0 ∧ other = supersedes
    · obtain ⟨named, rfl⟩ := prior
      refine .inl ⟨isNew, ⟨named, rfl⟩, ?_⟩
      simp only [issue, if_neg named, update_self, update_of_ne isNew]
    · refine .inr ⟨isNew, prior, ?_⟩
      unfold issue
      dsimp only
      split
      · rw [update_of_ne isNew]
      · rename_i named
        rw [update_of_ne fun same => prior ⟨named, same⟩, update_of_ne isNew]

theorem attestations_new :
    t.attestations id = newAttestation issuer issuerNonce p supersedes timestamp := by
  obtain ⟨-, new⟩ | ⟨isNew, -⟩ | ⟨isNew, -⟩ := legal.attestations_cases written id
  · exact new
  · exact absurd rfl isNew
  · exact absurd rfl isNew

/-- An issuance keeps the identity of every record but the new one. -/
theorem identity_other (old : other ≠ id) :
    (t.attestations other).identity = (s.attestations other).identity := by
  obtain ⟨isNew, -⟩ | ⟨-, -, prior⟩ | ⟨-, -, same⟩ := legal.attestations_cases written other
  · exact absurd isNew old
  · rw [prior]
    rfl
  · rw [same]

/-- An issuance adds the new identifier to the existing ones. -/
theorem exists_iff (other : Bytes32) : Exists t other ↔ other = id ∨ Exists s other := by
  by_cases isNew : other = id
  · subst isNew
    rw [Exists, legal.attestations_new written]
    exact ⟨fun _ => .inl rfl, fun _ => legal.issuer_ne⟩
  · rw [Exists, eq_of_identity (legal.identity_other written isNew) Attestation.issuer]
    exact ⟨.inr, fun h => h.resolve_left isNew⟩

end Issuable

/-- The frame of every transaction: an existing record keeps its identity. -/
theorem Effect.identity_eq {t : Storage} (effect : Effect sender s t) (present : Exists s id) :
    (t.attestations id).identity = (s.attestations id).identity := by
  cases effect with
  | none => rfl
  | issued timestamp legal =>
    exact legal.identity_other rfl fun h => present (h ▸ legal.fresh)
  | revoked timestamp legal => exact markRevoked_identity s _ _ id sender timestamp

theorem Effect.present {t : Storage} (effect : Effect sender s t) (present : Exists s id) :
    Exists t id := by
  have issuer := eq_of_identity (effect.identity_eq present) Attestation.issuer
  rwa [Exists, issuer]

end Torium.Registry
