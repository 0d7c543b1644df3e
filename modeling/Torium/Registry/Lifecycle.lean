import Torium.Registry.Effects

/-!
# The life of an attestation

Once a record exists its identity never changes. Its status is first missing,
then active, then superseded or revoked, and each change is made by its issuer.
The commitment is a function of the identity, so the moments at which a record
verifies form one period that does not start again.
-/

namespace Torium.Registry

open Evm Transition

/-- The only moves of a status. -/
inductive Moves : Status → Status → Prop where
  | issued : Moves .missing .active
  | superseded : Moves .active .superseded
  | revoked : Moves .active .revoked

section

variable [Keccak] {s t u : Storage} {id : Bytes32}

/-- A status that changes moves forward, in a transaction of the record's issuer. -/
theorem Effect.status_change {sender : Address} (effect : Effect sender s t)
    (changed : statusOf t id ≠ statusOf s id) :
    Moves (statusOf s id) (statusOf t id) ∧ (t.attestations id).issuer = sender := by
  unfold statusOf at changed ⊢
  cases effect with
  | none => exact absurd rfl changed
  | @issued p supersedes new issuerNonce _ timestamp legal =>
    obtain ⟨rfl, record⟩ | ⟨-, ⟨named, rfl⟩, record⟩ | ⟨-, -, record⟩ :=
      legal.attestations_cases rfl id
    · have before : status (s.attestations id) = .missing := status_eq_missing.mpr legal.fresh
      have after : status (newAttestation sender issuerNonce p supersedes timestamp) = .active :=
        status_eq_active.mpr ⟨legal.issuer_ne, rfl, rfl⟩
      rw [record, before, after]
      exact ⟨.issued, rfl⟩
    · obtain ⟨present, unrevoked, _⟩ := status_eq_active.mp (legal.prior_active named)
      have after : status { s.attestations id with
          supersededBy := new, supersededAt := timestamp } = .superseded :=
        status_eq_superseded.mpr ⟨present, unrevoked, legal.id_ne⟩
      rw [record, legal.prior_active named, after]
      exact ⟨.superseded, legal.prior_issuer named⟩
    · rw [record] at changed
      exact absurd rfl changed
  | @revoked revokedId reason timestamp legal =>
    by_cases self : id = revokedId
    · subst self
      have after : status { s.attestations id with
          revokedAt := timestamp, revocationReasonHash := reason } = .revoked :=
        status_eq_revoked.mpr ⟨(status_eq_active.mp legal.active).1, legal.reason_ne⟩
      rw [markRevoked_attestations_self, legal.active, after]
      exact ⟨.revoked, legal.owned⟩
    · rw [markRevoked_attestations_other self] at changed
      exact absurd rfl changed

omit [Keccak] in
/-- A superseded or revoked status has no further move. -/
theorem Moves.not_of_terminal {a b : Status} (terminal : a = .superseded ∨ a = .revoked) :
    ¬Moves a b := by
  rintro (_ | _ | _) <;> simp at terminal

variable {ls ls' : List Call}

theorem run_identity_eq (run : Run step Free ls s t) (present : Exists s id) :
    Exists t id ∧ (t.attestations id).identity = (s.attestations id).identity := by
  refine run.invariant (I := fun t => Exists t id ∧
    (t.attestations id).identity = (s.attestations id).identity) ⟨present, rfl⟩ ?_
  rintro m call n ⟨present, same⟩ _ taken
  have effect := (step_effect taken).2
  exact ⟨effect.present present, (effect.identity_eq present).trans same⟩

theorem run_terminal (run : Run step Free ls s t)
    (terminal : statusOf s id = .superseded ∨ statusOf s id = .revoked) :
    statusOf t id = statusOf s id := by
  refine run.invariant (I := fun t => statusOf t id = statusOf s id) rfl ?_
  intro m call n same _ taken
  by_contra changed
  have differs : statusOf n id ≠ statusOf m id := same ▸ changed
  have moved := ((step_effect taken).2.status_change differs).1
  exact Moves.not_of_terminal terminal (same ▸ moved)

theorem verify_eq_true {issuer : Address} {expected : Bytes32} :
    verify s id issuer expected = true ↔
      statusOf s id = .active ∧ (s.attestations id).issuer = issuer ∧
        commitment (s.attestations id) = expected := by
  simp [verify, statusOf, and_assoc]

/-- A record that has stopped verifying is superseded or revoked. -/
theorem terminal_of_verify_stopped (run : Run step Free ls s t) {issuer : Address}
    {expected : Bytes32} (before : verify s id issuer expected = true)
    (after : verify t id issuer expected = false) :
    statusOf t id = .superseded ∨ statusOf t id = .revoked := by
  obtain ⟨active, own, matching⟩ := verify_eq_true.mp before
  have present : Exists s id := (status_eq_active.mp active).1
  obtain ⟨present', same⟩ := run_identity_eq run present
  have inactive : statusOf t id ≠ .active := by
    intro active'
    have verified :=
      verify_eq_true.mpr ⟨active', (eq_of_identity same Attestation.issuer).trans own,
      (eq_of_identity same commitment).trans matching⟩
    rw [after] at verified
    exact Bool.false_ne_true verified
  have known : statusOf t id ≠ .missing := fun missing => present' (status_eq_missing.mp missing)
  cases h : statusOf t id <;> simp_all

end

/-- An existing record keeps its identity and commitment; a status only moves
forward, in a call of the record's issuer, and rests once superseded or revoked;
and a record that has stopped verifying never verifies again. -/
theorem attestation_lifecycle [Keccak] {s t u : Storage} {ls ls' : List Call}
    (first : Run step Free ls s t) (second : Run step Free ls' t u) :
    (∀ id, Exists s id → Exists t id ∧
      (t.attestations id).identity = (s.attestations id).identity ∧
      commitmentOf t id = commitmentOf s id) ∧
    (∀ call next, step t call = some next → ∀ id, statusOf next id ≠ statusOf t id →
      Moves (statusOf t id) (statusOf next id) ∧
        call.env.sender = (next.attestations id).issuer) ∧
    (∀ id, statusOf s id = .superseded ∨ statusOf s id = .revoked →
      statusOf t id = statusOf s id) ∧
    (∀ id issuer expected, verify s id issuer expected = true →
      verify t id issuer expected = false → verify u id issuer expected = false) := by
  refine ⟨?_, ?_, ?_, ?_⟩
  · intro id present
    obtain ⟨present', same⟩ := run_identity_eq first present
    refine ⟨present', same, ?_⟩
    have hs : commitmentOf s id = .ok (commitment (s.attestations id)) :=
      bind_eq_ok.mpr ⟨_, requireAttestation_eq_ok.mpr ⟨present, rfl⟩, rfl⟩
    have ht : commitmentOf t id = .ok (commitment (t.attestations id)) :=
      bind_eq_ok.mpr ⟨_, requireAttestation_eq_ok.mpr ⟨present', rfl⟩, rfl⟩
    rw [hs, ht, eq_of_identity same commitment]
  · intro call next taken id changed
    obtain ⟨moved, issuer⟩ := (step_effect taken).2.status_change changed
    exact ⟨moved, issuer.symm⟩
  · exact fun id => run_terminal first
  · intro id issuer expected before after
    have terminal := terminal_of_verify_stopped first before after
    have rests := run_terminal second terminal
    by_contra again
    have active := (verify_eq_true.mp (Bool.eq_true_of_not_eq_false again)).1
    rw [rests] at active
    rcases terminal with h | h <;> simp [h] at active

theorem attestation_lifecycle_superseding :
    ∃ s t : Storage, Run (@step Keccak.rolling) Free (supersedingCalls.take 1) {} s ∧
      Run (@step Keccak.rolling) Free (supersedingCalls.drop 1) s t ∧
      t.attestationCount = 2 ∧
      ∀ id, Exists s id → (t.attestations id).identity = (s.attestations id).identity := by
  obtain ⟨s, first, one⟩ := run_of_execute_any
    (show (execute (@step Keccak.rolling) (supersedingCalls.take 1) {}).any
      (fun s => (execute (@step Keccak.rolling) (supersedingCalls.drop 1) s).any
        (fun t => t.attestationCount = 2)) by decide +kernel)
  obtain ⟨t, second, two⟩ := run_of_execute_any one
  exact ⟨s, t, first, second, of_decide_eq_true two, fun id present =>
    ((@attestation_lifecycle Keccak.rolling s t t _ _ second (.refl t)).1 id
      present).2.1⟩

end Torium.Registry
