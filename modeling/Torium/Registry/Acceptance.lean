import Mathlib.Algebra.Order.BigOperators.Group.Finset
import Torium.Registry.Counting
import Torium.Registry.Supersession

/-!
# When an attestation is accepted

`attest` has more ways to fail than its rules on payloads and supersession: two counters are
incremented with checks. In a reachable storage the counters cannot overflow as long as there is
an identifier left for the new record, because the records are counted.
-/

namespace Torium.Registry

open Evm Transition

section

variable [Keccak] (env : Env) (p : Payload) (supersedes : Bytes32) (s : Storage)

/-- The identifier that the next attestation of the sender gets. -/
def nextId : Bytes32 :=
  computeAttestationId env env.sender (s.issuerNonces env.sender + 1)
    (computeCommitment p supersedes)

/-- The next identifier is not zero and not taken. -/
def FreshId : Prop := nextId env p supersedes s ≠ 0 ∧
  (s.attestations (nextId env p supersedes s)).issuer = 0

instance : Decidable (FreshId env p supersedes s) := inferInstanceAs (Decidable (_ ∧ _))

end

/-- The rules for the record that is superseded, if one is named. -/
def Supersedable (s : Storage) (issuer : Address) (p : Payload) (supersedes : Bytes32) : Prop :=
  supersedes = 0 ∨ status (s.attestations supersedes) = .active ∧
    (s.attestations supersedes).issuer = issuer ∧
    (s.attestations supersedes).schemaId = p.schemaId ∧
    (s.attestations supersedes).subject = p.subject

instance (s : Storage) (issuer : Address) (p : Payload) (supersedes : Bytes32) :
    Decidable (Supersedable s issuer p supersedes) := inferInstanceAs (Decidable (_ ∨ _))

theorem checkPrior_iff {s : Storage} {issuer : Address} {p : Payload} {supersedes : Bytes32}
    {u : Unit} :
    checkPrior s issuer p supersedes = .ok u ↔ Supersedable s issuer p supersedes := by
  constructor
  · intro checked
    by_cases named : supersedes = 0
    · exact .inl named
    · exact .inr (checkPrior_ok checked named)
  · rintro (unnamed | ⟨active, issuer, schema, subject⟩)
    · rw [checkPrior, if_pos unnamed]
      rfl
    · by_cases named : supersedes = 0
      · rw [checkPrior, if_pos named]
        rfl
      · rw [checkPrior, if_neg named]
        simp only [bind_eq_ok, requireAttestation_eq_ok, revertIf_eq_ok, not_not]
        exact ⟨_, ⟨(status_eq_active.mp active).1, rfl⟩, (), active, (), issuer, (), schema,
          subject⟩

section Counters

variable [Keccak] {s : Storage}

/-- Two identifiers without a record leave room for one more. -/
theorem count_lt (counted : Counted s) {id : Bytes32} (id_ne : id ≠ 0)
    (zero : (s.attestations 0).issuer = 0) (fresh : (s.attestations id).issuer = 0) :
    s.attestationCount.toNat + 1 < 2 ^ 256 := by
  have apart : Finset.univ.filter (Exists s) ⊆ (Finset.univ.erase 0).erase id := by
    intro other member
    have present : Exists s other := (Finset.mem_filter.mp member).2
    simp only [Finset.mem_erase, Finset.mem_univ, and_true]
    exact ⟨fun same => present (same ▸ fresh), fun same => present (same ▸ zero)⟩
  have bound := Finset.card_le_card apart
  have total : Fintype.card Bytes32 = 2 ^ 256 :=
    (Fintype.card_congr ⟨BitVec.toFin, BitVec.ofFin, fun _ => rfl, fun _ => rfl⟩).trans
      (Fintype.card_fin _)
  rw [Finset.card_erase_of_mem (Finset.mem_erase.mpr ⟨id_ne, Finset.mem_univ _⟩),
    Finset.card_erase_of_mem (Finset.mem_univ _), Finset.card_univ, total,
    ← counted.count_records] at bound
  omega

theorem nonce_le_count (counted : Counted s) (issuer : Address) :
    (s.issuerNonces issuer).toNat ≤ s.attestationCount.toNat := by
  rw [counted.count_nonces]
  exact Finset.single_le_sum (f := fun issuer => (s.issuerNonces issuer).toNat)
    (fun _ _ => Nat.zero_le _) (Finset.mem_univ issuer)

omit [Keccak] in
theorem increment {w : Word} (room : w.toNat + 1 < 2 ^ 256) : checkedAdd w 1 = some (w + 1) :=
  if_pos room

end Counters

variable [Keccak] {env : Env} {p : Payload} {supersedes : Bytes32} {s : Storage}

/-- What a successful `attest` returns: the next identifier, and the storage with its record. -/
def accepted (env : Env) (p : Payload) (supersedes : Bytes32) (s : Storage) :
    Bytes32 × Storage :=
  (nextId env p supersedes s,
    issue s env.sender p supersedes (nextId env p supersedes s) (s.issuerNonces env.sender + 1)
      (s.attestationCount + 1) (env.timestamp.setWidth 64))

/-- With a valid payload, a fresh identifier and a time that fits, `attest` succeeds exactly if
the payload is new and the supersession rules hold. -/
theorem attest_eq_ok_iff (reached : Reachable step Initial s)
    (valid : validatePayload p = .ok ()) (fits : env.timestamp.toNat < 2 ^ 64)
    (fresh : FreshId env p supersedes s) {issued : Bytes32 × Storage} :
    attest env p supersedes s = .ok issued ↔
      s.usedPayloads (computeReplayKey env.sender p) = false ∧
      Supersedable s env.sender p supersedes ∧ issued = accepted env p supersedes s := by
  have counted := Counted.of_reachable reached
  have room := count_lt counted fresh.1 (Linked.of_reachable reached).zero_missing fresh.2
  have nonce := increment
    ((Nat.add_le_add_right (nonce_le_count counted env.sender) 1).trans_lt room)
  have time : timestamp env = .ok (env.timestamp.setWidth 64) := by
    rw [timestamp, revertIf, if_neg (by omega)]
    rfl
  have id : ¬ (nextId env p supersedes s = 0 ∨
      (s.attestations (nextId env p supersedes s)).issuer ≠ 0) :=
    not_or.mpr ⟨fresh.1, not_not.mpr fresh.2⟩
  rw [nextId] at id
  simp only [attest, bind_eq_ok, valid, revertIf_eq_ok, orRevert_eq_ok, nonce, increment room,
    time, pure_eq_ok, checkPrior_iff, Option.some_inj, Except.ok.injEq, exists_eq_left',
    exists_const, true_and]
  constructor
  · rintro ⟨unused, rules, -, rfl⟩
    exact ⟨by simpa using unused, rules, rfl⟩
  · rintro ⟨unused, rules, rfl⟩
    exact ⟨by simpa using unused, rules, id, rfl⟩

/-- The record that a successful `attest` stores under the next identifier. -/
theorem accepted_record (fresh : FreshId env p supersedes s)
    (rules : Supersedable s env.sender p supersedes) :
    (accepted env p supersedes s).2.attestations (nextId env p supersedes s) =
      newAttestation env.sender (s.issuerNonces env.sender + 1) p supersedes
        (env.timestamp.setWidth 64) := by
  unfold accepted issue
  dsimp only
  split_ifs with unnamed
  · rw [Function.update_self]
  · have prior := (status_eq_active.mp (rules.resolve_left unnamed).1).1
    have apart : nextId env p supersedes s ≠ supersedes := fun same =>
      prior (same ▸ fresh.2)
    rw [Function.update_of_ne apart, Function.update_self]

end Torium.Registry
