import Torium.Registry.Effects
import Mathlib.Algebra.BigOperators.Group.Finset.Basic
import Mathlib.Algebra.BigOperators.Group.Finset.Piecewise
import Mathlib.Data.Fintype.Card

/-!
# Counting and replay protection

The registry keeps one global count, one nonce per issuer and a set of used
payloads. `Counted` ties the three to the records themselves. No part is
inductive alone: a nonce is new because it exceeds every nonce of its issuer,
and a payload is new because the key of every existing record is marked.
-/

namespace Torium.Registry

open Evm Transition Function

section

variable [Keccak] {s t : Storage}

/-- The counters and the used payloads describe exactly the existing records. -/
structure Counted (s : Storage) : Prop where
  count_records : s.attestationCount.toNat = (Finset.univ.filter (Exists s)).card
  count_nonces : s.attestationCount.toNat = ∑ issuer, (s.issuerNonces issuer).toNat
  nonce_range : ∀ id, Exists s id → 1 ≤ (s.attestations id).issuerNonce.toNat ∧
    (s.attestations id).issuerNonce.toNat ≤ (s.issuerNonces (s.attestations id).issuer).toNat
  nonce_present : ∀ issuer n, 1 ≤ n → n ≤ (s.issuerNonces issuer).toNat →
    ∃ id, Exists s id ∧ (s.attestations id).issuer = issuer ∧
      (s.attestations id).issuerNonce.toNat = n
  nonce_unique : ∀ a b, Exists s a → Exists s b →
    (s.attestations a).issuer = (s.attestations b).issuer →
    (s.attestations a).issuerNonce = (s.attestations b).issuerNonce → a = b
  payload_used : ∀ id, Exists s id →
    s.usedPayloads (computeReplayKey (s.attestations id).issuer (s.attestations id).payload)
  payload_unique : ∀ a b, Exists s a → Exists s b →
    (s.attestations a).issuer = (s.attestations b).issuer →
    (s.attestations a).payload = (s.attestations b).payload → a = b

namespace Counted

theorem initial : Counted ({} : Storage) where
  count_records := by
    rw [Finset.filter_false_of_mem fun id _ present => present rfl]
    rfl
  count_nonces := by simp
  nonce_range _ present := absurd rfl present
  nonce_present _ n pos le := by simp at le; omega
  nonce_unique _ _ present := absurd rfl present
  payload_used _ present := absurd rfl present
  payload_unique _ _ present := absurd rfl present

section Issue

variable {issuer : Address} {p : Payload} {supersedes new : Bytes32}
variable {issuerNonce attestationCount : Word} {timestamp : Uint64}
variable (legal : Issuable s issuer p supersedes new issuerNonce attestationCount)
variable (written : t = issue s issuer p supersedes new issuerNonce attestationCount timestamp)

include legal written

/-- What the new and the old records look like after an issuance. -/
theorem issued_record {id : Bytes32} (present : Exists t id) :
    (id = new ∧ (t.attestations id).issuer = issuer ∧
      (t.attestations id).issuerNonce = issuerNonce ∧ (t.attestations id).payload = p) ∨
    (id ≠ new ∧ Exists s id ∧ (t.attestations id).issuer = (s.attestations id).issuer ∧
      (t.attestations id).issuerNonce = (s.attestations id).issuerNonce ∧
      (t.attestations id).payload = (s.attestations id).payload) := by
  by_cases isNew : id = new
  · subst isNew
    refine .inl ⟨rfl, ?_⟩
    rw [legal.attestations_new written]
    exact ⟨rfl, rfl, rfl⟩
  · have same := legal.identity_other written isNew
    have old := ((legal.exists_iff written id).mp present).resolve_left isNew
    exact .inr ⟨isNew, old, eq_of_identity same Attestation.issuer,
      eq_of_identity same Attestation.issuerNonce, eq_of_identity same Attestation.payload⟩

/-- A field that tells the old records of an issuer apart tells all of them apart, if its value
in the new record is new for the issuer. -/
theorem issued_unique {α : Type} (read : Attestation → α)
    (kept : ∀ record : Attestation, read record.identity = read record)
    (unique : ∀ a b, Exists s a → Exists s b →
      (s.attestations a).issuer = (s.attestations b).issuer →
      read (s.attestations a) = read (s.attestations b) → a = b)
    (fresh : ∀ id, Exists s id → (s.attestations id).issuer = issuer →
      read (s.attestations id) ≠ read (t.attestations new))
    (a b : Bytes32) (ha : Exists t a) (hb : Exists t b)
    (sameIssuer : (t.attestations a).issuer = (t.attestations b).issuer)
    (same : read (t.attestations a) = read (t.attestations b)) : a = b := by
  have old {id : Bytes32} (isNew : id ≠ new) :
      read (t.attestations id) = read (s.attestations id) :=
    eq_of_identity (legal.identity_other written isNew) read kept
  obtain ⟨rfl, ia, _⟩ | ⟨na, oa, ia, _⟩ := issued_record legal written ha <;>
    obtain ⟨rfl, ib, _⟩ | ⟨nb, ob, ib, _⟩ := issued_record legal written hb
  · rfl
  · rw [old nb] at same
    exact absurd same.symm (fresh b ob (ib.symm.trans (sameIssuer.symm.trans ia)))
  · rw [old na] at same
    exact absurd same (fresh a oa (ia.symm.trans (sameIssuer.trans ib)))
  · rw [old na, old nb] at same
    exact unique a b oa ob (ia.symm.trans (sameIssuer.trans ib)) same

variable (counted : Counted s)

include counted

theorem issued_count_records : attestationCount.toNat = (Finset.univ.filter (Exists t)).card := by
  have records : Finset.univ.filter (Exists t) = insert new (Finset.univ.filter (Exists s)) := by
    ext id
    simp [legal.exists_iff written]
  have absent : new ∉ Finset.univ.filter (Exists s) := by
    simp [Exists, legal.fresh]
  rw [records, Finset.card_insert_of_notMem absent, ← counted.count_records, legal.count]

theorem issued_count_nonces : attestationCount.toNat = ∑ other, (t.issuerNonces other).toNat := by
  rw [written, issue_issuerNonces]
  have before := Finset.add_sum_erase Finset.univ (fun other => (s.issuerNonces other).toNat)
    (Finset.mem_univ issuer)
  rw [← Finset.add_sum_erase Finset.univ _ (Finset.mem_univ issuer), update_self]
  have others : ∑ other ∈ Finset.univ.erase issuer,
      (update s.issuerNonces issuer issuerNonce other).toNat =
      ∑ other ∈ Finset.univ.erase issuer, (s.issuerNonces other).toNat := by
    refine Finset.sum_congr rfl fun other member => ?_
    rw [update_of_ne (Finset.ne_of_mem_erase member)]
  have total := counted.count_nonces
  have nonce := legal.nonce
  have count := legal.count
  rw [others]
  omega

theorem issued_nonce_range (id : Bytes32) (present : Exists t id) :
    1 ≤ (t.attestations id).issuerNonce.toNat ∧ (t.attestations id).issuerNonce.toNat ≤
      (t.issuerNonces (t.attestations id).issuer).toNat := by
  have nonce := legal.nonce
  obtain ⟨_, ownIssuer, ownNonce, _⟩ | ⟨_, old, sameIssuer, sameNonce, _⟩ :=
    issued_record legal written present
  · rw [ownIssuer, ownNonce, written, issue_issuerNonces, update_self]
    omega
  · have range := counted.nonce_range id old
    rw [sameIssuer, sameNonce, written, issue_issuerNonces]
    by_cases own : (s.attestations id).issuer = issuer
    · rw [own] at range ⊢
      rw [update_self]
      omega
    · rw [update_of_ne own]
      exact range

theorem issued_nonce_present (other : Address) (n : Nat) (pos : 1 ≤ n)
    (le : n ≤ (t.issuerNonces other).toNat) :
    ∃ id, Exists t id ∧ (t.attestations id).issuer = other ∧
      (t.attestations id).issuerNonce.toNat = n := by
  rw [written, issue_issuerNonces] at le
  have nonce := legal.nonce
  by_cases last : other = issuer ∧ n = issuerNonce.toNat
  · obtain ⟨rfl, rfl⟩ := last
    refine ⟨new, (legal.exists_iff written new).mpr (.inl rfl), ?_⟩
    rw [legal.attestations_new written]
    exact ⟨rfl, rfl⟩
  · -- Any other nonce in range was in range before, so an old record carries it.
    have before : n ≤ (s.issuerNonces other).toNat := by
      by_cases own : other = issuer
      · subst own
        have earlier : n ≠ issuerNonce.toNat := fun h => last ⟨rfl, h⟩
        rw [update_self] at le
        omega
      · rwa [update_of_ne own] at le
    obtain ⟨id, old, ownIssuer, ownNonce⟩ := counted.nonce_present other n pos before
    have isNew : id ≠ new := fun h => old (h ▸ legal.fresh)
    have same := legal.identity_other written isNew
    have sameIssuer := eq_of_identity same Attestation.issuer
    have sameNonce := eq_of_identity same Attestation.issuerNonce
    exact ⟨id, (legal.exists_iff written id).mpr (.inr old), sameIssuer.trans ownIssuer,
      by rw [sameNonce, ownNonce]⟩

/-- The new nonce exceeds every nonce its issuer used before. -/
theorem issued_nonce_fresh (id : Bytes32) (present : Exists s id)
    (own : (s.attestations id).issuer = issuer) :
    (s.attestations id).issuerNonce ≠ (t.attestations new).issuerNonce := by
  rw [legal.attestations_new written]
  intro equal
  have nonce := legal.nonce
  have range := (counted.nonce_range id present).2
  rw [own, equal] at range
  change issuerNonce.toNat ≤ _ at range
  omega

theorem issued_payload_used (id : Bytes32) (present : Exists t id) :
    t.usedPayloads (computeReplayKey (t.attestations id).issuer (t.attestations id).payload) := by
  obtain ⟨_, ownIssuer, _, ownPayload⟩ | ⟨_, old, sameIssuer, _, samePayload⟩ :=
    issued_record legal written present
  · rw [ownIssuer, ownPayload, written, issue_usedPayloads, update_self]
  · rw [sameIssuer, samePayload, written, issue_usedPayloads, update_apply]
    split
    · rfl
    · exact counted.payload_used id old

/-- An old record with the new payload would have marked the replay key. -/
theorem issued_payload_fresh (id : Bytes32) (present : Exists s id)
    (own : (s.attestations id).issuer = issuer) :
    (s.attestations id).payload ≠ (t.attestations new).payload := by
  rw [legal.attestations_new written]
  intro equal
  have used := counted.payload_used id present
  rw [own, equal] at used
  exact Bool.false_ne_true (legal.unused.symm.trans used)

theorem issued : Counted t where
  count_records := (congrArg (·.attestationCount.toNat) written).trans
    (counted.issued_count_records legal written)
  count_nonces := (congrArg (·.attestationCount.toNat) written).trans
    (counted.issued_count_nonces legal written)
  nonce_range := counted.issued_nonce_range legal written
  nonce_present := counted.issued_nonce_present legal written
  nonce_unique := issued_unique legal written Attestation.issuerNonce (fun _ => rfl)
    counted.nonce_unique (counted.issued_nonce_fresh legal written)
  payload_used := counted.issued_payload_used legal written
  payload_unique := issued_unique legal written Attestation.payload (fun _ => rfl)
    counted.payload_unique (counted.issued_payload_fresh legal written)

end Issue

/-- Whatever keeps the counters, the used payloads and every identity keeps the counting. -/
theorem congr (counted : Counted s) (count : t.attestationCount = s.attestationCount)
    (nonces : t.issuerNonces = s.issuerNonces) (used : t.usedPayloads = s.usedPayloads)
    (same : ∀ id, (t.attestations id).identity = (s.attestations id).identity) : Counted t := by
  have issuer := fun id => eq_of_identity (same id) Attestation.issuer
  have nonce := fun id => eq_of_identity (same id) Attestation.issuerNonce
  have payload := fun id => eq_of_identity (same id) Attestation.payload
  have present : Exists t = Exists s := by
    funext id
    rw [Exists, issuer, Exists]
  constructor
  · simp only [count, present]
    convert counted.count_records
  · rw [count, nonces]
    exact counted.count_nonces
  · simpa only [present, issuer, nonce, nonces] using counted.nonce_range
  · simpa only [present, issuer, nonce, nonces] using counted.nonce_present
  · simpa only [present, issuer, nonce] using counted.nonce_unique
  · simpa only [present, issuer, payload, used] using counted.payload_used
  · simpa only [present, issuer, payload] using counted.payload_unique

theorem effect (counted : Counted s) {sender : Address} (effect : Effect sender s t) :
    Counted t := by
  cases effect with
  | none => exact counted
  | issued timestamp legal => exact counted.issued legal rfl
  | revoked timestamp legal =>
    exact counted.congr rfl rfl rfl fun id => markRevoked_identity s _ _ id sender timestamp

theorem of_reachable (reached : Reachable step Initial s) : Counted s :=
  reached.invariant (fun initial => initial ▸ Counted.initial)
    fun counted taken => counted.effect (step_effect taken).2

end Counted

end

/-- In every reachable storage the count is the number of records and the sum of
the nonces, each issuer's records carry its nonces exactly once, and no issuer
has two records with one payload. -/
theorem counting_and_replay [Keccak] {s : Storage} (reached : Reachable step Initial s) :
    s.attestationCount.toNat = (Finset.univ.filter (Exists s)).card ∧
    s.attestationCount.toNat = ∑ issuer, (s.issuerNonces issuer).toNat ∧
    (∀ id, Exists s id → 1 ≤ (s.attestations id).issuerNonce.toNat ∧
      (s.attestations id).issuerNonce.toNat ≤
        (s.issuerNonces (s.attestations id).issuer).toNat) ∧
    (∀ issuer n, 1 ≤ n → n ≤ (s.issuerNonces issuer).toNat →
      ∃! id, Exists s id ∧ (s.attestations id).issuer = issuer ∧
        (s.attestations id).issuerNonce.toNat = n) ∧
    (∀ a b, Exists s a → Exists s b →
      (s.attestations a).issuer = (s.attestations b).issuer →
      (s.attestations a).payload = (s.attestations b).payload → a = b) := by
  have counted := Counted.of_reachable reached
  refine ⟨counted.count_records, counted.count_nonces, counted.nonce_range, ?_,
    counted.payload_unique⟩
  intro issuer n pos le
  obtain ⟨id, present, own, nonce⟩ := counted.nonce_present issuer n pos le
  refine ⟨id, ⟨present, own, nonce⟩, ?_⟩
  rintro other ⟨present', own', nonce'⟩
  exact counted.nonce_unique other id present' present (own'.trans own.symm)
    (BitVec.toNat_inj.mp (nonce'.trans nonce.symm))

theorem counting_and_replay_superseding :
    ∃ s, Run (@step Keccak.rolling) Free supersedingCalls {} s ∧ s.issuerNonces 5 = 2 ∧
      ∃! id, Exists s id ∧ (s.attestations id).issuer = 5 ∧
        (s.attestations id).issuerNonce.toNat = 2 := by
  obtain ⟨s, run, evaluated⟩ := run_of_execute_any
    (show (execute (@step Keccak.rolling) supersedingCalls {}).any
      (fun s => s.issuerNonces 5 = 2) by decide +kernel)
  have nonces : s.issuerNonces 5 = 2 := of_decide_eq_true evaluated
  refine ⟨s, run, nonces, ?_⟩
  exact (@counting_and_replay Keccak.rolling s ⟨_, _, rfl, run⟩).2.2.2.1 5 2 (by decide)
    (by rw [nonces]; decide)

end Torium.Registry
