import Torium.Lib.Chain
import Torium.Registry.Effects

/-!
# Supersession chains

The pointers `supersededBy` and `supersedes` are mutually inverse on non-zero
identifiers, and they only connect records of one issuer, schema and subject
whose nonces grow. Each record therefore lies on one chain. Walking it forward
ends because nonces are bounded by the issuer's counter, and the record at its
end is the only one on the walk that is not superseded.
-/

namespace Torium.Registry

open Evm Transition

/-- What a supersession link connects. -/
structure Linkable (prior next : Attestation) : Prop where
  issuer : prior.issuer = next.issuer
  schema : prior.schemaId = next.schemaId
  subject : prior.subject = next.subject
  nonce : prior.issuerNonce.toNat < next.issuerNonce.toNat

theorem Linkable.congr {a a' b b' : Attestation} (h : Linkable a b)
    (ha : a.identity = a'.identity) (hb : b.identity = b'.identity) : Linkable a' b' := by
  constructor
  case issuer =>
    rw [← eq_of_identity ha Attestation.issuer, ← eq_of_identity hb Attestation.issuer]
    exact h.issuer
  case schema =>
    rw [← eq_of_identity ha Attestation.schemaId, ← eq_of_identity hb Attestation.schemaId]
    exact h.schema
  case subject =>
    rw [← eq_of_identity ha Attestation.subject, ← eq_of_identity hb Attestation.subject]
    exact h.subject
  case nonce =>
    rw [← eq_of_identity ha Attestation.issuerNonce, ← eq_of_identity hb Attestation.issuerNonce]
    exact h.nonce

/-- The links between records and the facts that keep them consistent. -/
structure Linked (s : Storage) : Prop where
  zero_missing : (s.attestations 0).issuer = 0
  missing_blank : ∀ id, (s.attestations id).issuer = 0 → s.attestations id = {}
  forward : ∀ id, (s.attestations id).supersededBy ≠ 0 →
    (s.attestations (s.attestations id).supersededBy).supersedes = id
  backward : ∀ id, (s.attestations id).supersedes ≠ 0 →
    (s.attestations (s.attestations id).supersedes).supersededBy = id
  linkable : ∀ id, (s.attestations id).supersededBy ≠ 0 →
    Linkable (s.attestations id) (s.attestations (s.attestations id).supersededBy)
  exclusive : ∀ id, (s.attestations id).supersededBy ≠ 0 →
    (s.attestations id).revocationReasonHash = 0
  nonce_le : ∀ id,
    (s.attestations id).issuerNonce.toNat ≤ (s.issuerNonces (s.attestations id).issuer).toNat

variable {id : Bytes32}

namespace Linked

variable {s t : Storage}

/-- Only an existing record points anywhere. -/
theorem exists_of_supersededBy (linked : Linked s) (points : (s.attestations id).supersededBy ≠ 0) :
    Exists s id := by
  intro missing
  rw [linked.missing_blank id missing] at points
  exact points rfl

theorem exists_of_supersedes (linked : Linked s) (points : (s.attestations id).supersedes ≠ 0) :
    Exists s id := by
  intro missing
  rw [linked.missing_blank id missing] at points
  exact points rfl

theorem exists_successor (linked : Linked s) (points : (s.attestations id).supersededBy ≠ 0) :
    Exists s (s.attestations id).supersededBy := by
  rw [Exists, ← (linked.linkable id points).issuer]
  exact linked.exists_of_supersededBy points

theorem ne_zero (linked : Linked s) (present : Exists s id) : id ≠ 0 :=
  fun zero => present (zero ▸ linked.zero_missing)

theorem initial : Linked ({} : Storage) where
  zero_missing := rfl
  missing_blank _ _ := rfl
  forward _ points := absurd rfl points
  backward _ points := absurd rfl points
  linkable _ points := absurd rfl points
  exclusive _ points := absurd rfl points
  nonce_le _ := Nat.le_refl _

variable [Keccak]

section Issue

variable {issuer : Address} {p : Payload} {supersedes new : Bytes32}
variable {issuerNonce attestationCount : Word} {timestamp : Uint64}
variable (legal : Issuable s issuer p supersedes new issuerNonce attestationCount)
variable (written : t = issue s issuer p supersedes new issuerNonce attestationCount timestamp)

include legal written

/-- An issuance sets the backward pointer of the new record only. -/
theorem issued_supersedes (id : Bytes32) : (t.attestations id).supersedes =
    if id = new then supersedes else (s.attestations id).supersedes := by
  obtain ⟨isNew, record⟩ | ⟨isNew, -, record⟩ | ⟨isNew, -, record⟩ :=
    legal.attestations_cases written id
  · rw [record, if_pos isNew]
    rfl
  · rw [record, if_neg isNew]
  · rw [record, if_neg isNew]

variable (linked : Linked s)

include linked

/-- It sets the forward pointer of the superseded record only. -/
theorem issued_supersededBy (id : Bytes32) : (t.attestations id).supersededBy =
    if supersedes ≠ 0 ∧ id = supersedes then new else (s.attestations id).supersededBy := by
  obtain ⟨rfl, record⟩ | ⟨-, prior, record⟩ | ⟨-, other, record⟩ :=
    legal.attestations_cases written id
  · rw [record, linked.missing_blank id legal.fresh, if_neg fun h => legal.id_ne_prior h.1 h.2]
    rfl
  · rw [record, if_pos prior]
  · rw [record, if_neg other]

theorem issued_missing_blank (id : Bytes32) (missing : (t.attestations id).issuer = 0) :
    t.attestations id = {} := by
  obtain ⟨-, record⟩ | ⟨-, ⟨named, rfl⟩, record⟩ | ⟨-, -, record⟩ :=
    legal.attestations_cases written id <;> rw [record] at missing
  · exact absurd missing legal.issuer_ne
  · exact absurd missing (status_eq_active.mp (legal.prior_active named)).1
  · rw [record]
    exact linked.missing_blank id missing

theorem issued_forward (id : Bytes32) (points : (t.attestations id).supersededBy ≠ 0) :
    (t.attestations (t.attestations id).supersededBy).supersedes = id := by
  rw [linked.issued_supersededBy legal written] at points ⊢
  rw [issued_supersedes legal written]
  by_cases prior : supersedes ≠ 0 ∧ id = supersedes
  · rw [if_pos prior, if_pos rfl]
    exact prior.2.symm
  · rw [if_neg prior] at points ⊢
    have old : (s.attestations id).supersededBy ≠ new :=
      fun h => linked.exists_successor points (h ▸ legal.fresh)
    rw [if_neg old]
    exact linked.forward id points

theorem issued_backward (id : Bytes32) (points : (t.attestations id).supersedes ≠ 0) :
    (t.attestations (t.attestations id).supersedes).supersededBy = id := by
  rw [issued_supersedes legal written] at points ⊢
  rw [linked.issued_supersededBy legal written]
  by_cases isNew : id = new
  · rw [if_pos isNew] at points ⊢
    rw [if_pos ⟨points, rfl⟩]
    exact isNew.symm
  · rw [if_neg isNew] at points ⊢
    have back := linked.backward id points
    -- The superseded record was active, so nothing pointed back at it before.
    have distinct : ¬(supersedes ≠ 0 ∧ (s.attestations id).supersedes = supersedes) := by
      rintro ⟨named, same⟩
      have active := status_eq_active.mp (legal.prior_active named)
      rw [same, active.2.2] at back
      exact linked.ne_zero (linked.exists_of_supersedes points) back.symm
    rw [if_neg distinct]
    exact back

theorem issued_linkable (id : Bytes32) (points : (t.attestations id).supersededBy ≠ 0) :
    Linkable (t.attestations id) (t.attestations (t.attestations id).supersededBy) := by
  obtain ⟨rfl, record⟩ | ⟨-, prior, record⟩ | ⟨-, other, record⟩ :=
    legal.attestations_cases written id
  · rw [record] at points
    exact absurd rfl points
  · have named := prior.1
    rw [linked.issued_supersededBy legal written, if_pos prior, legal.attestations_new written,
      record, prior.2]
    refine ⟨legal.prior_issuer named, legal.prior_schema named, legal.prior_subject named, ?_⟩
    have bound := linked.nonce_le supersedes
    have nonce := legal.nonce
    rw [legal.prior_issuer named] at bound
    change (s.attestations supersedes).issuerNonce.toNat < issuerNonce.toNat
    omega
  · have effect : Effect issuer s t := written ▸ .issued timestamp legal
    rw [record] at points ⊢
    exact (linked.linkable id points).congr rfl
      (effect.identity_eq (linked.exists_successor points)).symm

theorem issued_exclusive (id : Bytes32) (points : (t.attestations id).supersededBy ≠ 0) :
    (t.attestations id).revocationReasonHash = 0 := by
  obtain ⟨-, record⟩ | ⟨-, ⟨named, rfl⟩, record⟩ | ⟨-, -, record⟩ :=
    legal.attestations_cases written id
  · rw [record]
    rfl
  · rw [record]
    exact (status_eq_active.mp (legal.prior_active named)).2.1
  · rw [record] at points ⊢
    exact linked.exclusive id points

theorem issued_nonce_le (id : Bytes32) : (t.attestations id).issuerNonce.toNat ≤
    (t.issuerNonces (t.attestations id).issuer).toNat := by
  by_cases isNew : id = new
  · rw [isNew, legal.attestations_new written, written]
    simp [newAttestation]
  · have same := legal.identity_other written isNew
    have bound := linked.nonce_le id
    rw [eq_of_identity same Attestation.issuer, eq_of_identity same Attestation.issuerNonce,
      written, issue_issuerNonces]
    by_cases own : (s.attestations id).issuer = issuer
    · have nonce := legal.nonce
      rw [own] at bound ⊢
      rw [Function.update_self]
      omega
    · rw [Function.update_of_ne own]
      exact bound

/-- A legal issuance extends at most one chain and starts or continues exactly one. -/
theorem issued : Linked t where
  zero_missing := by
    rw [eq_of_identity (legal.identity_other written legal.id_ne.symm) Attestation.issuer]
    exact linked.zero_missing
  missing_blank := linked.issued_missing_blank legal written
  forward := linked.issued_forward legal written
  backward := linked.issued_backward legal written
  linkable := linked.issued_linkable legal written
  exclusive := linked.issued_exclusive legal written
  nonce_le := linked.issued_nonce_le legal written

end Issue

omit [Keccak] in
/-- A revocation moves no pointer, and the record it marks has no successor. -/
theorem revoked (linked : Linked s) {sender : Address} {reason : Bytes32} (timestamp : Uint64)
    (legal : Revocable s sender id reason) :
    Linked (markRevoked s id reason sender timestamp) := by
  have kept := fun other => markRevoked_identity s id reason other sender timestamp
  have pointer := fun other => markRevoked_supersededBy s id reason other sender timestamp
  have active := status_eq_active.mp legal.active
  set t := markRevoked s id reason sender timestamp
  have supersedes : ∀ other,
      (t.attestations other).supersedes = (s.attestations other).supersedes :=
    fun other => eq_of_identity (kept other) Attestation.supersedes
  have issuer : ∀ other, (t.attestations other).issuer = (s.attestations other).issuer :=
    fun other => eq_of_identity (kept other) Attestation.issuer
  constructor
  case zero_missing => rw [issuer]; exact linked.zero_missing
  case missing_blank =>
    intro other missing
    rw [issuer] at missing
    have ne : other ≠ id := fun h => active.1 (h ▸ missing)
    rw [markRevoked_attestations_other ne]
    exact linked.missing_blank other missing
  case forward =>
    intro other points
    rw [pointer] at points ⊢
    rw [supersedes]
    exact linked.forward other points
  case backward =>
    intro other points
    rw [supersedes] at points ⊢
    rw [pointer]
    exact linked.backward other points
  case linkable =>
    intro other points
    rw [pointer] at points ⊢
    exact (linked.linkable other points).congr
      (markRevoked_identity s id reason other sender timestamp).symm
      (markRevoked_identity s id reason _ sender timestamp).symm
  case exclusive =>
    intro other points
    rw [pointer] at points
    have ne : other ≠ id := fun h => points (h ▸ active.2.2)
    rw [markRevoked_attestations_other ne]
    exact linked.exclusive other points
  case nonce_le =>
    intro other
    rw [issuer, eq_of_identity (kept other) Attestation.issuerNonce]
    exact linked.nonce_le other

theorem effect (linked : Linked s) {sender : Address} (effect : Effect sender s t) : Linked t := by
  cases effect with
  | none => exact linked
  | issued timestamp legal => exact linked.issued legal rfl
  | revoked timestamp legal => exact linked.revoked timestamp legal

theorem of_reachable (reached : Reachable step Initial s) : Linked s :=
  reached.invariant (fun initial => initial ▸ Linked.initial)
    fun linked taken => linked.effect (step_effect taken).2

end Linked

/-- The record that supersedes the given one, if any. -/
def successor (s : Storage) (id : Bytes32) : Option Bytes32 :=
  if (s.attestations id).supersededBy = 0 then none else some (s.attestations id).supersededBy

theorem successor_eq_none {s : Storage} :
    successor s id = none ↔ (s.attestations id).supersededBy = 0 := by
  simp [successor]

theorem successor_eq_some {s : Storage} {next : Bytes32} :
    successor s id = some next ↔ (s.attestations id).supersededBy = next ∧ next ≠ 0 := by
  unfold successor
  split <;> grind

namespace Linked

variable {s : Storage}

/-- The records that end a walk are those that are active or revoked. -/
theorem successor_eq_none_iff_status (linked : Linked s) (present : Exists s id) :
    successor s id = none ↔ statusOf s id = .active ∨ statusOf s id = .revoked := by
  have exclusive := linked.exclusive id
  rw [successor_eq_none, statusOf, status_eq_active, status_eq_revoked]
  by_cases points : (s.attestations id).supersededBy = 0
  · have := present
    simp only [Exists] at this
    tauto
  · have := exclusive points
    tauto

/-- A walk stays on existing records of one issuer. -/
theorem successor_preserves (linked : Linked s) (issuer : Address) {a b : Bytes32}
    (start : Exists s a ∧ (s.attestations a).issuer = issuer) (pointer : successor s a = some b) :
    Exists s b ∧ (s.attestations b).issuer = issuer := by
  obtain ⟨rfl, points⟩ := successor_eq_some.mp pointer
  exact ⟨linked.exists_successor points, (linked.linkable a points).issuer ▸ start.2⟩

theorem walk_exists (linked : Linked s) {n : Nat} {a b : Bytes32} (present : Exists s a)
    (walk : Chain.follow (successor s) n a = some b) : Exists s b :=
  (Chain.follow_invariant (linked.successor_preserves (s.attestations a).issuer)
    ⟨present, rfl⟩ walk).1

theorem walk_ends (linked : Linked s) (present : Exists s id) :
    ∃ n head, Chain.follow (successor s) n id = some head ∧ successor s head = none := by
  refine Chain.exists_end (P := fun a => Exists s a ∧ (s.attestations a).issuer =
    (s.attestations id).issuer) (fun a => (s.attestations a).issuerNonce.toNat)
    (s.issuerNonces (s.attestations id).issuer).toNat ?_ ?_ ?_ ⟨present, rfl⟩
  · exact linked.successor_preserves _
  · intro a b _ pointer
    obtain ⟨rfl, points⟩ := successor_eq_some.mp pointer
    exact (linked.linkable a points).nonce
  · intro a ⟨_, issuer⟩
    exact issuer ▸ linked.nonce_le a

end Linked

/-- In every reachable storage the links are mutually inverse, connect records
of one issuer, schema and subject in nonce order, never join a revoked record to
a successor, and lead every record to one head. -/
theorem supersession_chains [Keccak] {s : Storage} (reached : Reachable step Initial s) :
    (∀ a b, a ≠ 0 → b ≠ 0 →
      ((s.attestations a).supersededBy = b ↔ (s.attestations b).supersedes = a)) ∧
    (∀ a b, a ≠ 0 → b ≠ 0 → (s.attestations a).supersededBy = b →
      Exists s a ∧ Exists s b ∧
      (s.attestations a).issuer = (s.attestations b).issuer ∧
      (s.attestations a).schemaId = (s.attestations b).schemaId ∧
      (s.attestations a).subject = (s.attestations b).subject ∧
      (s.attestations a).issuerNonce.toNat < (s.attestations b).issuerNonce.toNat) ∧
    (∀ id, ¬((s.attestations id).revocationReasonHash ≠ 0 ∧
      (s.attestations id).supersededBy ≠ 0)) ∧
    (∀ a b c, a ≠ 0 → (s.attestations b).supersedes = a → (s.attestations c).supersedes = a →
      b = c) ∧
    (∀ a b c, c ≠ 0 → (s.attestations a).supersededBy = c →
      (s.attestations b).supersededBy = c → a = b) ∧
    (∀ id, Exists s id → ∃ n head,
      Chain.follow (successor s) n id = some head ∧
      Chain.follow (successor s) (n + 1) id = none ∧
      (statusOf s head = .active ∨ statusOf s head = .revoked) ∧
      ∀ m other, Chain.follow (successor s) m id = some other →
        (statusOf s other = .active ∨ statusOf s other = .revoked) → other = head) := by
  have linked := Linked.of_reachable reached
  refine ⟨?_, ?_, ?_, ?_, ?_, ?_⟩
  · intro a b ha hb
    constructor
    · rintro rfl
      exact linked.forward a hb
    · rintro rfl
      exact linked.backward b ha
  · rintro a b ha hb rfl
    have link := linked.linkable a hb
    exact ⟨linked.exists_of_supersededBy hb, linked.exists_successor hb, link.issuer, link.schema,
      link.subject, link.nonce⟩
  · rintro id ⟨revoked, points⟩
    exact revoked (linked.exclusive id points)
  · rintro a b c ha rfl hc
    rw [← linked.backward b ha, ← hc, linked.backward c (hc ▸ ha)]
  · rintro a b c hc rfl hb
    rw [← linked.forward a hc, ← hb, linked.forward b (hb ▸ hc)]
  · intro id present
    obtain ⟨n, head, walk, stopped⟩ := linked.walk_ends present
    refine ⟨n, head, walk, ?_, ?_, ?_⟩
    · rw [Chain.follow_succ, walk]
      exact stopped
    · exact (linked.successor_eq_none_iff_status (linked.walk_exists present walk)).mp stopped
    · intro m other walk' status
      exact Chain.end_unique walk' walk ((linked.successor_eq_none_iff_status
        (linked.walk_exists present walk')).mpr status) stopped

theorem supersession_chains_superseding :
    ∃ s, Run (@step Keccak.rolling) Free supersedingCalls {} s ∧ s.attestationCount = 2 ∧
      ∀ a b, a ≠ 0 → b ≠ 0 →
        ((s.attestations a).supersededBy = b ↔ (s.attestations b).supersedes = a) := by
  obtain ⟨s, run, count⟩ := run_of_execute_any
    (show (execute (@step Keccak.rolling) supersedingCalls {}).any
      (fun s => s.attestationCount = 2) by decide +kernel)
  exact ⟨s, run, of_decide_eq_true count,
    (@supersession_chains Keccak.rolling s ⟨_, _, rfl, run⟩).1⟩

end Torium.Registry
