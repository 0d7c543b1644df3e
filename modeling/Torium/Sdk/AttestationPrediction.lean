import Torium.Registry.Acceptance
import Torium.Sdk.Attestations

/-!
# What the attestation preflight predicts

All reads are answered from one reachable storage of the registry. The preflight then derives
the identifier, the commitment, the nonce and the replay key that `attest` stores, and it says
that the issuer can attest exactly if `attest` succeeds, with one exception: it compares the
schema and the subject of the superseded record as texts, and a decoded hash is spelled in lower
case. A supersession that the registry accepts is refused by the preflight if the caller spells
one of the two with an upper-case letter.
-/

namespace Torium.Sdk

open Evm Generator Transition

/-! ## Payloads -/

structure AttestationPayload.WellFormed (payload : AttestationPayload) : Prop where
  schemaId : isHash payload.schemaId
  subject : isHash payload.subject
  referenceHash : isHash (payload.referenceHash.getD zeroHash)
  contentHash : isHash payload.contentHash
  metadataHash : isHash payload.metadataHash
  metadataUriHash : isHash payload.metadataUriHash

/-- The arguments of `attest`. -/
def AttestationPayload.onChain (payload : AttestationPayload) : Registry.Payload where
  schemaId := hashValue payload.schemaId
  schemaVersion := BitVec.ofInt 32 (payload.schemaVersion.getD 0)
  subject := hashValue payload.subject
  referenceHash := hashValue (payload.referenceHash.getD zeroHash)
  contentHash := hashValue payload.contentHash
  metadataHash := hashValue payload.metadataHash
  metadataUriHash := hashValue payload.metadataUriHash

/-- The words that a commitment and a replay key have in common. -/
def payloadWords (p : Registry.Payload) : List Word :=
  [p.schemaId, p.schemaVersion.setWidth 256, p.subject, p.referenceHash, p.contentHash,
    p.metadataHash, p.metadataUriHash]

section Payload

variable {payload : AttestationPayload}

theorem valid_version (valid : validateToriumAttestationPayload payload = .ok ()) :
    ∃ version : Nat, payload.schemaVersion = some (version : Int) ∧ 1 ≤ version ∧
      version < 2 ^ 32 := by
  simp only [validateToriumAttestationPayload, bind_eq_ok, revertIf_eq_ok, not_forall,
    not_or, Int.not_lt] at valid
  obtain ⟨-, -, -, ⟨version, given, least, most⟩, -⟩ := valid
  obtain ⟨n, rfl⟩ := Int.eq_ofNat_of_zero_le (show 0 ≤ version by omega)
  exact ⟨n, given, by omega, by omega⟩

/-- The registry's check of a payload passes when that of the SDK does. -/
theorem validatePayload_onChain (wellFormed : payload.WellFormed)
    (valid : validateToriumAttestationPayload payload = .ok ()) :
    Registry.validatePayload payload.onChain = .ok () := by
  obtain ⟨version, given, least, most⟩ := valid_version valid
  simp only [validateToriumAttestationPayload, bind_eq_ok, revertIf_eq_ok,
    eq_zeroHash_iff wellFormed.schemaId, eq_zeroHash_iff wellFormed.subject,
    eq_zeroHash_iff wellFormed.contentHash, eq_zeroHash_iff wellFormed.metadataHash,
    eq_zeroHash_iff wellFormed.metadataUriHash] at valid
  obtain ⟨-, schema, -, -, -, subject, -, content, -, metadata, uri⟩ := valid
  have positive : payload.onChain.schemaVersion ≠ 0 := by
    intro zero
    have value := congrArg BitVec.toNat zero
    simp only [AttestationPayload.onChain, given, Option.getD_some, BitVec.ofInt_natCast,
      BitVec.toNat_ofNat, Nat.mod_eq_of_lt most] at value
    exact absurd value (by simpa using Nat.ne_of_gt least)
  simp only [Registry.validatePayload, bind_eq_ok, revertIf_eq_ok]
  exact ⟨(), schema, (), positive, (), subject, (), content, (), metadata, uri⟩

theorem encodePayload_eq (wellFormed : payload.WellFormed)
    (valid : validateToriumAttestationPayload payload = .ok ()) :
    encodePayload payload = .ok (payloadWords payload.onChain) := by
  obtain ⟨version, given, least, most⟩ := valid_version valid
  have value : (payload.onChain.schemaVersion.setWidth 256 : Word).toNat = version := by
    rw [AttestationPayload.onChain, given, Option.getD_some, BitVec.ofInt_natCast,
      BitVec.toNat_setWidth, BitVec.toNat_ofNat, Nat.mod_eq_of_lt most,
      Nat.mod_eq_of_lt (most.trans (by decide))]
  have word : encodeUint (payload.schemaVersion.getD 0) =
      .ok (payload.onChain.schemaVersion.setWidth 256) := by
    rw [given, Option.getD_some, ← value, encodeUint_toNat]
  rw [encodePayload, encodeBytes32_eq wellFormed.schemaId, word,
    encodeBytes32_eq wellFormed.subject, encodeBytes32_eq wellFormed.referenceHash,
    encodeBytes32_eq wellFormed.contentHash, encodeBytes32_eq wellFormed.metadataHash,
    encodeBytes32_eq wellFormed.metadataUriHash]
  rfl

end Payload

/-! ## Derived hashes -/

section Hashes

variable [Keccak] {format : AddressFormat} {payload : AttestationPayload}

theorem computeToriumAttestationCommitment_eq (wellFormed : payload.WellFormed)
    (valid : validateToriumAttestationPayload payload = .ok ()) {supersedes : Text}
    (named : isHash supersedes) :
    computeToriumAttestationCommitment payload supersedes =
      .ok (hashText (Registry.computeCommitment payload.onChain (hashValue supersedes))) := by
  rw [computeToriumAttestationCommitment, valid, encodePayload_eq wellFormed valid,
    encodeBytes32_eq named]
  rfl

theorem computeToriumAttestationReplayKey_eq (wellFormed : payload.WellFormed)
    (valid : validateToriumAttestationPayload payload = .ok ()) (issuer : Address) :
    computeToriumAttestationReplayKey format (format.checksum issuer) payload =
      .ok (hashText (Registry.computeReplayKey issuer payload.onChain)) := by
  rw [computeToriumAttestationReplayKey, valid, getAddress_eq format (format.parse_checksum issuer),
    ok_bind, ok_bind, encodeAddress_checksum, encodePayload_eq wellFormed valid]
  rfl

theorem computeToriumAttestationId_eq (env : Registry.Env) (nonce : Word) (commitment : Bytes32) :
    computeToriumAttestationId format env.chainId.toNat (format.checksum env.contract)
        (format.checksum env.sender) nonce.toNat (hashText commitment) =
      .ok (hashText (Registry.computeAttestationId env env.sender nonce commitment)) := by
  rw [computeToriumAttestationId, assertToriumUint256_natCast (BitVec.isLt _), ok_bind,
    encodeUint_toNat, ok_bind, getAddress_eq format (format.parse_checksum env.contract), ok_bind,
    encodeAddress_checksum, ok_bind, getAddress_eq format (format.parse_checksum env.sender),
    ok_bind, encodeAddress_checksum, ok_bind, assertToriumUint256_natCast (BitVec.isLt _), ok_bind,
    encodeUint_toNat, ok_bind, encodeBytes32_eq (isHash_hashText commitment), hashValue_hashText]
  rfl

end Hashes

/-! ## Reads -/

section Reads

variable (format : AddressFormat) (env : Registry.Env) (s : Registry.Storage)

theorem read_usedPayloads (key : Bytes32) :
    (registryClient format env s).readContract (format.checksum env.contract)
      (.usedPayloads (hashText key)) = .ok (.bool (s.usedPayloads key)) := by
  simp only [registryClient, format.parse_checksum, throwIf, revertIf, ne_eq, not_true_eq_false,
    if_false, ok_bind, encodeBytes32_eq (isHash_hashText key), hashValue_hashText]
  rfl

theorem read_issuerNonces (issuer : Address) :
    (registryClient format env s).readContract (format.checksum env.contract)
      (.issuerNonces (format.checksum issuer)) = .ok (.bigint (s.issuerNonces issuer).toNat) := by
  simp only [registryClient, format.parse_checksum, throwIf, revertIf, ne_eq, not_true_eq_false,
    if_false, ok_bind, encodeAddress_checksum]
  rfl

theorem read_statusOf {id : Text} (named : isHash id) :
    (registryClient format env s).readContract (format.checksum env.contract) (.statusOf id) =
      .ok (.number (some (statusIndex (Registry.statusOf s (hashValue id))))) := by
  simp only [registryClient, format.parse_checksum, throwIf, revertIf, ne_eq, not_true_eq_false,
    if_false, ok_bind, encodeBytes32_eq named]
  rfl

theorem read_getAttestation {id : Text} (named : isHash id)
    (present : (s.attestations (hashValue id)).issuer ≠ 0) :
    (registryClient format env s).readContract (format.checksum env.contract)
      (.getAttestation id) = .ok (decodeAttestation format (s.attestations (hashValue id))) := by
  have found : Registry.requireAttestation s (hashValue id) =
      .ok (s.attestations (hashValue id)) :=
    Registry.requireAttestation_eq_ok.mpr ⟨present, rfl⟩
  simp only [registryClient, format.parse_checksum, throwIf, revertIf, ne_eq, not_true_eq_false,
    if_false, ok_bind, encodeBytes32_eq named, found]
  rfl

theorem parseAttestationStatus_statusIndex (status : Registry.Status) :
    parseAttestationStatus (.number (some (statusIndex status))) = .ok status := by
  cases status <;> rfl

/-- The record of the SDK for a record of the registry. -/
def attestationOf (a : Registry.Attestation) (attestationId : Text) (status : Registry.Status) :
    Attestation where
  attestationId := attestationId
  status := status
  schemaId := hashText a.schemaId
  schemaVersion := a.schemaVersion.toNat
  issuer := format.checksum a.issuer
  issuerNonce := a.issuerNonce.toNat
  subject := hashText a.subject
  referenceHash := hashText a.referenceHash
  contentHash := hashText a.contentHash
  metadataHash := hashText a.metadataHash
  metadataUriHash := hashText a.metadataUriHash
  supersedes := hashText a.supersedes
  supersededBy := hashText a.supersededBy
  createdAt := a.createdAt.toNat
  revokedAt := a.revokedAt.toNat
  supersededAt := a.supersededAt.toNat
  revocationReasonHash := hashText a.revocationReasonHash

/-- A decoded record passes every check, and each field is read from its own place. -/
theorem parseAttestation_decodeAttestation (a : Registry.Attestation) (id : Text)
    (status : Registry.Status) :
    parseAttestation format (decodeAttestation format a) id status =
      .ok (attestationOf format a id status) := by
  have version : (a.schemaVersion.toNat : Int) ≤ MAX_SAFE_INTEGER := by
    have := a.schemaVersion.isLt
    simp only [MAX_SAFE_INTEGER]
    omega
  simp [parseAttestation, decodeAttestation, isObjectLike, Raw.property, throwIf, revertIf,
    List.lookup_cons, parseHashValue_hashText, parseAddressValue_checksum, parseUint_toNat,
    parseUint_number, version, ok_bind]
  rfl

end Reads

/-! ## The prediction -/

/-- The identifier that is superseded; zero if none is named. -/
def AttestationParameters.superseded (parameters : AttestationParameters) : Bytes32 :=
  hashValue (parameters.supersedes.getD zeroHash)

/-- Well-formed and valid parameters for a call: its sender is the issuer, and its contract is
the deployment. -/
structure AttestationParameters.For (format : AddressFormat) (registryEntry : RegistryEntry)
    (env : Registry.Env) (parameters : AttestationParameters) : Prop where
  issuer : format.parse parameters.issuer = some env.sender
  deployed : resolveToriumContractDeployment format registryName registryEntry
    parameters.deployment = .ok (format.checksum env.contract)
  payload : parameters.payload.WellFormed
  supersedes : isHash (parameters.supersedes.getD zeroHash)
  valid : validateToriumAttestationPayload parameters.payload = .ok ()

/-- The rules for the superseded record as the preflight checks them. -/
def SpelledAlike (s : Registry.Storage) (issuer : Address) (payload : AttestationPayload)
    (supersedes : Bytes32) : Prop :=
  supersedes = 0 ∨ Registry.status (s.attestations supersedes) = .active ∧
    (s.attestations supersedes).issuer = issuer ∧
    hashText (s.attestations supersedes).schemaId = payload.schemaId ∧
    hashText (s.attestations supersedes).subject = payload.subject

section Prediction

variable {format : AddressFormat} {env : Registry.Env} {s : Registry.Storage}

theorem supersessionBlockers_eq_nil {supersedes : Text} (named : isHash supersedes)
    (payload : AttestationPayload) :
    ∃ blockers, supersessionBlockers format (registryClient format env s)
        (format.checksum env.contract) (format.checksum env.sender) supersedes payload =
        .ok blockers ∧
      (blockers = [] ↔ SpelledAlike s env.sender payload (hashValue supersedes)) := by
  rw [supersessionBlockers]
  by_cases unnamed : supersedes = zeroHash
  · rw [if_pos unnamed]
    exact ⟨[], rfl, iff_of_true rfl (.inl ((eq_zeroHash_iff named).mp unnamed))⟩
  · have nonzero : hashValue supersedes ≠ 0 := mt (eq_zeroHash_iff named).mpr unnamed
    rw [if_neg unnamed, read_statusOf format env s named, ok_bind,
      parseAttestationStatus_statusIndex, ok_bind]
    have refused {blocker : AttestationBlocker}
        (inactive : Registry.statusOf s (hashValue supersedes) ≠ .active) :
        [blocker] = [] ↔ SpelledAlike s env.sender payload (hashValue supersedes) := by
      refine iff_of_false (List.cons_ne_nil _ _) ?_
      rintro (zero | ⟨active, -⟩)
      · exact nonzero zero
      · exact inactive active
    split_ifs with missing inactive
    · exact ⟨_, rfl, refused (by rw [missing]; exact nofun)⟩
    · exact ⟨_, rfl, refused inactive⟩
    · have active : Registry.status (s.attestations (hashValue supersedes)) = .active :=
        not_not.mp inactive
      have present := (Registry.status_eq_active.mp active).1
      rw [read_getAttestation format env s named present, ok_bind,
        parseAttestation_decodeAttestation, ok_bind]
      refine ⟨_, rfl, ?_⟩
      rw [List.append_eq_nil_iff, List.append_eq_nil_iff, blockIf_eq_nil, blockIf_eq_nil,
        blockIf_eq_nil, not_not, not_not, not_not, SpelledAlike, or_iff_right nonzero,
        and_iff_right active, and_assoc]
      exact and_congr_left' (checksum_injective format).eq_iff

variable [Keccak] {registryEntry : RegistryEntry} {parameters : AttestationParameters}

/-- What the preflight returns. -/
theorem preflightToriumAttestation_ok (about : parameters.For format registryEntry env)
    (room : (s.issuerNonces env.sender).toNat + 1 < 2 ^ 256) :
    ∃ preflight, preflightToriumAttestation format registryEntry (registryClient format env s)
        parameters = .ok preflight ∧
      (preflight.canAttest = true ↔
        s.usedPayloads (Registry.computeReplayKey env.sender parameters.payload.onChain) = false ∧
        SpelledAlike s env.sender parameters.payload parameters.superseded) ∧
      preflight.replayKey =
        hashText (Registry.computeReplayKey env.sender parameters.payload.onChain) ∧
      preflight.predictedIssuerNonce = (s.issuerNonces env.sender + 1).toNat ∧
      preflight.predictedCommitment =
        hashText (Registry.computeCommitment parameters.payload.onChain parameters.superseded) ∧
      preflight.predictedAttestationId =
        hashText (Registry.nextId env parameters.payload.onChain parameters.superseded s) := by
  obtain ⟨blockers, prior, free⟩ :=
    @supersessionBlockers_eq_nil format env s _ about.supersedes parameters.payload
  have nonce : ((s.issuerNonces env.sender).toNat : Int) + 1 =
      ((s.issuerNonces env.sender + 1).toNat : Int) := by
    rw [BitVec.toNat_add_of_lt (by exact room)]
    rfl
  rw [preflightToriumAttestation, about.deployed, ok_bind, getAddress_eq format about.issuer,
    ok_bind, computeToriumAttestationReplayKey_eq about.payload about.valid, ok_bind,
    read_usedPayloads, ok_bind, read_issuerNonces, ok_bind, parseBooleanValue, pure_bind, prior,
    ok_bind, parseUint_toNat _ _ le_rfl, ok_bind,
    computeToriumAttestationCommitment_eq about.payload about.valid about.supersedes, ok_bind,
    nonce]
  simp only [registryClient]
  rw [computeToriumAttestationId_eq, ok_bind]
  refine ⟨_, rfl, ?_, rfl, rfl, rfl, rfl⟩
  rw [List.isEmpty_iff, List.append_eq_nil_iff, blockIf_eq_nil, free, Bool.not_eq_true]
  rfl

/-- The predictions are what an attestation returned and stored. -/
structure AttestationPreflight.Describes (preflight : AttestationPreflight) (env : Registry.Env)
    (s : Registry.Storage) (id : Bytes32) (t : Registry.Storage) : Prop where
  attestationId : preflight.predictedAttestationId = hashText id
  commitment : preflight.predictedCommitment = hashText (Registry.commitment (t.attestations id))
  issuerNonce : preflight.predictedIssuerNonce = (t.attestations id).issuerNonce.toNat
  latestNonce : preflight.predictedIssuerNonce = (t.issuerNonces env.sender).toNat
  replayKey : ∃ key, preflight.replayKey = hashText key ∧
    t.usedPayloads = Function.update s.usedPayloads key true

/-- A preflight is right about a call: it says whether the call succeeds, and what it stores. -/
def AttestationPreflight.Predicts (preflight : AttestationPreflight) (env : Registry.Env)
    (p : Registry.Payload) (supersedes : Bytes32) (s : Registry.Storage) : Prop :=
  (preflight.canAttest = true ↔ ∃ issued, Registry.attest env p supersedes s = .ok issued) ∧
  ∀ id t, Registry.attest env p supersedes s = .ok (id, t) → preflight.Describes env s id t

/-- The letter case of the schema and the subject does not matter: nothing is superseded, both
are spelled in lower case, or the registry refuses the attestation anyway. -/
def AttestationParameters.SpellingHarmless (parameters : AttestationParameters)
    (env : Registry.Env) (s : Registry.Storage) : Prop :=
  parameters.superseded = 0 ∨
  (toLowerCase parameters.payload.schemaId = parameters.payload.schemaId ∧
    toLowerCase parameters.payload.subject = parameters.payload.subject) ∨
  s.usedPayloads (Registry.computeReplayKey env.sender parameters.payload.onChain) = true ∨
  ¬ Registry.Supersedable s env.sender parameters.payload.onChain parameters.superseded

omit [Keccak] in
theorem spelledAlike_iff {payload : AttestationPayload} (wellFormed : payload.WellFormed)
    {issuer : Address} {supersedes : Bytes32} :
    SpelledAlike s issuer payload supersedes ↔
      Registry.Supersedable s issuer payload.onChain supersedes ∧
      (supersedes = 0 ∨ toLowerCase payload.schemaId = payload.schemaId ∧
        toLowerCase payload.subject = payload.subject) := by
  have alike {text : Text} (hash : isHash text) (word : Bytes32) :
      hashText word = text ↔ word = hashValue text ∧ toLowerCase text = text := by
    constructor
    · rintro rfl
      exact ⟨(hashValue_hashText word).symm, toLowerCase_hashText word⟩
    · rintro ⟨rfl, lower⟩
      rw [← toLowerCase_eq hash, lower]
  rw [SpelledAlike, Registry.Supersedable, alike wellFormed.schemaId, alike wellFormed.subject]
  simp only [AttestationPayload.onChain]
  tauto

/-- The preflight is right about the call exactly if the letter case of the schema and the
subject does not matter. -/
theorem attestation_prediction_iff (reached : Reachable Registry.step Registry.Initial s)
    (about : parameters.For format registryEntry env) (fits : env.timestamp.toNat < 2 ^ 64)
    (fresh : Registry.FreshId env parameters.payload.onChain parameters.superseded s) :
    ∃ preflight, preflightToriumAttestation format registryEntry (registryClient format env s)
        parameters = .ok preflight ∧
      (preflight.Predicts env parameters.payload.onChain parameters.superseded s ↔
        parameters.SpellingHarmless env s) := by
  have counted := Registry.Counted.of_reachable reached
  have count := Registry.count_lt counted fresh.1
    (Registry.Linked.of_reachable reached).zero_missing fresh.2
  have room := (Nat.add_le_add_right (Registry.nonce_le_count counted env.sender) 1).trans_lt count
  have accepts {issued : Bytes32 × Registry.Storage} :=
    (Registry.attest_eq_ok_iff reached (validatePayload_onChain about.payload about.valid) fits
      fresh : _ = Except.ok issued ↔ _)
  obtain ⟨preflight, returned, canAttest, key, nonce, commitment, id⟩ :=
    preflightToriumAttestation_ok about room
  refine ⟨preflight, returned, ?_⟩
  have stored : ∀ id' t, Registry.attest env parameters.payload.onChain parameters.superseded s =
      .ok (id', t) → preflight.Describes env s id' t := by
    intro id' t issued
    obtain ⟨-, rules, same⟩ := accepts.mp issued
    obtain ⟨rfl, rfl⟩ := Prod.mk.inj same
    have record := Registry.accepted_record fresh rules
    simp only [Registry.accepted] at record
    refine ⟨id, record ▸ commitment, record ▸ nonce, ?_, _, key, rfl⟩
    rw [Registry.issue_issuerNonces, Function.update_self]
    exact nonce
  have succeeds : (∃ issued,
      Registry.attest env parameters.payload.onChain parameters.superseded s = .ok issued) ↔
      s.usedPayloads (Registry.computeReplayKey env.sender parameters.payload.onChain) = false ∧
      Registry.Supersedable s env.sender parameters.payload.onChain parameters.superseded := by
    simp only [accepts]
    exact ⟨fun ⟨_, unused, rules, _⟩ => ⟨unused, rules⟩,
      fun ⟨unused, rules⟩ => ⟨_, unused, rules, rfl⟩⟩
  rw [AttestationPreflight.Predicts, and_iff_left stored, canAttest, succeeds,
    spelledAlike_iff about.payload, AttestationParameters.SpellingHarmless,
    ← Bool.not_eq_false (s.usedPayloads _)]
  tauto

end Prediction

namespace Demo

def registered : RegistryEntry where
  address := some (format.checksum 9)
  status := "deployed"

def env : Registry.Env := { sender := 5, timestamp := 100, chainId := 1, contract := 9 }

/-- A payload whose schema has the spelling that is given. -/
def payload (schemaId : Text) (contentHash : Bytes32) : AttestationPayload where
  schemaId := schemaId
  schemaVersion := some 1
  subject := hashText 2
  referenceHash := none
  contentHash := hashText contentHash
  metadataHash := hashText 4
  metadataUriHash := hashText 5

def lowerCase : Text := hashText 10

def upperCase : Text := lowerCase.map Char.toUpper |>.set 1 'x'

/-- A record with the schema. -/
def firstCall : Registry.Call := ⟨env, .attest (payload lowerCase 3).onChain 0⟩

/-- The parameters for superseding it with another content. -/
def parameters (schemaId : Text) : AttestationParameters where
  deployment := none
  issuer := format.checksum 5
  payload := payload schemaId 6
  supersedes := some (hashText (@Registry.nextId Keccak.rolling env (payload lowerCase 3).onChain 0
    {}))

end Demo

/-- The registry accepts a supersession that the preflight refuses. -/
theorem upper_case_schema_refused :
    letI := Keccak.rolling
    ∃ s, Run Registry.step Free [Demo.firstCall] {} s ∧
      ∃ preflight, preflightToriumAttestation Demo.format Demo.registered
          (registryClient Demo.format Demo.env s) (Demo.parameters Demo.upperCase) =
          .ok preflight ∧
        preflight.canAttest = false ∧ preflight.blockers = [.supersedesSchemaMismatch] ∧
        ∃ issued, Registry.attest Demo.env (Demo.parameters Demo.upperCase).payload.onChain
          (Demo.parameters Demo.upperCase).superseded s = .ok issued := by
  let := Keccak.rolling
  obtain ⟨s, run, evaluated⟩ := run_of_execute_any
    (show (execute Registry.step [Demo.firstCall] {}).any (fun s =>
      (preflightToriumAttestation Demo.format Demo.registered
          (registryClient Demo.format Demo.env s) (Demo.parameters Demo.upperCase)).toOption.any
        (fun preflight => !preflight.canAttest &&
          decide (preflight.blockers = [.supersedesSchemaMismatch])) &&
      (Registry.attest Demo.env (Demo.parameters Demo.upperCase).payload.onChain
        (Demo.parameters Demo.upperCase).superseded s).toOption.any fun _ => true)
      by decide +kernel)
  obtain ⟨refused, accepted⟩ := (Bool.and_eq_true _ _).mp evaluated
  obtain ⟨preflight, returned, blocked⟩ := ok_of_any refused
  obtain ⟨issued, succeeded, -⟩ := ok_of_any accepted
  simp only [Bool.and_eq_true, Bool.not_eq_true', decide_eq_true_eq] at blocked
  exact ⟨s, run, preflight, returned, blocked.1, blocked.2, issued, succeeded⟩

theorem attestation_prediction_iff_demo :
    letI := Keccak.rolling
    ∃ s, Run Registry.step Free [Demo.firstCall] {} s ∧
      ∃ preflight, preflightToriumAttestation Demo.format Demo.registered
          (registryClient Demo.format Demo.env s) (Demo.parameters Demo.lowerCase) =
          .ok preflight ∧
        preflight.Predicts Demo.env (Demo.parameters Demo.lowerCase).payload.onChain
          (Demo.parameters Demo.lowerCase).superseded s := by
  let := Keccak.rolling
  obtain ⟨s, run, fresh⟩ := run_of_execute_any
    (show (execute Registry.step [Demo.firstCall] {}).any (fun s =>
      Registry.FreshId Demo.env (Demo.parameters Demo.lowerCase).payload.onChain
        (Demo.parameters Demo.lowerCase).superseded s) by decide +kernel)
  have about : (Demo.parameters Demo.lowerCase).For Demo.format Demo.registered Demo.env :=
    { issuer := Demo.format.parse_checksum 5
      deployed := by decide +kernel
      payload := ⟨isHash_hashText 10, isHash_hashText 2, isHash_hashText 0, isHash_hashText 6,
        isHash_hashText 4, isHash_hashText 5⟩
      supersedes := isHash_hashText _
      valid := by decide +kernel }
  obtain ⟨preflight, returned, predicts⟩ := attestation_prediction_iff ⟨_, _, rfl, run⟩ about
    (by decide) (of_decide_eq_true fresh)
  exact ⟨s, run, preflight, returned, predicts.mpr (.inr (.inl
    ⟨toLowerCase_hashText 10, toLowerCase_hashText 2⟩))⟩

end Torium.Sdk
