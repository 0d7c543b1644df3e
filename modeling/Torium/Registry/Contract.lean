import Torium.Evm.Abi
import Torium.Lib.Transition
import Mathlib.Logic.Function.Basic

/-!
# The attestation registry contract

The storage and the entry points of `ToriumAttestationRegistry`. A mapping is a
total function whose default is the zero value, so a missing record is the zero
record, exactly as in storage. The payload arguments, which the contract passes
one by one, are grouped in `Payload`.

An issued identifier is a hash of the issuer, its next nonce and the commitment.
Nothing is assumed about the hash function: the contract itself refuses a zero
or an already used identifier. `step` is one transaction by a non-zero sender; a
reverted call leaves the storage as it was.
-/

namespace Torium.Registry

open Evm

inductive Status where
  | missing
  | active
  | superseded
  | revoked
  deriving DecidableEq, Repr

/-- The payload fields that a commitment and a replay key cover. -/
structure Payload where
  schemaId : Bytes32
  schemaVersion : BitVec 32
  subject : Bytes32
  referenceHash : Bytes32
  contentHash : Bytes32
  metadataHash : Bytes32
  metadataUriHash : Bytes32
  deriving DecidableEq

structure Attestation where
  schemaId : Bytes32 := 0
  schemaVersion : BitVec 32 := 0
  issuer : Address := 0
  issuerNonce : Word := 0
  subject : Bytes32 := 0
  referenceHash : Bytes32 := 0
  contentHash : Bytes32 := 0
  metadataHash : Bytes32 := 0
  metadataUriHash : Bytes32 := 0
  supersedes : Bytes32 := 0
  supersededBy : Bytes32 := 0
  createdAt : Uint64 := 0
  revokedAt : Uint64 := 0
  supersededAt : Uint64 := 0
  revocationReasonHash : Bytes32 := 0
  deriving DecidableEq

def Attestation.payload (a : Attestation) : Payload :=
  { schemaId := a.schemaId, schemaVersion := a.schemaVersion, subject := a.subject
    referenceHash := a.referenceHash, contentHash := a.contentHash
    metadataHash := a.metadataHash, metadataUriHash := a.metadataUriHash }

inductive Error where
  | zeroSchemaId
  | zeroSchemaVersion
  | zeroSubject
  | zeroContentHash
  | zeroMetadataHash
  | zeroMetadataUriHash
  | zeroRevocationReasonHash
  | attestationNotFound (attestationId : Bytes32)
  | duplicatePayload (replayKey : Bytes32)
  | attestationIdCollision (attestationId : Bytes32)
  | invalidAttestationStatus (attestationId : Bytes32) (actualStatus : Status)
  | issuerMismatch (expectedIssuer actualIssuer : Address)
  | schemaMismatch (expectedSchemaId actualSchemaId : Bytes32)
  | subjectMismatch (expectedSubject actualSubject : Bytes32)
  | timestampOverflow (timestamp : Word)
  | arithmeticPanic
  deriving DecidableEq

inductive Event where
  | attestationIssued (attestationId : Bytes32) (issuer : Address)
      (schemaId commitment supersedes : Bytes32)
  | attestationSuperseded (supersededAttestationId replacementAttestationId : Bytes32)
      (issuer : Address) (supersededAt : Uint64)
  | attestationRevoked (attestationId : Bytes32) (issuer : Address)
      (revocationReasonHash : Bytes32) (revokedAt : Uint64)
  deriving DecidableEq

structure Storage where
  attestationCount : Word := 0
  issuerNonces : Address → Word := fun _ => 0
  attestations : Bytes32 → Attestation := fun _ => {}
  usedPayloads : Bytes32 → Bool := fun _ => false
  logs : List Event := []

/-- What a call reads from its transaction and block. -/
structure Env where
  sender : Address
  timestamp : Word
  chainId : Word
  contract : Address

variable [Keccak]

def computeCommitment (p : Payload) (supersedes : Bytes32) : Bytes32 :=
  keccak256 (abiEncode [p.schemaId, p.schemaVersion.setWidth 256, p.subject, p.referenceHash,
    p.contentHash, p.metadataHash, p.metadataUriHash, supersedes])

def computeAttestationId (env : Env) (issuer : Address) (issuerNonce : Word)
    (commitment : Bytes32) : Bytes32 :=
  keccak256 (abiEncode [env.chainId, env.contract.setWidth 256, issuer.setWidth 256,
    issuerNonce, commitment])

/-- The permanent replay key; `supersedes` is not part of it. -/
def computeReplayKey (issuer : Address) (p : Payload) : Bytes32 :=
  keccak256 (abiEncode [issuer.setWidth 256, p.schemaId, p.schemaVersion.setWidth 256, p.subject,
    p.referenceHash, p.contentHash, p.metadataHash, p.metadataUriHash])

def validatePayload (p : Payload) : Except Error Unit := do
  revertIf (p.schemaId = 0) .zeroSchemaId
  revertIf (p.schemaVersion = 0) .zeroSchemaVersion
  revertIf (p.subject = 0) .zeroSubject
  revertIf (p.contentHash = 0) .zeroContentHash
  revertIf (p.metadataHash = 0) .zeroMetadataHash
  revertIf (p.metadataUriHash = 0) .zeroMetadataUriHash

def requireAttestation (s : Storage) (attestationId : Bytes32) : Except Error Attestation := do
  let attestation := s.attestations attestationId
  revertIf (attestation.issuer = 0) (.attestationNotFound attestationId)
  pure attestation

def status (attestation : Attestation) : Status :=
  if attestation.issuer = 0 then .missing
  else if attestation.revocationReasonHash ≠ 0 then .revoked
  else if attestation.supersededBy ≠ 0 then .superseded
  else .active

def commitment (attestation : Attestation) : Bytes32 :=
  computeCommitment attestation.payload attestation.supersedes

def timestamp (env : Env) : Except Error Uint64 := do
  revertIf (2 ^ 64 - 1 < env.timestamp.toNat) (.timestampOverflow env.timestamp)
  pure (env.timestamp.setWidth 64)

/-- The checks on the record that a new attestation supersedes, if it names one. -/
def checkPrior (s : Storage) (issuer : Address) (p : Payload) (supersedes : Bytes32) :
    Except Error Unit :=
  if supersedes = 0 then pure ()
  else do
    let prior ← requireAttestation s supersedes
    let priorStatus := status prior
    revertIf (priorStatus ≠ .active) (.invalidAttestationStatus supersedes priorStatus)
    revertIf (prior.issuer ≠ issuer) (.issuerMismatch prior.issuer issuer)
    revertIf (prior.schemaId ≠ p.schemaId) (.schemaMismatch prior.schemaId p.schemaId)
    revertIf (prior.subject ≠ p.subject) (.subjectMismatch prior.subject p.subject)

/-- The record written by `attest`. -/
def newAttestation (issuer : Address) (issuerNonce : Word) (p : Payload) (supersedes : Bytes32)
    (createdAt : Uint64) : Attestation :=
  { schemaId := p.schemaId, schemaVersion := p.schemaVersion, issuer, issuerNonce
    subject := p.subject, referenceHash := p.referenceHash, contentHash := p.contentHash
    metadataHash := p.metadataHash, metadataUriHash := p.metadataUriHash, supersedes, createdAt }

/-- The writes of a successful `attest`: the new record, then the link of the
record it supersedes. -/
def issue (s : Storage) (issuer : Address) (p : Payload) (supersedes attestationId : Bytes32)
    (issuerNonce attestationCount : Word) (timestamp : Uint64) : Storage :=
  let attestations := Function.update s.attestations attestationId
    (newAttestation issuer issuerNonce p supersedes timestamp)
  { attestationCount
    issuerNonces := Function.update s.issuerNonces issuer issuerNonce
    usedPayloads := Function.update s.usedPayloads (computeReplayKey issuer p) true
    attestations :=
      if supersedes = 0 then attestations
      else Function.update attestations supersedes
        { attestations supersedes with supersededBy := attestationId, supersededAt := timestamp }
    logs := s.logs ++
      (if supersedes = 0 then []
        else [.attestationSuperseded supersedes attestationId issuer timestamp]) ++
      [.attestationIssued attestationId issuer p.schemaId (computeCommitment p supersedes)
        supersedes] }

def attest (env : Env) (p : Payload) (supersedes : Bytes32) (s : Storage) :
    Except Error (Bytes32 × Storage) := do
  validatePayload p
  let issuer := env.sender
  let replayKey := computeReplayKey issuer p
  revertIf (s.usedPayloads replayKey) (.duplicatePayload replayKey)
  checkPrior s issuer p supersedes
  let issuerNonce ← orRevert .arithmeticPanic (checkedAdd (s.issuerNonces issuer) 1)
  let attestationId :=
    computeAttestationId env issuer issuerNonce (computeCommitment p supersedes)
  revertIf (attestationId = 0 ∨ (s.attestations attestationId).issuer ≠ 0)
    (.attestationIdCollision attestationId)
  let timestamp ← timestamp env
  let attestationCount ← orRevert .arithmeticPanic (checkedAdd s.attestationCount 1)
  pure (attestationId,
    issue s issuer p supersedes attestationId issuerNonce attestationCount timestamp)

/-- The writes of a successful `revoke`. -/
def markRevoked (s : Storage) (attestationId revocationReasonHash : Bytes32) (sender : Address)
    (timestamp : Uint64) : Storage :=
  { s with
    attestations := Function.update s.attestations attestationId
      { s.attestations attestationId with revokedAt := timestamp, revocationReasonHash }
    logs := s.logs ++ [.attestationRevoked attestationId sender revocationReasonHash timestamp] }

def revoke (env : Env) (attestationId revocationReasonHash : Bytes32) (s : Storage) :
    Except Error Storage := do
  revertIf (revocationReasonHash = 0) .zeroRevocationReasonHash
  let attestation ← requireAttestation s attestationId
  revertIf (attestation.issuer ≠ env.sender) (.issuerMismatch attestation.issuer env.sender)
  let currentStatus := status attestation
  revertIf (currentStatus ≠ .active) (.invalidAttestationStatus attestationId currentStatus)
  let timestamp ← timestamp env
  pure (markRevoked s attestationId revocationReasonHash env.sender timestamp)

def statusOf (s : Storage) (attestationId : Bytes32) : Status :=
  status (s.attestations attestationId)

def isActive (s : Storage) (attestationId : Bytes32) : Bool :=
  statusOf s attestationId = .active

def verify (s : Storage) (attestationId : Bytes32) (expectedIssuer : Address)
    (expectedCommitment : Bytes32) : Bool :=
  let attestation := s.attestations attestationId
  status attestation = .active && attestation.issuer = expectedIssuer &&
    commitment attestation = expectedCommitment

def commitmentOf (s : Storage) (attestationId : Bytes32) : Except Error Bytes32 := do
  let attestation ← requireAttestation s attestationId
  pure (commitment attestation)

inductive Action where
  | attest (payload : Payload) (supersedes : Bytes32)
  | revoke (attestationId revocationReasonHash : Bytes32)

structure Call where
  env : Env
  action : Action

/-- The storage after a call that does not revert. -/
def run (call : Call) (s : Storage) : Except Error Storage :=
  match call.action with
  | .attest p supersedes => do
      let issued ← attest call.env p supersedes s
      pure issued.2
  | .revoke attestationId reason => revoke call.env attestationId reason s

/-- One transaction. No transaction has the zero address as its sender. -/
def step (s : Storage) (call : Call) : Option Storage :=
  if call.env.sender = 0 then none
  else
    match run call s with
    | .ok t => some t
    | .error _ => some s

/-- The storage right after deployment. -/
def Initial (s : Storage) : Prop := s = {}

/-- Two attestations of one issuer, the second superseding the first. -/
def supersedingCalls : List Call :=
  let env : Env := { sender := 5, timestamp := 100, chainId := 1, contract := 9 }
  let p : Payload :=
    { schemaId := 1, schemaVersion := 1, subject := 2, referenceHash := 0, contentHash := 3
      metadataHash := 4, metadataUriHash := 5 }
  let first := @computeAttestationId Keccak.rolling env 5 1 (@computeCommitment Keccak.rolling p 0)
  [⟨env, .attest p 0⟩, ⟨env, .attest { p with contentHash := 6 } first⟩]

end Torium.Registry
