import Torium.Registry.Contract
import Torium.Sdk.Values

/-!
# The attestation preflight

`preflightToriumAttestation` predicts what `attest` will do: it derives the replay key, the
commitment and the identifier as the registry does, and it reads the registry to check the
replay and supersession rules. The wrapper for reads adds retries and cancellation and returns
what the action returns.

`registryClient` is the client that answers every read from one storage.
-/

namespace Torium.Sdk

open Evm Generator

structure AttestationPayload where
  schemaId : Text
  /-- The integer that the number is, if it is one. -/
  schemaVersion : Option Int
  subject : Text
  referenceHash : Option Text
  contentHash : Text
  metadataHash : Text
  metadataUriHash : Text

def validateToriumAttestationPayload (payload : AttestationPayload) : Except String Unit := do
  throwIf (payload.schemaId = zeroHash) "Torium attestation schema ID must not be zero."
  throwIf (∀ version ∈ payload.schemaVersion, version < 1 ∨ 0xffffffff < version)
    "Torium attestation schema version must be a uint32 from 1 upward."
  throwIf (payload.subject = zeroHash) "Torium attestation subject must not be zero."
  throwIf (payload.contentHash = zeroHash) "Torium attestation content hash must not be zero."
  throwIf (payload.metadataHash = zeroHash) "Torium attestation metadata hash must not be zero."
  throwIf (payload.metadataUriHash = zeroHash)
    "Torium attestation metadata URI hash must not be zero."

section Hashing

variable [Keccak] (format : AddressFormat)

/-- The words of the payload fields, in the order in which they are encoded. -/
def encodePayload (payload : AttestationPayload) : Except String (List Word) := do
  let schemaId ← encodeBytes32 payload.schemaId
  let schemaVersion ← encodeUint (payload.schemaVersion.getD 0)
  let subject ← encodeBytes32 payload.subject
  let referenceHash ← encodeBytes32 (payload.referenceHash.getD zeroHash)
  let contentHash ← encodeBytes32 payload.contentHash
  let metadataHash ← encodeBytes32 payload.metadataHash
  let metadataUriHash ← encodeBytes32 payload.metadataUriHash
  pure [schemaId, schemaVersion, subject, referenceHash, contentHash, metadataHash,
    metadataUriHash]

def computeToriumAttestationCommitment (payload : AttestationPayload) (supersedes : Text) :
    Except String Text := do
  validateToriumAttestationPayload payload
  let words ← encodePayload payload
  let supersedes ← encodeBytes32 supersedes
  pure (hashText (keccak256 (abiEncode (words ++ [supersedes]))))

def computeToriumAttestationReplayKey (issuer : Text) (payload : AttestationPayload) :
    Except String Text := do
  validateToriumAttestationPayload payload
  let issuer ← getAddress format issuer
  let issuer ← encodeAddress format issuer
  let words ← encodePayload payload
  pure (hashText (keccak256 (abiEncode (issuer.setWidth 256 :: words))))

def computeToriumAttestationId (chainId : Int) (registry issuer : Text) (issuerNonce : Int)
    (commitment : Text) : Except String Text := do
  let chainId ← assertToriumUint256 chainId
  let chainId ← encodeUint chainId
  let registry ← getAddress format registry
  let registry ← encodeAddress format registry
  let issuer ← getAddress format issuer
  let issuer ← encodeAddress format issuer
  let issuerNonce ← assertToriumUint256 issuerNonce
  let issuerNonce ← encodeUint issuerNonce
  let commitment ← encodeBytes32 commitment
  pure (hashText (keccak256 (abiEncode
    [chainId, registry.setWidth 256, issuer.setWidth 256, issuerNonce, commitment])))

end Hashing

/-! ## Reads -/

inductive AttestationRead where
  | usedPayloads (replayKey : Text)
  | issuerNonces (issuer : Text)
  | statusOf (attestationId : Text)
  | getAttestation (attestationId : Text)

structure AttestationClient where
  readContract : (address : Text) → AttestationRead → Except String Raw
  getChainId : Int

def registryName : String := "toriumAttestationRegistry"

def toriumAttestationStatuses : List Registry.Status := [.missing, .active, .superseded, .revoked]

def parseAttestationStatus (raw : Raw) : Except String Registry.Status :=
  let index : Int := match raw with
    | .number (some index) => index
    | .bigint index => index
    | _ => -1
  if index < 0 then throw (invalidContractResponse registryName "statusOf")
  else
    orRevert (invalidContractResponse registryName "statusOf")
      toriumAttestationStatuses[index.toNat]?

/-- A record as the SDK returns it. -/
structure Attestation where
  attestationId : Text
  status : Registry.Status
  schemaId : Text
  schemaVersion : Int
  issuer : Text
  issuerNonce : Int
  subject : Text
  referenceHash : Text
  contentHash : Text
  metadataHash : Text
  metadataUriHash : Text
  supersedes : Text
  supersededBy : Text
  createdAt : Int
  revokedAt : Int
  supersededAt : Int
  revocationReasonHash : Text

def isObjectLike : Raw → Bool
  | .object _ | .array _ => true
  | _ => false

def parseAttestation (format : AddressFormat) (raw : Raw) (attestationId : Text)
    (status : Registry.Status) : Except String Attestation := do
  throwIf (isObjectLike raw = false) (invalidContractResponse registryName "getAttestation")
  let uint (key : String) := parseUint registryName ("attestation." ++ key) (raw.property key)
  let hash (key : String) := parseHashValue registryName ("attestation." ++ key) (raw.property key)
  let schemaVersion ← uint "schemaVersion"
  let schemaId ← hash "schemaId"
  let issuer ← parseAddressValue format registryName "attestation.issuer" (raw.property "issuer")
  let issuerNonce ← uint "issuerNonce"
  let subject ← hash "subject"
  let referenceHash ← hash "referenceHash"
  let contentHash ← hash "contentHash"
  let metadataHash ← hash "metadataHash"
  let metadataUriHash ← hash "metadataUriHash"
  let supersedes ← hash "supersedes"
  let supersededBy ← hash "supersededBy"
  let createdAt ← uint "createdAt"
  let revokedAt ← uint "revokedAt"
  let supersededAt ← uint "supersededAt"
  let revocationReasonHash ← hash "revocationReasonHash"
  pure { attestationId, status, schemaId, schemaVersion, issuer, issuerNonce, subject
         referenceHash, contentHash, metadataHash, metadataUriHash, supersedes, supersededBy
         createdAt, revokedAt, supersededAt, revocationReasonHash }

/-! ## The preflight -/

inductive AttestationBlocker where
  | duplicatePayload
  | supersedesNotFound
  | supersedesNotActive
  | supersedesIssuerMismatch
  | supersedesSchemaMismatch
  | supersedesSubjectMismatch
  deriving DecidableEq

structure AttestationPreflight where
  canAttest : Bool
  blockers : List AttestationBlocker
  replayKey : Text
  predictedIssuerNonce : Int
  predictedCommitment : Text
  predictedAttestationId : Text

structure AttestationParameters where
  deployment : Option Text
  issuer : Text
  payload : AttestationPayload
  supersedes : Option Text

section Preflight

variable [Keccak] (format : AddressFormat) (registryEntry : RegistryEntry)
  (client : AttestationClient)

/-- The blockers of the record that is superseded, if one is named. -/
def supersessionBlockers (address issuer supersedes : Text) (payload : AttestationPayload) :
    Except String (List AttestationBlocker) :=
  if supersedes = zeroHash then pure []
  else do
    let status ← parseAttestationStatus (← client.readContract address (.statusOf supersedes))
    if status = .missing then pure [.supersedesNotFound]
    else if status ≠ .active then pure [.supersedesNotActive]
    else do
      let raw ← client.readContract address (.getAttestation supersedes)
      let prior ← parseAttestation format raw supersedes status
      pure (blockIf (prior.issuer ≠ issuer) .supersedesIssuerMismatch ++
        blockIf (prior.schemaId ≠ payload.schemaId) .supersedesSchemaMismatch ++
        blockIf (prior.subject ≠ payload.subject) .supersedesSubjectMismatch)

def preflightToriumAttestation (parameters : AttestationParameters) :
    Except String AttestationPreflight := do
  let address ← resolveToriumContractDeployment format registryName registryEntry
    parameters.deployment
  let issuer ← getAddress format parameters.issuer
  let supersedes := parameters.supersedes.getD zeroHash
  let replayKey ← computeToriumAttestationReplayKey format issuer parameters.payload
  let rawUsed ← client.readContract address (.usedPayloads replayKey)
  let rawNonce ← client.readContract address (.issuerNonces issuer)
  let used ← parseBooleanValue registryName "usedPayloads" rawUsed
  let prior ← supersessionBlockers format client address issuer supersedes parameters.payload
  let blockers := blockIf (used = true) .duplicatePayload ++ prior
  let nonce ← parseUint registryName "issuerNonces" rawNonce
  let predictedIssuerNonce := nonce + 1
  let predictedCommitment ← computeToriumAttestationCommitment parameters.payload supersedes
  let predictedAttestationId ← computeToriumAttestationId format client.getChainId address issuer
    predictedIssuerNonce predictedCommitment
  pure { canAttest := blockers.isEmpty, blockers, replayKey, predictedIssuerNonce
         predictedCommitment, predictedAttestationId }

end Preflight

/-! ## A client of one storage -/

def statusIndex : Registry.Status → Int
  | .missing => 0
  | .active => 1
  | .superseded => 2
  | .revoked => 3

def decodeAttestation (format : AddressFormat) (a : Registry.Attestation) : Raw :=
  .object
    [("schemaId", .string (hashText a.schemaId)),
      ("schemaVersion", .number (some a.schemaVersion.toNat)),
      ("issuer", .string (format.checksum a.issuer)),
      ("issuerNonce", .bigint a.issuerNonce.toNat),
      ("subject", .string (hashText a.subject)),
      ("referenceHash", .string (hashText a.referenceHash)),
      ("contentHash", .string (hashText a.contentHash)),
      ("metadataHash", .string (hashText a.metadataHash)),
      ("metadataUriHash", .string (hashText a.metadataUriHash)),
      ("supersedes", .string (hashText a.supersedes)),
      ("supersededBy", .string (hashText a.supersededBy)),
      ("createdAt", .bigint a.createdAt.toNat),
      ("revokedAt", .bigint a.revokedAt.toNat),
      ("supersededAt", .bigint a.supersededAt.toNat),
      ("revocationReasonHash", .string (hashText a.revocationReasonHash))]

/-- The answers of a node at which the registry has the given storage. There is no contract at
any other address. -/
def registryClient (format : AddressFormat) (env : Registry.Env) (s : Registry.Storage) :
    AttestationClient where
  readContract address read := do
    throwIf (format.parse address ≠ some env.contract) "ContractFunctionZeroDataError"
    match read with
    | .usedPayloads replayKey => do
        let replayKey ← encodeBytes32 replayKey
        pure (.bool (s.usedPayloads replayKey))
    | .issuerNonces issuer => do
        let issuer ← encodeAddress format issuer
        pure (.bigint (s.issuerNonces issuer).toNat)
    | .statusOf attestationId => do
        let attestationId ← encodeBytes32 attestationId
        pure (.number (some (statusIndex (Registry.statusOf s attestationId))))
    | .getAttestation attestationId => do
        let attestationId ← encodeBytes32 attestationId
        match Registry.requireAttestation s attestationId with
        | .ok attestation => pure (decodeAttestation format attestation)
        | .error _ => throw "ContractFunctionRevertedError"
  getChainId := env.chainId.toNat

end Torium.Sdk
