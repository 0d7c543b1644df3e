import Mathlib.Data.Prod.Lex
import Mathlib.Order.Lattice
import Torium.Generator.Input
import Torium.Lib.Utf8

/-!
# The signer-state guard

`signer-state-guard.mjs` decides whether a candidate home may replace the current home of a
validator: it reads the consensus key and the signer state of both and compares them. What
`JSON.parse` makes of a file is a value. The files, Ed25519, SHA-256 and the Base64 functions
of the runtime are parameters.
-/

namespace Torium.Operator

open Evm Generator

/-- The functions of the runtime. -/
structure NodeLibrary where
  fromBase64 : Text → Utf8.Bytes
  toBase64 : Utf8.Bytes → Text
  sha256 : Utf8.Bytes → Utf8.Bytes
  /-- The public key of a private seed. -/
  ed25519Public : Utf8.Bytes → Utf8.Bytes
  ed25519Verify : (message publicKey signature : Utf8.Bytes) → Bool

structure Metadata where
  isDirectory : Bool := false
  isFile : Bool := false
  isSymbolicLink : Bool := false
  mode : Nat
  size : Nat := 0

/-- The file system, as the guard sees it; an error is what a call throws. -/
structure Disk where
  resolve : Text → Text
  lstat : Text → Except String Metadata
  realpath : Text → Except String Text
  /-- `JSON.parse` of the text of a file. -/
  parse : Text → Except String Value

def keyRelativePath : Text := "config/priv_validator_key.json".toList

def stateRelativePath : Text := "data/priv_validator_state.json".toList

def maximumFileBytes : Nat := 64 * 1024

def maximumHeight : Nat := 9223372036854775807

def maximumRound : Int := 2147483647

/-- `path.join` of a home and a relative path. -/
def join (home relative : Text) : Text := home ++ '/' :: relative

/-! ## Texts -/

def isUpperHexDigit (c : Char) : Bool := Decimal.isDigit c || ('A' ≤ c && c ≤ 'F')

/-- `Buffer.from(value, "hex")` of an even number of upper-case digits. -/
def fromHex : Text → Utf8.Bytes
  | high :: low :: rest => UInt8.ofNat (Hexadecimal.value [high, low]) :: fromHex rest
  | _ => []

/-- `toString("hex").toUpperCase()`. -/
def toUpperHex (bytes : Utf8.Bytes) : Text :=
  bytes.flatMap fun b => (Hexadecimal.numeral 2 b.toNat).map Char.toUpper

def isBase64Digit (c : Char) : Bool :=
  Decimal.isDigit c || ('A' ≤ c && c ≤ 'Z') || ('a' ≤ c && c ≤ 'z') || c == '+' || c == '/'

/-- The pattern of padded Base64. -/
def isBase64 : Text → Bool
  | [] => true
  | [a, b, '=', '='] => isBase64Digit a && isBase64Digit b
  | [a, b, c, '='] => isBase64Digit a && isBase64Digit b && isBase64Digit c
  | a :: b :: c :: d :: rest =>
    isBase64Digit a && isBase64Digit b && isBase64Digit c && isBase64Digit d && isBase64 rest
  | _ => false

/-! ## Checks -/

section Checks

variable (lib : NodeLibrary)

def parseHeight (value : Value) (label : String) : Except String Nat :=
  match value with
  | .string text =>
    if Decimal.isCanonical text then
      if maximumHeight < Decimal.value text then
        throw (label ++ " must fit a non-negative CometBFT int64")
      else pure (Decimal.value text)
    else throw (label ++ " must be a non-negative decimal string")
  | _ => throw (label ++ " must be a non-negative decimal string")

def decodeBoundedBase64 (value : Value) (label : String) : Except String Utf8.Bytes :=
  match value with
  | .string text => do
      throwIf (text.length < 4 ∨ 16 * 1024 < text.length ∨ isBase64 text = false)
        (label ++ " must be canonical bounded base64")
      let decoded := lib.fromBase64 text
      throwIf (lib.toBase64 decoded ≠ text) (label ++ " must be canonical bounded base64")
      pure decoded
  | _ => throw (label ++ " must be canonical bounded base64")

def decodeCanonicalBase64 (value : Value) (bytes : Nat) (label : String) :
    Except String Utf8.Bytes := do
  let decoded ← decodeBoundedBase64 lib value label
  throwIf (decoded.length ≠ bytes) (label ++ " must decode to " ++ toString bytes ++ " bytes")
  pure decoded

def decodeCanonicalUpperHex (value : Value) (label : String) : Except String Utf8.Bytes :=
  match value with
  | .string text => do
      throwIf (text.length < 2 ∨ 32 * 1024 < text.length ∨ text.length % 2 ≠ 0 ∨
          text.all isUpperHexDigit = false)
        (label ++ " must be canonical bounded uppercase hex")
      throwIf (toUpperHex (fromHex text) ≠ text)
        (label ++ " must be canonical bounded uppercase hex")
      pure (fromHex text)
  | _ => throw (label ++ " must be canonical bounded uppercase hex")

/-- The sorted keys are the expected ones. -/
def assertExactKeys (value : Value) (expected : List Text) (label : String) :
    Except String (List (Text × Value)) :=
  match value with
  | .object members =>
    if (members.map Prod.fst).isPerm expected then pure members
    else throw (label ++ " fields differ from the contract")
  | _ => throw (label ++ " must be an object")

def assertAllowedKeys (value : Value) (required optional : List Text) (label : String) :
    Except String (List (Text × Value)) :=
  match value with
  | .object members => do
      throwIf (∃ field ∈ required, field ∉ members.map Prod.fst)
        (label ++ " fields differ from the contract")
      throwIf (∃ field ∈ members.map Prod.fst, field ∉ required ++ optional)
        (label ++ " fields differ from the contract")
      pure members
  | _ => throw (label ++ " must be an object")

/-- The text of a member that has to be equal to a text or match a pattern. -/
def textMember (members : List (Text × Value)) (key : String) : Option Text :=
  match member members key.toList with
  | .string text => some text
  | _ => none

/-- What the guard compares of a consensus key. -/
structure SignerKey where
  address : Text
  pubKeyType : Text
  pubKeyValue : Text
  deriving DecidableEq

/-- An address that is not a text is refused with the pattern here; the source turns it into a
text for the pattern and refuses it at the last check. -/
def validateKey (key : Value) (label : String) : Except String SignerKey := do
  let fields ← assertExactKeys key
    ["address".toList, "priv_key".toList, "pub_key".toList] label
  let pubKey ← assertExactKeys (member fields "pub_key".toList) ["type".toList, "value".toList]
    (label ++ " public key")
  let privKey ← assertExactKeys (member fields "priv_key".toList) ["type".toList, "value".toList]
    (label ++ " private key")
  let address ← orRevert (label ++ " address must be uppercase 20-byte hex")
    ((textMember fields "address").filter fun address =>
      address.length == 40 && address.all isUpperHexDigit)
  throwIf (textMember pubKey "type" ≠ some "tendermint/PubKeyEd25519".toList)
    (label ++ " public key type is unsupported")
  throwIf (textMember privKey "type" ≠ some "tendermint/PrivKeyEd25519".toList)
    (label ++ " private key type is unsupported")
  let publicBytes ← decodeCanonicalBase64 lib (member pubKey "value".toList) 32
    (label ++ " public key")
  let privateBytes ← decodeCanonicalBase64 lib (member privKey "value".toList) 64
    (label ++ " private key")
  throwIf (privateBytes.drop 32 ≠ publicBytes)
    (label ++ " public and private key material disagree")
  throwIf (lib.ed25519Public (privateBytes.take 32) ≠ publicBytes)
    (label ++ " private-key seed does not derive the public key")
  throwIf (toUpperHex ((lib.sha256 publicBytes).take 20) ≠ address)
    (label ++ " address differs from the public key")
  pure { address, pubKeyType := "tendermint/PubKeyEd25519".toList
         pubKeyValue := (textMember pubKey "value").getD [] }

/-- A signer state that has passed the checks. -/
structure SignerState where
  height : Text
  round : Int
  step : Int
  signature : Option Text
  signbytes : Option Text
  deriving DecidableEq

/-- `Number.isSafeInteger` and a range. -/
def safeInteger? (value : Value) (least most : Int) : Option Int :=
  match value with
  | .number (some n) =>
    if n.natAbs ≤ MAX_SAFE_INTEGER ∧ least ≤ n ∧ n ≤ most then some n else none
  | _ => none

/-- `value ?? null`. -/
def present (members : List (Text × Value)) (key : String) : Bool :=
  match member members key.toList with
  | .null => false
  | _ => true

def validateState (state : Value) (label : String) (publicKeyBase64 : Text) :
    Except String SignerState := do
  let fields ← assertAllowedKeys state ["height".toList, "round".toList, "step".toList]
    ["signature".toList, "signbytes".toList] label
  let height ← parseHeight (member fields "height".toList) (label ++ " height")
  let round ← orRevert (label ++ " round must fit a non-negative CometBFT int32")
    (safeInteger? (member fields "round".toList) 0 maximumRound)
  let step ← orRevert (label ++ " step must be an integer from 0 through 3")
    (safeInteger? (member fields "step".toList) 0 3)
  throwIf (present fields "signature" ≠ present fields "signbytes")
    (label ++ " signature and signbytes must appear together")
  if height = 0 then
    throwIf (round ≠ 0 ∨ step ≠ 0 ∨ present fields "signature")
      (label ++ " initial state must be (0,0,0) and unsigned")
  else do
    throwIf (step < 1 ∨ present fields "signature" = false)
      (label ++ " signed state requires step 1 through 3")
    let signatureBytes ← decodeCanonicalBase64 lib (member fields "signature".toList) 64
      (label ++ " signature")
    let signBytes ← decodeCanonicalUpperHex (member fields "signbytes".toList)
      (label ++ " signbytes")
    let publicBytes ← decodeCanonicalBase64 lib (.string publicKeyBase64) 32
      (label ++ " public key")
    throwIf (lib.ed25519Verify signBytes publicBytes signatureBytes = false)
      (label ++ " signature does not verify over signbytes")
  pure { height := (textMember fields "height").getD [], round, step
         signature := textMember fields "signature", signbytes := textMember fields "signbytes" }

/-! ## Homes -/

variable (disk : Disk)

def requireRealDirectory (target : Text) (label : String) : Except String Text := do
  let metadata ← disk.lstat target
  throwIf (metadata.isDirectory = false ∨ metadata.isSymbolicLink = true)
    (label ++ " must be a real directory")
  throwIf (metadata.mode % 0o1000 ≠ 0o700) (label ++ " mode must be 0700")
  disk.realpath target

def readStrictJson (target : Text) (label : String) : Except String Value := do
  let metadata ← disk.lstat target
  throwIf (metadata.isFile = false ∨ metadata.isSymbolicLink = true)
    (label ++ " must be a regular file")
  throwIf (metadata.mode % 0o1000 ≠ 0o600) (label ++ " mode must be 0600")
  throwIf (metadata.size < 2 ∨ maximumFileBytes < metadata.size)
    (label ++ " size is outside the allowed range")
  match disk.parse target with
  | .error _ => throw (label ++ " must contain valid JSON")
  | .ok (.object members) => pure (.object members)
  | .ok _ => throw (label ++ " must contain one JSON object")

structure SignerHome where
  home : Text
  key : SignerKey
  state : SignerState
  label : String

def readSignerHome (homeValue : Value) (label : String) : Except String SignerHome := do
  let path ← match homeValue with
    | .string (first :: rest) => pure (first :: rest)
    | _ => throw (label ++ " signer home is required")
  let home ← requireRealDirectory disk (disk.resolve path) (label ++ " home")
  let _ ← requireRealDirectory disk (join home "config".toList) (label ++ " config")
  let _ ← requireRealDirectory disk (join home "data".toList) (label ++ " data")
  let key ← readStrictJson disk (join home keyRelativePath) (label ++ " consensus key")
  let key ← validateKey lib key (label ++ " consensus key")
  let state ← readStrictJson disk (join home stateRelativePath) (label ++ " signer state")
  let state ← validateState lib state (label ++ " signer state") key.pubKeyValue
  pure { home, key, state, label }

/-! ## The decision -/

/-- The first place at which two lists of numbers differ decides. -/
def compareValues : List Int → List Int → Int
  | left :: lefts, right :: rights =>
    if left < right then -1 else if right < left then 1 else compareValues lefts rights
  | _, _ => 0

def comparePosition (left right : SignerState) : Int :=
  compareValues [Decimal.value left.height, left.round, left.step]
    [Decimal.value right.height, right.round, right.step]

structure PublicPosition where
  height : Text
  round : Int
  step : Int

def publicPosition (state : SignerState) : PublicPosition :=
  { height := state.height, round := state.round, step := state.step }

structure RestoreOptions where
  currentHome : Value
  candidateHome : Value
  validatorStopped : Value
  trustedMaximumHeight : Value

structure RestoreReport where
  valid : Bool
  sameConsensusIdentity : Bool
  candidateNotBehind : Bool
  samePosition : Bool
  currentPosition : PublicPosition
  candidatePosition : PublicPosition
  trustedMaximumHeight : Text
  secretMaterialReturned : Bool
  validatorStoppedEvidenceAccepted : Bool

def validateSignerRestore (options : RestoreOptions) : Except String RestoreReport := do
  match options.validatorStopped with
  | .bool true => pure ()
  | _ => throw "validator-stopped evidence is required"
  let trustedCeiling ← parseHeight options.trustedMaximumHeight "trusted maximum signer height"
  let current ← readSignerHome lib disk options.currentHome "current"
  let candidate ← readSignerHome lib disk options.candidateHome "candidate"
  throwIf (current.home = candidate.home) "current and candidate signer homes must differ"
  throwIf (current.key ≠ candidate.key) "candidate consensus identity differs from current signer"
  for signer in [current, candidate] do
    throwIf (trustedCeiling < Decimal.value signer.state.height)
      (signer.label ++ " signer state exceeds trusted maximum height")
  let positionComparison := comparePosition candidate.state current.state
  throwIf (positionComparison < 0) "candidate signer state is behind current signer state"
  throwIf (positionComparison = 0 ∧ (candidate.state.signbytes ≠ current.state.signbytes ∨
      candidate.state.signature ≠ current.state.signature))
    "same signer position has different sign bytes or signature"
  pure
    { valid := true, sameConsensusIdentity := true, candidateNotBehind := true
      samePosition := positionComparison = 0
      currentPosition := publicPosition current.state
      candidatePosition := publicPosition candidate.state
      trustedMaximumHeight := decimal trustedCeiling
      secretMaterialReturned := false, validatorStoppedEvidenceAccepted := true }

end Checks

end Torium.Operator
