import Mathlib.Data.List.Sort
import Torium.Evm.Basic
import Torium.Lib.Decimal
import Torium.Lib.Hexadecimal

/-!
# Input of the reward fixture generator

`generate-reward-fixture.mjs` reads an array of claim objects and normalizes it.
Texts are lists of characters and big integers are natural numbers. A number of
the input is given by its integer value if it has one, since nothing else of it
is ever used. The address functions come from a library outside the repository
and are a parameter.
-/

namespace Torium.Generator

open Evm

abbrev Text : Type := List Char

instance : LawfulBEq Text := inferInstance

/-- A parsed JSON value, or a CSV row as an object of texts. Object members stand
in the order in which the keys are enumerated. -/
inductive Value where
  | null
  | bool (value : Bool)
  | number (integer : Option Int)
  | string (value : Text)
  | array (items : List Value)
  | object (members : List (Text × Value))

/-- The address functions of the library: the strict checksum test, the checksummed
spelling, and the address that a text is encoded as. -/
structure AddressLibrary where
  isAddress : Text → Bool
  getAddress : Text → Option Text
  encodeAddress : Text → Option Address

def UINT256_MAX : Nat := 2 ^ 256 - 1

def MAX_SAFE_INTEGER : Int := 2 ^ 53 - 1

/-- The decimal digits of a big integer. -/
def decimal (n : Nat) : Text := Nat.toDigits 10 n

/-- The pattern `^0x[0-9a-fA-F]{40}$`. -/
def isHexAddress : Text → Bool
  | '0' :: 'x' :: digits => digits.length == 40 && digits.all Hexadecimal.isDigit
  | _ => false

/-- The pattern `^0x0{40}$`. -/
def isZeroAddress : Text → Bool
  | '0' :: 'x' :: digits => digits.length == 40 && digits.all (· == '0')
  | _ => false

/-- The same pattern when letter case is ignored. -/
def isZeroAddressAnyCase : Text → Bool
  | '0' :: x :: digits => x.toLower == 'x' && digits.length == 40 && digits.all (· == '0')
  | _ => false

/-- The statement `if (condition) throw new Error(message);`. -/
abbrev throwIf (condition : Prop) [Decidable condition] (message : String) : Except String Unit :=
  revertIf condition message

/-- The decimal of a number or of a text, as a big integer. -/
def parseDecimal (value : Value) (label : String) : Except String Nat :=
  match value with
  | .number (some n) =>
    if n < 0 ∨ MAX_SAFE_INTEGER < n then
      throw (label ++ " must be a safe nonnegative integer or canonical decimal string")
    else pure (Decimal.value (decimal n.toNat))
  | .number none =>
    throw (label ++ " must be a safe nonnegative integer or canonical decimal string")
  | .string text =>
    if Decimal.isCanonical text then pure (Decimal.value text)
    else throw (label ++ " must be a canonical nonnegative decimal uint256")
  | _ => throw (label ++ " must be a canonical nonnegative decimal uint256")

def parseUint256 (value : Value) (label : String) (positive : Bool) : Except String Nat := do
  let parsed ← parseDecimal value label
  throwIf (UINT256_MAX < parsed) (label ++ " exceeds uint256")
  throwIf (positive = true ∧ parsed = 0) (label ++ " must be positive")
  pure parsed

def parseAddress (lib : AddressLibrary) (value : Value) (label : String) (nonzero : Bool) :
    Except String Text := do
  match value with
  | .string text =>
    throwIf (isHexAddress text = false) (label ++ " must be a valid EVM address")
    throwIf (lib.isAddress text = false) (label ++ " has an invalid EIP-55 checksum")
    match lib.getAddress text with
    | some address =>
      throwIf (nonzero = true ∧ isZeroAddress address)
        (label ++ " must not be the zero address")
      pure address
    | none =>
      throwIf (nonzero = true ∧ isZeroAddressAnyCase text)
        (label ++ " must not be the zero address")
      throw (label ++ " has an invalid EIP-55 checksum")
  | _ => throw (label ++ " must be a valid EVM address")

def CLAIM_KEYS : List Text := ["index".toList, "account".toList, "amount".toList]

def validateExactKeys (members : List (Text × Value)) (allowed : List Text) (label : String) :
    Except String Unit := do
  match members.find? fun member => !allowed.contains member.1 with
  | some member => throw (label ++ "." ++ String.ofList member.1 ++ " is not allowed")
  | none => pure ()
  match allowed.find? fun key => !(members.map Prod.fst).contains key with
  | some key => throw (label ++ "." ++ String.ofList key ++ " is required")
  | none => pure ()

/-- The member of a key; a key that is missing is undefined, which no parser accepts. -/
def member (members : List (Text × Value)) (key : Text) : Value :=
  (members.lookup key).getD .null

structure Claim where
  index : Nat
  account : Text
  amount : Nat
  deriving DecidableEq

def Claim.indexKey (claim : Claim) : Text := decimal claim.index

def Claim.accountKey (claim : Claim) : Text := claim.account.map Char.toLower

/-- One element of the input array. -/
def parseClaim (lib : AddressLibrary) (label : String) : Value → Except String Claim
  | .object members => do
      validateExactKeys members CLAIM_KEYS label
      let index ← parseUint256 (member members "index".toList) (label ++ ".index") false
      let account ← parseAddress lib (member members "account".toList) (label ++ ".account") true
      let amount ← parseUint256 (member members "amount".toList) (label ++ ".amount") true
      pure { index, account, amount }
  | _ => throw (label ++ " must be an object")

/-- The loop of `normalizeClaims`, with the keys that were already seen. -/
def collectClaims (lib : AddressLibrary) (indexes accounts : List Text) (position : Nat) :
    List Value → Except String (List Claim)
  | [] => pure []
  | value :: values => do
      let label := "claim[" ++ toString position ++ "]"
      let claim ← parseClaim lib label value
      throwIf (claim.indexKey ∈ indexes)
        (label ++ ".index duplicates index " ++ String.ofList claim.indexKey)
      throwIf (claim.accountKey ∈ accounts)
        (label ++ ".account duplicates account " ++ String.ofList claim.account)
      let rest ← collectClaims lib (claim.indexKey :: indexes) (claim.accountKey :: accounts)
        (position + 1) values
      pure (claim :: rest)

def normalizeClaims (lib : AddressLibrary) (claims : List Value) : Except String (List Claim) := do
  throwIf (claims.isEmpty = true) "input must contain at least one claim"
  let normalized ← collectClaims lib [] [] 0 claims
  pure (normalized.insertionSort fun left right => left.index ≤ right.index)

end Torium.Generator
