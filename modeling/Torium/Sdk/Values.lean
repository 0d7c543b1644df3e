import Torium.Evm.Abi
import Torium.Generator.Input
import Torium.Lib.Hexadecimal

/-!
# Values of the SDK

What a contract read returns is a decoded value of the ABI: integers of up to 48 bits are
numbers, wider ones are big integers, hashes and addresses are texts. The SDK checks every such
value before it uses it. Hashes are compared as texts, so their spelling matters: a decoded hash
is spelled in lower case, one that a caller passes may have any letter case.
-/

namespace Torium.Sdk

open Evm Generator

theorem ok_bind {ε α β : Type} (a : α) (f : α → Except ε β) :
    ((.ok a : Except ε α) >>= f) = f a := rfl

theorem ok_of_any {ε α : Type} {result : Except ε α} {holds : α → Bool}
    (any : result.toOption.any holds) : ∃ a, result = .ok a ∧ holds a := by
  cases result with
  | error => cases any
  | ok a => exact ⟨a, rfl, any⟩

/-! ## Hashes as texts -/

/-- A well-formed 32-byte hash, in any letter case. -/
def isHash : Text → Bool
  | '0' :: 'x' :: digits => digits.length == 64 && digits.all Hexadecimal.isDigit
  | _ => false

def hashValue (text : Text) : Bytes32 := BitVec.ofNat 256 (Hexadecimal.value (text.drop 2))

/-- The spelling of a hash in a result of the library. -/
def hashText (hash : Bytes32) : Text := '0' :: 'x' :: Hexadecimal.numeral 64 hash.toNat

def zeroHash : Text := hashText 0

def toLowerCase (text : Text) : Text := text.map Char.toLower

variable {text : Text}

theorem isHash_cases (hash : isHash text) : ∃ digits,
    text = '0' :: 'x' :: digits ∧ digits.length = 64 ∧ digits.all Hexadecimal.isDigit := by
  unfold isHash at hash
  split at hash
  · rename_i digits
    rw [Bool.and_eq_true, beq_iff_eq] at hash
    exact ⟨digits, rfl, hash⟩
  · cases hash

theorem isHash_hashText (hash : Bytes32) : isHash (hashText hash) := by
  rw [hashText, isHash, Hexadecimal.length_numeral, Hexadecimal.all_isDigit_numeral]
  rfl

theorem hashValue_hashText (hash : Bytes32) : hashValue (hashText hash) = hash := by
  rw [hashValue, hashText, List.drop_succ_cons, List.drop_succ_cons, List.drop_zero,
    Hexadecimal.value_numeral, Nat.mod_eq_of_lt (show hash.toNat < 16 ^ 64 from hash.isLt),
    BitVec.ofNat_toNat, BitVec.setWidth_eq]

theorem hashText_injective : Function.Injective hashText := fun first second same => by
  rw [← hashValue_hashText first, same, hashValue_hashText]

/-- Every spelling of a hash has the same lower-case form. -/
theorem toLowerCase_eq (hash : isHash text) :
    toLowerCase text = hashText (hashValue text) := by
  obtain ⟨digits, rfl, length, valid⟩ := isHash_cases hash
  have bound := Hexadecimal.value_lt valid
  rw [length] at bound
  have value : (hashValue ('0' :: 'x' :: digits)).toNat = Hexadecimal.value digits :=
    (BitVec.toNat_ofNat _ _).trans (Nat.mod_eq_of_lt bound)
  rw [hashText, value, ← length, Hexadecimal.numeral_value valid]
  rfl

theorem toLowerCase_hashText (hash : Bytes32) : toLowerCase (hashText hash) = hashText hash := by
  rw [toLowerCase_eq (isHash_hashText hash), hashValue_hashText]

/-- The zero hash has no letters, so it has one spelling. -/
theorem eq_zeroHash_iff (hash : isHash text) :
    text = zeroHash ↔ hashValue text = 0 := by
  constructor
  · rintro rfl
    exact hashValue_hashText 0
  · intro zero
    have lower := toLowerCase_eq hash
    rw [zero] at lower
    obtain ⟨digits, rfl, length, valid⟩ := isHash_cases hash
    have zeros : digits.map Char.toLower = List.replicate 64 '0' := by
      have same : '0' :: 'x' :: digits.map Char.toLower = '0' :: 'x' :: List.replicate 64 '0' :=
        lower
      exact (List.cons.inj (List.cons.inj same).2).2
    have all (c : Char) (member : c ∈ digits) : c = '0' := by
      have low : c.toLower = '0' := List.eq_of_mem_replicate (zeros ▸ List.mem_map_of_mem member)
      exact of_decide_eq_true (Hexadecimal.forall_digit (p := fun c => c.toLower = '0' → c = '0')
        (by decide) (List.all_eq_true.mp valid c member)) low
    rw [List.eq_replicate_iff.mpr ⟨length, all⟩]
    rfl

/-! ## Addresses -/

/-- The address functions of the library: the address that a text stands for, if it is one, and
the checksummed spelling. -/
structure AddressFormat where
  parse : Text → Option Address
  checksum : Address → Text
  parse_checksum : ∀ address, parse (checksum address) = some address

namespace Demo

/-- Addresses in lower case; one without letters is spelled so with a checksum, too. -/
def format : AddressFormat where
  parse text :=
    if text.take 2 = ['0', 'x'] ∧ text.length = 42 ∧ (text.drop 2).all Hexadecimal.isDigit then
      some (BitVec.ofNat 160 (Hexadecimal.value (text.drop 2)))
    else none
  checksum address := '0' :: 'x' :: Hexadecimal.numeral 40 address.toNat
  parse_checksum address := by
    have bound : address.toNat < 16 ^ 40 := address.isLt
    rw [if_pos ⟨rfl, by simp, Hexadecimal.all_isDigit_numeral _ _⟩, List.drop_succ_cons,
      List.drop_succ_cons, List.drop_zero, Hexadecimal.value_numeral, Nat.mod_eq_of_lt bound,
      BitVec.ofNat_toNat, BitVec.setWidth_eq]

end Demo

variable (format : AddressFormat)

def getAddress (text : Text) : Except String Text :=
  match format.parse text with
  | some address => pure (format.checksum address)
  | none => throw "InvalidAddressError"

/-- The ABI encoding of an address, which is only ever one that `getAddress` returned. -/
def encodeAddress (text : Text) : Except String Address :=
  orRevert "InvalidAddressError" (format.parse text)

def encodeBytes32 (text : Text) : Except String Bytes32 :=
  if isHash text then pure (hashValue text) else throw "AbiEncodingBytesSizeMismatchError"

theorem getAddress_eq {address : Address} (parsed : format.parse text = some address) :
    getAddress format text = .ok (format.checksum address) := by
  rw [getAddress, parsed]
  rfl

theorem encodeAddress_checksum (address : Address) :
    encodeAddress format (format.checksum address) = .ok address := by
  rw [encodeAddress, format.parse_checksum]
  rfl

theorem encodeBytes32_eq (hash : isHash text) :
    encodeBytes32 text = .ok (hashValue text) := if_pos hash

theorem checksum_injective : Function.Injective format.checksum := fun first second same => by
  have parsed := format.parse_checksum first
  rw [same, format.parse_checksum] at parsed
  exact (Option.some.inj parsed).symm

/-! ## Decoded values -/

inductive Raw where
  | undefined
  | bool (value : Bool)
  | number (integer : Option Int)
  | bigint (value : Int)
  | string (value : Text)
  | array (items : List Raw)
  | object (members : List (String × Raw))

def Raw.property (raw : Raw) (key : String) : Raw :=
  match raw with
  | .object members => (members.lookup key).getD .undefined
  | _ => .undefined

def Raw.item (raw : Raw) (index : Nat) : Raw :=
  match raw with
  | .array items => items.getD index .undefined
  | _ => .undefined

def assertToriumUint256 (value : Int) : Except String Int := do
  throwIf (value < 0 ∨ (UINT256_MAX : Int) < value)
    "Torium integer must fit the unsigned EVM uint256 range."
  pure value

theorem assertToriumUint256_ok {value result : Int} :
    assertToriumUint256 value = .ok result ↔ value = result ∧ 0 ≤ value ∧ value ≤ UINT256_MAX := by
  rw [assertToriumUint256, throwIf, revertIf]
  split_ifs with outside
  · constructor
    · intro impossible
      cases impossible
    · rintro ⟨-, nonneg, fits⟩
      omega
  · constructor
    · intro accepted
      cases accepted
      exact ⟨rfl, by omega, by omega⟩
    · rintro ⟨rfl, -, -⟩
      rfl

/-- An integer as a word of the ABI. -/
def encodeUint (value : Int) : Except String Word := do
  throwIf (value < 0 ∨ (UINT256_MAX : Int) < value) "IntegerOutOfRangeError"
  pure (BitVec.ofInt 256 value)

theorem encodeUint_toNat (word : Word) : encodeUint (word.toNat : Int) = .ok word := by
  have bound := word.isLt
  have fits : ¬ ((word.toNat : Int) < 0 ∨ (UINT256_MAX : Int) < word.toNat) := by
    simp only [UINT256_MAX]
    omega
  rw [encodeUint, throwIf, revertIf, if_neg fits, BitVec.ofInt_natCast]
  exact congrArg Except.ok (BitVec.eq_of_toNat_eq (by simp))

def invalidContractResponse (contractName label : String) : String :=
  "The endpoint returned an invalid " ++ contractName ++ " " ++ label ++ " response."

/-- What the generated registry says about a contract. -/
structure RegistryEntry where
  address : Option Text
  status : String

/-- The address of a deployment: the override, or the registered one. -/
def resolveToriumContractDeployment (contractName : String) (registryEntry : RegistryEntry)
    (override : Option Text) : Except String Text := do
  let address ← match override, registryEntry.address with
    | some address, _ => pure address
    | none, some address => pure address
    | none, none => throw ("The generated registry has no broadcast " ++ contractName ++
        " address (status: " ++ registryEntry.status ++ "); pass an explicit local deployment.")
  match format.parse address with
  | some address => pure (format.checksum address)
  | none => throw ("The " ++ contractName ++ " deployment address is not a valid EVM address.")

/-- The statement `if (condition) blockers.push(blocker);`. -/
def blockIf {α : Type} (condition : Prop) [Decidable condition] (blocker : α) : List α :=
  if condition then [blocker] else []

theorem blockIf_eq_nil {α : Type} {condition : Prop} [Decidable condition] {blocker : α} :
    blockIf condition blocker = [] ↔ ¬condition := by
  by_cases holds : condition
  · rw [blockIf, if_pos holds]
    exact iff_of_false (List.cons_ne_nil _ _) (not_not.mpr holds)
  · rw [blockIf, if_neg holds]
    exact iff_of_true rfl holds

section Parsing

variable (contractName label : String)

def parseUint : Raw → Except String Int
  | .bigint value =>
    if 0 ≤ value then assertToriumUint256 value
    else throw (invalidContractResponse contractName label)
  | .number (some value) =>
    if value.natAbs ≤ MAX_SAFE_INTEGER ∧ 0 ≤ value then pure value
    else throw (invalidContractResponse contractName label)
  | _ => throw (invalidContractResponse contractName label)

def parseBooleanValue : Raw → Except String Bool
  | .bool value => pure value
  | _ => throw (invalidContractResponse contractName label)

/-- The pattern also ignores the letter case of the `x`. -/
def isHashAnyCase : Text → Bool
  | '0' :: 'X' :: digits => isHash ('0' :: 'x' :: digits)
  | text => isHash text

def parseHashValue : Raw → Except String Text
  | .string value =>
    if isHashAnyCase value then pure (toLowerCase value)
    else throw (invalidContractResponse contractName label)
  | _ => throw (invalidContractResponse contractName label)

def parseAddressValue : Raw → Except String Text
  | .string value =>
    match format.parse value with
    | some address => pure (format.checksum address)
    | none => throw (invalidContractResponse contractName label)
  | _ => throw (invalidContractResponse contractName label)

/-! Decoded values pass their checks. -/

theorem assertToriumUint256_natCast {n : Nat} (fits : n < 2 ^ 256) :
    assertToriumUint256 (n : Int) = .ok (n : Int) := by
  have inside : ¬ ((n : Int) < 0 ∨ (UINT256_MAX : Int) < n) := by
    simp only [UINT256_MAX]
    omega
  rw [assertToriumUint256, throwIf, revertIf, if_neg inside]
  rfl

theorem parseUint_toNat {width : Nat} (narrow : width ≤ 256) (value : BitVec width) :
    parseUint contractName label (.bigint value.toNat) = .ok (value.toNat : Int) := by
  have fits : value.toNat < 2 ^ 256 :=
    value.isLt.trans_le (Nat.pow_le_pow_right (by decide) narrow)
  rw [parseUint, if_pos (Int.natCast_nonneg _), assertToriumUint256_natCast fits]

theorem parseUint_number {value : Nat} (safe : (value : Int) ≤ MAX_SAFE_INTEGER) :
    parseUint contractName label (.number (some value)) = .ok (value : Int) :=
  if_pos ⟨safe, Int.natCast_nonneg _⟩

theorem parseHashValue_hashText (hash : Bytes32) :
    parseHashValue contractName label (.string (hashText hash)) = .ok (hashText hash) := by
  have valid : isHashAnyCase (hashText hash) := isHash_hashText hash
  rw [parseHashValue, if_pos valid, toLowerCase_hashText]
  rfl

theorem parseAddressValue_checksum (address : Address) :
    parseAddressValue format contractName label (.string (format.checksum address)) =
      .ok (format.checksum address) := by
  rw [parseAddressValue, format.parse_checksum]
  rfl

end Parsing

end Torium.Sdk
