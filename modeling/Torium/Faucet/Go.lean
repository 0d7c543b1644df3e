import Mathlib.Data.List.TakeWhile
import Torium.Evm.Basic

/-!
# Values of the faucet service

Strings are lists of bytes. A time is an instant: nanoseconds since the zero time,
the first of January of year 1 in UTC. Maps are partial functions and reading a
missing key of a map of strings gives the empty string.

The textual form of addresses and hashes comes from a library outside the
repository and is a parameter; what is known about it is stated separately.
-/

namespace Torium.Faucet

open Evm

abbrev GoString : Type := List UInt8

/-- A string constant. All constants of the service are ASCII. -/
def text (s : String) : GoString := s.toList.map fun c => UInt8.ofNat c.toNat

/-- Decimal digits, as `%d` and `big.Int` print them. -/
def natText (n : Nat) : GoString := (Nat.toDigits 10 n).map fun c => UInt8.ofNat c.toNat

def intText (n : Int) : GoString := if n < 0 then 45 :: natText n.natAbs else natText n.natAbs

def isDigit (b : UInt8) : Bool := 48 ≤ b && b ≤ 57

/-- The value of a string of digits; `none` when it is empty or has another byte. -/
def digitsValue? (s : GoString) : Option Nat :=
  if s ≠ [] ∧ s.all isDigit then some (s.foldl (fun n b => 10 * n + (b.toNat - 48)) 0) else none

/-- `big.Int.SetString` with base 10: an optional sign and digits. -/
def setString? : GoString → Option Int
  | 45 :: digits => (digitsValue? digits).map fun n => -(n : Int)
  | 43 :: digits => (digitsValue? digits).map fun n => (n : Int)
  | digits => (digitsValue? digits).map fun n => (n : Int)

/-- Blanks that `Sscanf` skips before a number. -/
def isBlank (b : UInt8) : Bool := b == 9 || b == 11 || b == 12 || b == 13 || b == 32

/-- `fmt.Sscanf(s, "%d", &x)` for an unsigned 64-bit `x`. What follows the digits is
not looked at. -/
def scanUint64? (s : GoString) : Option Nat :=
  (digitsValue? ((s.dropWhile isBlank).takeWhile isDigit)).bind fun n =>
    if n < 2 ^ 64 then some n else none

theorem digit_byte {n : Nat} {c : Char} (member : c ∈ Nat.toDigits 10 n) :
    48 ≤ c.toNat ∧ c.toNat ≤ 57 := by
  have digit := Nat.isDigit_of_mem_toDigits (by decide) (by decide) member
  simp only [Char.isDigit, Bool.and_eq_true, decide_eq_true_eq] at digit
  exact ⟨digit.1, digit.2⟩

theorem isDigit_of_mem_natText {n : Nat} {b : UInt8} (member : b ∈ natText n) :
    isDigit b = true := by
  obtain ⟨c, digit, rfl⟩ := List.mem_map.mp member
  obtain ⟨low, high⟩ := digit_byte digit
  simp only [isDigit, Bool.and_eq_true, decide_eq_true_eq, UInt8.le_iff_toNat_le,
    UInt8.toNat_ofNat']
  constructor
  · change 48 ≤ c.toNat % 256
    omega
  · change c.toNat % 256 ≤ 57
    omega

theorem digitsValue?_natText (n : Nat) : digitsValue? (natText n) = some n := by
  have digits : natText n ≠ [] ∧ (natText n).all isDigit := by
    constructor
    · simp [natText]
    · exact List.all_eq_true.mpr fun b member => isDigit_of_mem_natText member
  rw [digitsValue?, if_pos digits]
  have value : (Nat.toDigits 10 n).foldl
      (fun k c => 10 * k + ((UInt8.ofNat c.toNat).toNat - 48)) 0 =
      Nat.ofDigitChars 10 (Nat.toDigits 10 n) 0 := by
    apply List.foldl_ext
    intro k c member
    obtain ⟨low, high⟩ := digit_byte member
    have small : (UInt8.ofNat c.toNat).toNat = c.toNat := Nat.mod_eq_of_lt (by omega)
    rw [small]
    rfl
  rw [Nat.ofDigitChars_toDigits (by decide) (by decide)] at value
  rw [natText, List.foldl_map]
  exact congrArg some value

/-- An integer that was printed is read back. -/
theorem setString?_intText (n : Int) : setString? (intText n) = some n := by
  unfold intText
  split_ifs with negative
  · have value : -((n.natAbs : Nat) : Int) = n := by omega
    rw [setString?.eq_1, digitsValue?_natText]
    exact congrArg some value
  · have value : ((n.natAbs : Nat) : Int) = n := by omega
    have first : ∀ b ∈ natText n.natAbs, b ≠ 45 ∧ b ≠ 43 := fun b member =>
      ⟨fun same => absurd (isDigit_of_mem_natText (same ▸ member)) (by decide),
        fun same => absurd (isDigit_of_mem_natText (same ▸ member)) (by decide)⟩
    rw [setString?.eq_3, digitsValue?_natText]
    · exact congrArg some value
    · intro digits same
      exact (first 45 (by simp [same])).1 rfl
    · intro digits same
      exact (first 43 (by simp [same])).2 rfl

/-- A number that was printed is read back when it fits. -/
theorem scanUint64?_eq (n : Nat) :
    scanUint64? (natText n) = if n < 2 ^ 64 then some n else none := by
  have noBlank : (natText n).dropWhile isBlank = natText n := by
    cases digits : natText n with
    | nil => rfl
    | cons first rest =>
      have digit := isDigit_of_mem_natText (n := n) (b := first) (by simp [digits])
      refine List.dropWhile_cons_of_neg fun blank => ?_
      simp only [isBlank, Bool.or_eq_true, beq_iff_eq] at blank
      obtain (((rfl | rfl) | rfl) | rfl) | rfl := blank <;> exact absurd digit (by decide)
  have allDigits : (natText n).takeWhile isDigit = natText n :=
    List.takeWhile_eq_self_iff.mpr fun b member => isDigit_of_mem_natText member
  rw [scanUint64?, noBlank, allDigits, digitsValue?_natText]
  rfl

/-- A number that was printed is read back, if it is read at all. -/
theorem scanUint64?_natText {n m : Nat} (scanned : scanUint64? (natText n) = some m) : m = n := by
  rw [scanUint64?_eq] at scanned
  split_ifs at scanned
  exact (Option.some.inj scanned).symm

/-- Lower case of the ASCII letters. -/
def toLower (s : GoString) : GoString := s.map fun b => if 65 ≤ b && b ≤ 90 then b + 32 else b

/-- An instant in nanoseconds since the zero time. -/
abbrev Time : Type := Int

/-- A duration in nanoseconds. -/
abbrev Duration : Type := Int

def second : Duration := 1000000000

def Time.isZero (t : Time) : Bool := t = 0

def minDuration : Duration := -2 ^ 63

def maxDuration : Duration := 2 ^ 63 - 1

/-- `t.Sub(u)`: the difference, cut to the range of a duration. -/
def Time.sub (t u : Time) : Duration := max minDuration (min maxDuration (t - u))

/-- Days since the zero time. -/
def dayNumber (t : Time) : Int := t.fdiv (86400 * second)

/-- The civil date of a day number. Years are counted from March while the date is
computed, so that the leap day comes last; `306` is the number of days from the
first of March of year 0 to the zero time. -/
def civil (day : Int) : Int × Nat × Nat :=
  let shifted := day + 306
  let era := shifted.fdiv 146097
  let dayOfEra := (shifted.fmod 146097).toNat
  let yearOfEra := (dayOfEra - dayOfEra / 1460 + dayOfEra / 36524 - dayOfEra / 146096) / 365
  let dayOfYear := dayOfEra - (365 * yearOfEra + yearOfEra / 4 - yearOfEra / 100)
  let shiftedMonth := (5 * dayOfYear + 2) / 153
  let month := if shiftedMonth < 10 then shiftedMonth + 3 else shiftedMonth - 9
  let year := era * 400 + yearOfEra + if month ≤ 2 then 1 else 0
  (year, month, dayOfYear - (153 * shiftedMonth + 2) / 5 + 1)

def Time.year (t : Time) : Int := (civil (dayNumber t)).1

/-- Digits with leading zeros up to a width. -/
def padded (width n : Nat) : GoString :=
  List.replicate (width - (natText n).length) 48 ++ natText n

/-- The UTC day of a time in the format `2006-01-02`. -/
def budgetDay (t : Time) : GoString :=
  let date := civil (dayNumber t)
  let year := padded 4 date.1.natAbs
  (if date.1 < 0 then 45 :: year else year) ++ 45 :: padded 2 date.2.1 ++ 45 :: padded 2 date.2.2

example : budgetDay 0 = text "0001-01-01" := by decide

/-- The textual forms of addresses and transaction hashes. -/
class EthText where
  addressHex : Address → GoString
  hexToAddress : GoString → Address
  hashHex : Bytes32 → GoString
  hexToHash : GoString → Bytes32

export EthText (addressHex hexToAddress hashHex hexToHash)

/-- Reading an address that was printed gives it back, and hashes are not printed as empty
texts. -/
class EthText.Lawful [EthText] : Prop where
  hexToAddress_addressHex : ∀ address : Address, hexToAddress (addressHex address) = address
  hashHex_ne_nil : ∀ hash : Bytes32, hashHex hash ≠ []

/-- Hashes are printed in lower-case hexadecimal, after `0x`, and are read back. -/
class EthText.Hexadecimal [EthText] : Prop where
  hexToHash_hashHex : ∀ hash : Bytes32, hexToHash (hashHex hash) = hash
  hashHex_digits : ∀ hash : Bytes32, ∀ b ∈ hashHex hash,
    b = 120 ∨ 48 ≤ b ∧ b ≤ 57 ∨ 97 ≤ b ∧ b ≤ 102

/-! ## Lower-case hexadecimal -/

def hexDigits : Nat → Nat → GoString
  | 0, _ => []
  | width + 1, n =>
    hexDigits width (n / 16) ++
      [if n % 16 < 10 then 48 + UInt8.ofNat (n % 16) else 87 + UInt8.ofNat (n % 16)]

def hexValue (digits : GoString) : Nat :=
  digits.foldl (fun n b => 16 * n + if b < 58 then b.toNat - 48 else b.toNat - 87) 0

theorem hexValue_hexDigits (width n : Nat) : hexValue (hexDigits width n) = n % 16 ^ width := by
  induction width generalizing n with
  | zero => simp [hexDigits, hexValue, Nat.mod_one]
  | succ width ih =>
    have digit : ∀ d < 16,
        (let b : UInt8 := if d < 10 then 48 + UInt8.ofNat d else 87 + UInt8.ofNat d
         if b < 58 then b.toNat - 48 else b.toNat - 87) = d := by decide
    have last := digit (n % 16) (Nat.mod_lt n (by decide))
    simp only [hexValue] at ih
    simp only [hexDigits, hexValue, List.foldl_append, List.foldl_cons, List.foldl_nil, ih, last]
    rw [Nat.pow_succ', Nat.mod_mul, Nat.add_comm]

theorem hexDigits_digits {width n : Nat} {b : UInt8} (member : b ∈ hexDigits width n) :
    48 ≤ b ∧ b ≤ 57 ∨ 97 ≤ b ∧ b ≤ 102 := by
  induction width generalizing n with
  | zero => cases member
  | succ width ih =>
    have digit : ∀ d < 16,
        (let b : UInt8 := if d < 10 then 48 + UInt8.ofNat d else 87 + UInt8.ofNat d
         48 ≤ b ∧ b ≤ 57 ∨ 97 ≤ b ∧ b ≤ 102) := by decide
    obtain old | new := List.mem_append.mp member
    · exact ih old
    · rw [List.mem_singleton.mp new]
      exact digit (n % 16) (Nat.mod_lt n (by decide))

/-- The digits of two numbers of the width are different. -/
theorem hexDigits_injective {width n m : Nat} (first : n < 16 ^ width) (second : m < 16 ^ width)
    (same : hexDigits width n = hexDigits width m) : n = m := by
  have values := congrArg hexValue same
  rwa [hexValue_hexDigits, hexValue_hexDigits, Nat.mod_eq_of_lt first,
    Nat.mod_eq_of_lt second] at values

/-- The case of the letters of an address is its checksum. -/
class EthText.Checksummed [EthText] : Prop where
  toLower_addressHex : ∀ address : Address,
    toLower (addressHex address) = text "0x" ++ hexDigits 40 address.toNat

/-- A value of four bits for each digit is read back. -/
theorem ofNat_hexValue (width : Nat) (value : BitVec (4 * width)) :
    BitVec.ofNat (4 * width) (hexValue ((text "0x" ++ hexDigits width value.toNat).drop 2)) =
      value := by
  have bound : value.toNat < 16 ^ width := by
    rw [show 16 = 2 ^ 4 from rfl, ← Nat.pow_mul]
    exact value.isLt
  rw [List.drop_left' (by rfl : (text "0x").length = 2), hexValue_hexDigits,
    Nat.mod_eq_of_lt bound, BitVec.ofNat_toNat, BitVec.setWidth_eq]

/-- The textual forms without a checksum in the case of the letters. -/
@[reducible] def lowerHex : EthText where
  addressHex address := text "0x" ++ hexDigits 40 address.toNat
  hexToAddress s := BitVec.ofNat 160 (hexValue (s.drop 2))
  hashHex hash := text "0x" ++ hexDigits 64 hash.toNat
  hexToHash s := BitVec.ofNat 256 (hexValue (s.drop 2))

theorem lowerHex_lawful : letI := lowerHex; EthText.Lawful := by
  let := lowerHex
  constructor
  · intro address
    exact ofNat_hexValue 40 address
  · intro hash
    simp [hashHex, text]

theorem lowerHex_hexadecimal : letI := lowerHex; EthText.Hexadecimal := by
  let := lowerHex
  constructor
  · intro hash
    exact ofNat_hexValue 64 hash
  · intro hash b member
    obtain mark | digit := List.mem_append.mp member
    · obtain rfl | rfl : b = 48 ∨ b = 120 := by simpa [text] using mark
      · exact .inr (.inl (by decide))
      · exact .inl rfl
    · exact .inr (hexDigits_digits digit)

theorem lowerHex_checksummed : letI := lowerHex; EthText.Checksummed := by
  let := lowerHex
  constructor
  intro address
  have digits (b : UInt8) (member : b ∈ text "0x" ++ hexDigits 40 address.toNat) :
      (if 65 ≤ b && b ≤ 90 then b + 32 else b) = b := by
    rw [if_neg]
    obtain mark | digit := List.mem_append.mp member
    · obtain rfl | rfl : b = 48 ∨ b = 120 := by simpa [text] using mark
      · decide
      · decide
    · simp only [Bool.and_eq_true, decide_eq_true_eq, UInt8.le_iff_toNat_le]
      have range := hexDigits_digits digit
      simp only [UInt8.le_iff_toNat_le] at range
      change ¬ (65 ≤ b.toNat ∧ b.toNat ≤ 90)
      change 48 ≤ b.toNat ∧ b.toNat ≤ 57 ∨ 97 ≤ b.toNat ∧ b.toNat ≤ 102 at range
      omega
  exact (List.map_congr_left digits).trans (List.map_id' _)

end Torium.Faucet
