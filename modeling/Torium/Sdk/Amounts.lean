import Torium.Lib.Decimal
import Torium.Sdk.Values
import Mathlib.Data.List.DropRight
import Mathlib.Data.Rat.Floor

/-!
# Amounts

An amount is written in units of the currency, with up to 18 digits after the point, and
computed with in base units. The two functions of the library that scale decimals are
parameters; they are assumed to scale exactly. An amount is then read without rounding and
written without trailing zeros.
-/

namespace Torium.Sdk

open Generator

/-! ## Decimals -/

/-- A decimal with the given digits before and after the point. -/
def amountText (whole fraction : Text) : Text :=
  if fraction = [] then whole else whole ++ '.' :: fraction

/-- The pattern `^(?:0|[1-9][0-9]*)(?:\.[0-9]{1,18})?$`. -/
def isAmount (text : Text) : Bool :=
  match text.span (· != '.') with
  | (whole, []) => Decimal.isCanonical whole
  | (whole, _ :: fraction) =>
    Decimal.isCanonical whole && fraction.all Decimal.isDigit && decide (1 ≤ fraction.length) &&
      decide (fraction.length ≤ 18)

/-- The number that a decimal stands for. -/
def decimalValue (text : Text) : ℚ :=
  match text.span (· != '.') with
  | (whole, []) => Decimal.value whole
  | (whole, _ :: fraction) => Decimal.value whole + Decimal.value fraction / 10 ^ fraction.length

/-- The decimal without the zeros at the end of its fraction, and without the point when nothing
is left of the fraction. -/
def trimAmount (text : Text) : Text :=
  match text.span (· != '.') with
  | (whole, []) => whole
  | (whole, _ :: fraction) => amountText whole (fraction.rdropWhile (· == '0'))

/-! ## The functions of the SDK -/

/-- The functions of the library that scale decimals. -/
class Units where
  parseUnits : Text → Nat → Int
  formatUnits : Int → Nat → Text

def toriumNativeDecimals : Nat := 18

/-- The functions scale exactly, and what is written has no trailing zeros. -/
class Units.Exact [Units] : Prop where
  parseUnits_eq : ∀ text, isAmount text →
    (Units.parseUnits text toriumNativeDecimals : ℚ) = decimalValue text * 10 ^ 18
  isAmount_formatUnits : ∀ v : Nat, isAmount (Units.formatUnits v toriumNativeDecimals)
  value_formatUnits : ∀ v : Nat,
    decimalValue (Units.formatUnits v toriumNativeDecimals) * 10 ^ 18 = v
  trim_formatUnits : ∀ v : Nat, trimAmount (Units.formatUnits v toriumNativeDecimals) =
    Units.formatUnits v toriumNativeDecimals

section Codec

variable [Units]

def parseToriumAmount (value : Text) : Except String Int := do
  throwIf (97 < value.length ∨ isAmount value = false)
    ("Torium amount must be an unsigned locale-neutral decimal with at most 18 " ++
      "fractional digits.")
  assertToriumUint256 (Units.parseUnits value toriumNativeDecimals)

def formatToriumAmount (value : Int) : Except String Text := do
  let value ← assertToriumUint256 value
  pure (Units.formatUnits value toriumNativeDecimals)

end Codec

/-! ## Parts of a decimal -/

section Parts

variable {whole fraction whole' fraction' text : Text}

/-- Digits before the point, and at most 18 digits after it. -/
structure Parts (whole fraction : Text) : Prop where
  canonical : Decimal.isCanonical whole
  digits : fraction.all Decimal.isDigit
  short : fraction.length ≤ 18

theorem Parts.span (parts : Parts whole fraction) : (amountText whole fraction).span (· != '.') =
      (whole, if fraction = [] then [] else '.' :: fraction) := by
  have plain : ∀ c ∈ whole, (c != '.') = true := by
    intro c member
    have digit := List.all_eq_true.mp (Decimal.all_isDigit_of_isCanonical parts.canonical) c member
    rw [bne_iff_ne]
    rintro rfl
    exact absurd digit (by decide)
  rw [List.span_eq_takeWhile_dropWhile, amountText]
  split_ifs with none
  · rw [List.takeWhile_eq_self_iff.mpr plain, List.dropWhile_eq_nil_iff.mpr plain]
  · rw [List.takeWhile_append_of_pos plain, List.dropWhile_append_of_pos plain]
    simp

/-- The pattern, by the parts of the decimal. -/
theorem isAmount_iff :
    isAmount text ↔ ∃ whole fraction, Parts whole fraction ∧ text = amountText whole fraction := by
  constructor
  · intro amount
    have same : (text.span (· != '.')).1 ++ (text.span (· != '.')).2 = text := by
      rw [List.span_eq_takeWhile_dropWhile]
      exact List.takeWhile_append_dropWhile
    rw [isAmount] at amount
    split at amount
    · next whole split =>
        rw [split, List.append_nil] at same
        exact ⟨whole, [], ⟨amount, rfl, by decide⟩, same.symm⟩
    · next whole point fraction split =>
        simp only [Bool.and_eq_true, decide_eq_true_iff] at amount
        obtain ⟨⟨⟨canonical, digits⟩, nonempty⟩, short⟩ := amount
        have here : point = '.' := by
          have head := List.head?_dropWhile_not (· != '.') text
          rw [List.span_eq_takeWhile_dropWhile] at split
          rw [(Prod.mk.inj split).2] at head
          simpa using head
        rw [split, here] at same
        refine ⟨whole, fraction, ⟨canonical, digits, short⟩, ?_⟩
        rw [amountText, if_neg (List.ne_nil_of_length_pos nonempty)]
        exact same.symm
  · rintro ⟨whole, fraction, parts, rfl⟩
    rw [isAmount, parts.span]
    by_cases none : fraction = []
    · simp only [if_pos none]
      exact parts.canonical
    · simp only [if_neg none, Bool.and_eq_true, decide_eq_true_iff]
      exact ⟨⟨⟨parts.canonical, parts.digits⟩,
        List.length_pos_iff.mpr none⟩, parts.short⟩

theorem Parts.decimalValue_eq (parts : Parts whole fraction) :
    decimalValue (amountText whole fraction) =
      Decimal.value whole + Decimal.value fraction / 10 ^ fraction.length := by
  rw [decimalValue, parts.span]
  by_cases none : fraction = []
  · subst none
    simp
  · simp only [if_neg none]

theorem Parts.trimAmount_eq (parts : Parts whole fraction) :
    trimAmount (amountText whole fraction) = amountText whole (fraction.rdropWhile (· == '0')) := by
  rw [trimAmount, parts.span]
  by_cases none : fraction = []
  · subst none
    rfl
  · simp only [if_neg none]

/-- The fraction with all its 18 digits. -/
def padded (fraction : Text) : Text :=
  fraction ++ List.replicate (18 - fraction.length) '0'

theorem Parts.all_padded (parts : Parts whole fraction) :
    (padded fraction).all Decimal.isDigit := by
  rw [padded, List.all_append, parts.digits, Bool.true_and, List.all_replicate]
  split_ifs
  · rfl
  · decide

theorem Parts.length_padded (parts : Parts whole fraction) : (padded fraction).length = 18 := by
  rw [padded, List.length_append, List.length_replicate]
  exact Nat.add_sub_cancel' parts.short

theorem rdropWhile_padded (fraction : Text) :
    (padded fraction).rdropWhile (· == '0') = fraction.rdropWhile (· == '0') := by
  rw [padded]
  induction 18 - fraction.length with
  | zero => rw [List.replicate_zero, List.append_nil]
  | succ count ih =>
    rw [List.replicate_succ', ← List.append_assoc, List.rdropWhile_concat_pos _ _ _ (by decide), ih]

theorem padded_rdropWhile (short : fraction.length ≤ 18) :
    padded (fraction.rdropWhile (· == '0')) = padded fraction := by
  induction fraction using List.reverseRecOn with
  | nil => rfl
  | append_singleton fraction last ih =>
    rw [List.length_append, List.length_singleton] at short
    by_cases zero : last = '0'
    · subst zero
      rw [List.rdropWhile_concat_pos _ _ _ (by decide), ih (by omega), padded, padded,
        List.append_assoc, List.length_append, List.singleton_append, ← List.replicate_succ]
      congr 2
      simp only [List.length_singleton]
      omega
    · rw [List.rdropWhile_concat_neg _ _ _ (by simpa using zero)]

theorem Parts.trim (parts : Parts whole fraction) :
    Parts whole (fraction.rdropWhile (· == '0')) where
  canonical := parts.canonical
  digits := by
    have kept := List.rdropWhile_prefix (· == '0') fraction
    exact List.all_eq_true.mpr fun c member =>
      List.all_eq_true.mp parts.digits c (kept.subset member)
  short := by
    have kept := List.rdropWhile_prefix (· == '0') fraction
    exact kept.length_le.trans parts.short

/-- The number of base units in a decimal. -/
theorem Parts.scaled (parts : Parts whole fraction) :
    decimalValue (amountText whole fraction) * 10 ^ 18 =
      ((Decimal.value (padded fraction) + 10 ^ 18 * Decimal.value whole : Nat) : ℚ) := by
  have split : (10 : ℚ) ^ 18 = 10 ^ (18 - fraction.length) * 10 ^ fraction.length := by
    rw [← pow_add, Nat.sub_add_cancel parts.short]
  rw [parts.decimalValue_eq, padded, Decimal.value_append_zeros, add_mul, add_comm]
  push_cast
  congr 1
  · rw [split]
    field_simp
  · ring

theorem Parts.value_padded_lt (parts : Parts whole fraction) :
    Decimal.value (padded fraction) < 10 ^ 18 :=
  (Decimal.value_lt parts.all_padded).trans_eq (by rw [parts.length_padded])

/-- Equal numbers have the same digits before the point, and after it up to trailing zeros. -/
theorem Parts.unique (parts : Parts whole fraction) (parts' : Parts whole' fraction')
    (same : decimalValue (amountText whole fraction) = decimalValue (amountText whole' fraction')) :
    whole = whole' ∧ fraction.rdropWhile (· == '0') = fraction'.rdropWhile (· == '0') := by
  have scaled : Decimal.value (padded fraction) + 10 ^ 18 * Decimal.value whole =
      Decimal.value (padded fraction') + 10 ^ 18 * Decimal.value whole' := by
    have := congrArg (· * (10 : ℚ) ^ 18) same
    simp only [parts.scaled, parts'.scaled] at this
    exact_mod_cast this
  have small := parts.value_padded_lt
  have small' := parts'.value_padded_lt
  constructor
  · exact Decimal.isCanonical_injective parts.canonical parts'.canonical (by omega)
  · have digits : padded fraction = padded fraction' :=
      Decimal.value_injective parts.all_padded parts'.all_padded
        (parts.length_padded.trans parts'.length_padded.symm) (by omega)
    rw [← rdropWhile_padded, digits, rdropWhile_padded]

theorem trimAmount_congr {other : Text} (amount : isAmount text) (amount' : isAmount other)
    (same : decimalValue text = decimalValue other) : trimAmount text = trimAmount other := by
  obtain ⟨whole, fraction, parts, rfl⟩ := isAmount_iff.mp amount
  obtain ⟨whole', fraction', parts', rfl⟩ := isAmount_iff.mp amount'
  obtain ⟨rfl, trimmed⟩ := parts.unique parts' same
  rw [parts.trimAmount_eq, parts'.trimAmount_eq, trimmed]

/-- A decimal whose base units fit the range is short enough to be read. -/
theorem length_le_of_fits (amount : isAmount text)
    (fits : decimalValue text * 10 ^ 18 ≤ (UINT256_MAX : ℚ)) : text.length ≤ 97 := by
  obtain ⟨whole, fraction, parts, rfl⟩ := isAmount_iff.mp amount
  rw [parts.scaled] at fits
  have bound : Decimal.value (padded fraction) + 10 ^ 18 * Decimal.value whole ≤ UINT256_MAX := by
    exact_mod_cast fits
  have small : Decimal.value whole < 10 ^ 60 := by
    simp only [UINT256_MAX] at bound
    omega
  have short := parts.short
  have shortWhole := Decimal.length_le_of_value_lt parts.canonical (by decide) small
  rw [amountText]
  split_ifs
  · omega
  · rw [List.length_append, List.length_cons]
    omega

end Parts

/-! ## Reading and writing amounts -/

section Codec

variable [Units]

theorem parseToriumAmount_ok {text : Text} {result : Int} : parseToriumAmount text = .ok result ↔
      text.length ≤ 97 ∧ isAmount text ∧
        assertToriumUint256 (Units.parseUnits text toriumNativeDecimals) = .ok result := by
  rw [parseToriumAmount, throwIf, Evm.revertIf]
  split_ifs with refused
  · constructor
    · intro impossible
      cases impossible
    · rintro ⟨short, amount, -⟩
      rcases refused with long | bad
      · omega
      · exact absurd amount (by rw [bad]; decide)
  · rw [not_or, not_lt, Bool.not_eq_false] at refused
    exact ⟨fun accepted => ⟨refused.1, refused.2, accepted⟩, fun accepted => accepted.2.2⟩

theorem formatToriumAmount_ok {value : Int} (nonneg : 0 ≤ value) (fits : value ≤ UINT256_MAX) :
    formatToriumAmount value = .ok (Units.formatUnits value toriumNativeDecimals) := by
  rw [formatToriumAmount, assertToriumUint256_ok.mpr ⟨rfl, nonneg, fits⟩]
  rfl

variable [Units.Exact] {text : Text}

/-- An amount whose base units fit the range is read as their number. -/
theorem parseToriumAmount_of_fits {value : Int} (amount : isAmount text)
    (scaled : decimalValue text * 10 ^ 18 = value) (nonneg : 0 ≤ value)
    (fits : value ≤ UINT256_MAX) : parseToriumAmount text = .ok value := by
  have units : Units.parseUnits text toriumNativeDecimals = value := by
    have := Units.Exact.parseUnits_eq text amount
    rw [scaled] at this
    exact_mod_cast this
  refine parseToriumAmount_ok.mpr ⟨length_le_of_fits amount ?_, amount, ?_⟩
  · rw [scaled]
    exact_mod_cast fits
  · exact assertToriumUint256_ok.mpr ⟨units, units ▸ nonneg, units ▸ fits⟩

/-- What is written is read as the number it was written for. -/
theorem parseToriumAmount_formatUnits {v : Nat} (fits : v ≤ UINT256_MAX) :
    parseToriumAmount (Units.formatUnits v toriumNativeDecimals) = .ok (v : Int) :=
  parseToriumAmount_of_fits (Units.Exact.isAmount_formatUnits v)
    (by rw [Units.Exact.value_formatUnits]; norm_cast) (Int.natCast_nonneg v)
    (by exact_mod_cast fits)

/-- What was read is written without its trailing zeros. -/
theorem formatUnits_eq_trimAmount {v : Nat} (amount : isAmount text)
    (scaled : decimalValue text * 10 ^ 18 = v) :
    Units.formatUnits v toriumNativeDecimals = trimAmount text := by
  have same : decimalValue (Units.formatUnits v toriumNativeDecimals) = decimalValue text := by
    have := (Units.Exact.value_formatUnits v).trans scaled.symm
    exact mul_right_cancel₀ (by positivity) this
  rw [← Units.Exact.trim_formatUnits]
  exact trimAmount_congr (Units.Exact.isAmount_formatUnits v) amount same

end Codec

/-- Reading and writing amounts are inverse: every value of the range is read back from its
decimal, what is read is the exact number of base units and is written without trailing zeros,
and every decimal that fits the range is read. -/
theorem amounts_inverse [Units] [Units.Exact] :
    (∀ v : Int, 0 ≤ v → v ≤ UINT256_MAX → ∃ text,
      formatToriumAmount v = .ok text ∧ parseToriumAmount text = .ok v) ∧
    (∀ text v, parseToriumAmount text = .ok v →
      (v : ℚ) = decimalValue text * 10 ^ 18 ∧ 0 ≤ v ∧ v ≤ UINT256_MAX ∧
        formatToriumAmount v = .ok (trimAmount text)) ∧
    ∀ text, isAmount text → decimalValue text * 10 ^ 18 ≤ (UINT256_MAX : ℚ) →
      ∃ v, parseToriumAmount text = .ok v := by
  refine ⟨?_, ?_, ?_⟩
  · intro v nonneg fits
    obtain ⟨v, rfl⟩ := Int.eq_ofNat_of_zero_le nonneg
    exact ⟨_, formatToriumAmount_ok nonneg fits,
      parseToriumAmount_formatUnits (by exact_mod_cast fits)⟩
  · intro text v read
    obtain ⟨-, amount, accepted⟩ := parseToriumAmount_ok.mp read
    obtain ⟨rfl, nonneg, fits⟩ := assertToriumUint256_ok.mp accepted
    have exact_ := Units.Exact.parseUnits_eq text amount
    refine ⟨exact_, nonneg, fits, ?_⟩
    rw [formatToriumAmount_ok nonneg fits]
    generalize Units.parseUnits text toriumNativeDecimals = v at nonneg exact_ ⊢
    obtain ⟨v, rfl⟩ := Int.eq_ofNat_of_zero_le nonneg
    exact congrArg Except.ok (formatUnits_eq_trimAmount amount (by exact_mod_cast exact_.symm))
  · intro text amount fits
    obtain ⟨whole, fraction, parts, rfl⟩ := isAmount_iff.mp amount
    refine ⟨_, parseToriumAmount_of_fits amount ?_ (Int.natCast_nonneg
      (Decimal.value (padded fraction) + 10 ^ 18 * Decimal.value whole)) ?_⟩
    · rw [parts.scaled, Int.cast_natCast]
    · rw [parts.scaled] at fits
      exact_mod_cast fits

namespace Demo

/-- The digits of a number after the point, all 18 of them. -/
def fractionDigits (v : Nat) : Text :=
  (Nat.toDigits 10 (v % 10 ^ 18)).leftpad 18 '0'

@[reducible] def units : Units where
  parseUnits text _ := ⌊decimalValue text * 10 ^ 18⌋
  formatUnits value _ := amountText (Nat.toDigits 10 (value.toNat / 10 ^ 18))
    ((fractionDigits value.toNat).rdropWhile (· == '0'))

theorem value_fractionDigits (v : Nat) : Decimal.value (fractionDigits v) = v % 10 ^ 18 := by
  rw [fractionDigits, List.leftpad, Decimal.value_append, Decimal.value_replicate_zero,
    Decimal.value_toDigits, Nat.mul_zero, Nat.zero_add]

theorem fractionDigits_parts (v : Nat) :
    Parts (Nat.toDigits 10 (v / 10 ^ 18)) (fractionDigits v) where
  canonical := Decimal.isCanonical_toDigits _
  digits := by
    rw [fractionDigits, List.leftpad, List.all_append, List.all_replicate,
      List.all_eq_true.mpr fun c member => Decimal.isDigit_of_mem_toDigits member]
    split_ifs
    · rfl
    · decide
  short := by
    have small : Decimal.value (Nat.toDigits 10 (v % 10 ^ 18)) < 10 ^ 18 := by
      rw [Decimal.value_toDigits]
      exact Nat.mod_lt v (by decide)
    have short := Decimal.length_le_of_value_lt (Decimal.isCanonical_toDigits _) (by decide) small
    rw [fractionDigits, List.length_leftpad]
    exact max_le le_rfl short

theorem unitsExact : @Units.Exact units := by
  refine @Units.Exact.mk units ?_ ?_ ?_ ?_
  · intro text amount
    obtain ⟨whole, fraction, parts, rfl⟩ := isAmount_iff.mp amount
    change ((⌊decimalValue (amountText whole fraction) * 10 ^ 18⌋ : Int) : ℚ) = _
    rw [parts.scaled, Int.floor_natCast, Int.cast_natCast]
  · intro v
    exact isAmount_iff.mpr ⟨_, _, (fractionDigits_parts v).trim, rfl⟩
  · intro v
    have padded_eq : padded (fractionDigits v) = fractionDigits v := by
      rw [padded, fractionDigits, List.length_leftpad, Nat.sub_eq_zero_of_le (le_max_left _ _),
        List.replicate_zero, List.append_nil]
    refine (fractionDigits_parts v).trim.scaled.trans (congrArg _ ?_)
    rw [padded_rdropWhile (fractionDigits_parts v).short, padded_eq, value_fractionDigits,
      Decimal.value_toDigits]
    exact Nat.mod_add_div v (10 ^ 18)
  · intro v
    refine (fractionDigits_parts v).trim.trimAmount_eq.trans ?_
    rw [List.rdropWhile_idempotent]
    rfl

end Demo

theorem amounts_inverse_demo :
    ∃ text, @formatToriumAmount Demo.units 1500000000000000000 = .ok text ∧
      @parseToriumAmount Demo.units text = .ok 1500000000000000000 :=
  (@amounts_inverse Demo.units Demo.unitsExact).1 _ (by decide) (by decide)

end Torium.Sdk
