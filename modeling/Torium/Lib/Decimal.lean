import Mathlib.Data.Nat.Digits.Defs
import Mathlib.Tactic.Linarith
import Mathlib.Tactic.Ring

/-!
# Decimal numerals

Numerals are lists of digits, the most significant one first. Digit lists of one length stand
for different numbers, and so do numerals without leading zeros.
-/

namespace Decimal

def isDigit (c : Char) : Bool := '0' ≤ c && c ≤ '9'

def digitValue (c : Char) : Nat := c.toNat - '0'.toNat

/-- The number that a list of digits stands for. -/
def value (digits : List Char) : Nat := Nat.ofDigitChars 10 digits 0

/-- A numeral without leading zeros: the pattern `^(0|[1-9][0-9]*)$`. -/
def isCanonical : List Char → Bool
  | [] => false
  | first :: rest =>
    (first == '0' && rest.isEmpty) || (isDigit first && first != '0' && rest.all isDigit)

variable {c d : Char} {digits others : List Char}

theorem isDigit_iff : isDigit c = true ↔ 48 ≤ c.toNat ∧ c.toNat ≤ 57 := by
  rw [isDigit, Bool.and_eq_true, decide_eq_true_iff, decide_eq_true_iff, Char.le_def, Char.le_def,
    UInt32.le_iff_toNat_le, UInt32.le_iff_toNat_le]
  rfl

theorem digitValue_lt (digit : isDigit c) : digitValue c < 10 := by
  have := isDigit_iff.mp digit
  change c.toNat - 48 < 10
  omega

theorem digitValue_injective (first : isDigit c) (second : isDigit d)
    (same : digitValue c = digitValue d) : c = d := by
  have := isDigit_iff.mp first
  have := isDigit_iff.mp second
  change c.toNat - 48 = d.toNat - 48 at same
  exact Char.toNat_inj.mp (by omega)

/-! ## Values -/

@[simp] theorem value_nil : value [] = 0 := rfl

theorem value_append (digits others : List Char) :
    value (digits ++ others) = 10 ^ others.length * value digits + value others := by
  rw [value, Nat.ofDigitChars_append, Nat.ofDigitChars_eq_ofDigitChars_zero]
  rfl

theorem value_singleton (c : Char) : value [c] = digitValue c := by
  simp [value, Nat.ofDigitChars, digitValue]

theorem value_cons (c : Char) (digits : List Char) :
    value (c :: digits) = 10 ^ digits.length * digitValue c + value digits := by
  rw [← List.singleton_append, value_append, value_singleton]

@[simp] theorem value_replicate_zero (count : Nat) : value (List.replicate count '0') = 0 := by
  induction count with
  | zero => rfl
  | succ count ih =>
    rw [List.replicate_succ, value_cons, ih]
    simp [digitValue]

/-- Zeros at the end scale a numeral. -/
theorem value_append_zeros (digits : List Char) (count : Nat) :
    value (digits ++ List.replicate count '0') = 10 ^ count * value digits := by
  rw [value_append, value_replicate_zero, List.length_replicate, add_zero]

theorem value_lt (valid : digits.all isDigit) : value digits < 10 ^ digits.length := by
  induction digits with
  | nil => decide
  | cons c digits ih =>
    rw [List.all_cons, Bool.and_eq_true] at valid
    have rest := ih valid.2
    have first := digitValue_lt valid.1
    calc value (c :: digits) = 10 ^ digits.length * digitValue c + value digits := value_cons _ _
      _ < 10 ^ digits.length * (digitValue c + 1) := by rw [mul_add_one]; omega
      _ ≤ 10 ^ digits.length * 10 := Nat.mul_le_mul_left _ first
      _ = 10 ^ (c :: digits).length := (pow_succ _ _).symm

/-- Digit lists of one length are determined by their values. -/
theorem value_injective (valid : digits.all isDigit) (valid' : others.all isDigit)
    (length : digits.length = others.length) (same : value digits = value others) :
    digits = others := by
  induction digits generalizing others with
  | nil => exact (List.length_eq_zero_iff.mp length.symm).symm
  | cons c digits ih =>
    cases others with
    | nil => cases length
    | cons d others =>
      rw [List.all_cons, Bool.and_eq_true] at valid valid'
      have length : digits.length = others.length := Nat.succ.inj length
      have small := value_lt valid.2
      have small' := value_lt valid'.2
      rw [value_cons, value_cons, ← length] at same
      rw [← length] at small'
      have rest : value digits = value others := by
        have := congrArg (· % 10 ^ digits.length) same
        simpa [Nat.mul_add_mod, Nat.mod_eq_of_lt small, Nat.mod_eq_of_lt small'] using this
      have first : digitValue c = digitValue d := by
        rw [rest, Nat.add_right_cancel_iff] at same
        exact Nat.eq_of_mul_eq_mul_left (Nat.pow_pos (by decide)) same
      rw [digitValue_injective valid.1 valid'.1 first, ih valid.2 valid'.2 length rest]

/-! ## Numerals without leading zeros -/

section

variable (canonical : isCanonical digits)

include canonical

theorem isCanonical_cases :
    digits = ['0'] ∨ ∃ first rest, digits = first :: rest ∧ isDigit first ∧ 0 < digitValue first ∧
      rest.all isDigit := by
  cases digits with
  | nil => cases canonical
  | cons first rest =>
    simp only [isCanonical, Bool.or_eq_true, Bool.and_eq_true, beq_iff_eq, List.isEmpty_iff,
      bne_iff_ne] at canonical
    obtain ⟨rfl, rfl⟩ | ⟨⟨digit, nonzero⟩, valid⟩ := canonical
    · exact .inl rfl
    · refine .inr ⟨first, rest, rfl, digit, ?_, valid⟩
      have := isDigit_iff.mp digit
      refine Nat.pos_of_ne_zero fun zero => nonzero ?_
      exact digitValue_injective digit (by decide) zero

theorem all_isDigit_of_isCanonical : digits.all isDigit := by
  obtain rfl | ⟨first, rest, rfl, digit, -, valid⟩ := isCanonical_cases canonical
  · decide
  · rw [List.all_cons, digit, valid]
    rfl

/-- The length is the least one that the value fits into. -/
theorem pow_le_value (large : 1 < digits.length) :
    10 ^ (digits.length - 1) ≤ value digits := by
  obtain rfl | ⟨first, rest, rfl, -, positive, -⟩ := isCanonical_cases canonical
  · exact absurd large (by decide)
  · rw [value_cons, List.length_cons, Nat.add_sub_cancel]
    exact (Nat.le_mul_of_pos_right _ positive).trans (Nat.le_add_right _ _)

theorem length_le_of_value_lt {width : Nat} (positive : 0 < width)
    (bound : value digits < 10 ^ width) : digits.length ≤ width := by
  by_cases large : 1 < digits.length
  · have := (pow_le_value canonical large).trans_lt bound
    have := (Nat.pow_lt_pow_iff_right (by decide)).mp this
    omega
  · omega

/-- Numerals without leading zeros are determined by their values. -/
theorem isCanonical_injective (canonical' : isCanonical others)
    (same : value digits = value others) :
    digits = others := by
  have valid := all_isDigit_of_isCanonical canonical
  have valid' := all_isDigit_of_isCanonical canonical'
  have nonempty {digits : List Char} (canonical : isCanonical digits) : 0 < digits.length := by
    cases digits with
    | nil => cases canonical
    | cons => exact Nat.zero_lt_succ _
  refine value_injective valid valid' (Nat.le_antisymm ?_ ?_) same
  · exact length_le_of_value_lt canonical (nonempty canonical') (same ▸ value_lt valid')
  · exact length_le_of_value_lt canonical' (nonempty canonical) (same ▸ value_lt valid)

end

theorem isDigit_of_mem_toDigits {n : Nat} (member : c ∈ Nat.toDigits 10 n) : isDigit c := by
  have digit := Nat.isDigit_of_mem_toDigits (by decide) (by decide) member
  rw [Char.isDigit, Bool.and_eq_true, decide_eq_true_iff, decide_eq_true_iff] at digit
  exact isDigit_iff.mpr digit

theorem isCanonical_toDigits (n : Nat) : isCanonical (Nat.toDigits 10 n) := by
  induction n using Nat.strong_induction_on with
  | _ n ih =>
    by_cases small : n < 10
    · rw [Nat.toDigits_of_lt_base small]
      clear ih
      revert n
      decide
    · rw [Nat.toDigits_of_base_le (by decide) (by omega)]
      have last : isDigit (n % 10).digitChar := by
        have bound := Nat.mod_lt n (show 10 > 0 by decide)
        generalize n % 10 = m at bound
        revert m
        decide
      obtain zero | ⟨first, rest, same, digit, positive, valid⟩ :=
        isCanonical_cases (ih (n / 10) (by omega))
      · have := congrArg value zero
        rw [value, Nat.ofDigitChars_toDigits (by decide) (by decide)] at this
        change n / 10 = 0 at this
        omega
      · have nonzero : (first != '0') = true := by
          rw [bne_iff_ne]
          rintro rfl
          exact absurd positive (by decide)
        simp [same, isCanonical, digit, nonzero, valid, last]

theorem value_toDigits (n : Nat) : value (Nat.toDigits 10 n) = n :=
  Nat.ofDigitChars_toDigits (by decide) (by decide)

end Decimal
