import Mathlib.Tactic.IntervalCases
import Mathlib.Tactic.Ring

/-!
# Hexadecimal numerals

Numerals with the most significant digit first and a fixed number of digits. Two spellings of
one number differ in letter case only, the lower-case spelling is the printed one, and the
order of lower-case spellings of one length is the order of the numbers.
-/

namespace Hexadecimal

def isDigit (c : Char) : Bool :=
  ('0' ≤ c && c ≤ '9') || ('a' ≤ c && c ≤ 'f') || ('A' ≤ c && c ≤ 'F')

def digitValue (c : Char) : Nat :=
  if c ≤ '9' then c.toNat - 48 else if c ≤ 'F' then c.toNat - 55 else c.toNat - 87

def digit (n : Nat) : Char := Char.ofNat (if n < 10 then 48 + n else 87 + n)

/-- The number that a list of digits stands for. -/
def value : List Char → Nat
  | [] => 0
  | c :: rest => digitValue c * 16 ^ rest.length + value rest

/-- The last `width` digits of a number, in lower case. -/
def numeral : Nat → Nat → List Char
  | 0, _ => []
  | width + 1, n => digit (n / 16 ^ width % 16) :: numeral width n

/-- The comparison of texts: the first difference decides. -/
def textLe : List Char → List Char → Bool
  | [], _ => true
  | _ :: _, [] => false
  | a :: s, b :: t => if a < b then true else if b < a then false else textLe s t

theorem mem_of_isDigit {c : Char} (digit : isDigit c) :
    c ∈ "0123456789abcdefABCDEF".toList := by
  simp only [isDigit, Bool.or_eq_true, Bool.and_eq_true, decide_eq_true_eq, Char.le_def,
    UInt32.le_iff_toNat_le] at digit
  rw [← Char.ofNat_toNat c]
  change ((48 ≤ c.toNat ∧ c.toNat ≤ 57) ∨ (97 ≤ c.toNat ∧ c.toNat ≤ 102)) ∨
    (65 ≤ c.toNat ∧ c.toNat ≤ 70) at digit
  generalize c.toNat = n at digit
  obtain (⟨low, high⟩ | ⟨low, high⟩) | ⟨low, high⟩ := digit
  · interval_cases n <;> decide
  · interval_cases n <;> decide
  · interval_cases n <;> decide

/-- What holds of the digits one by one holds of every digit. -/
theorem forall_digit {p : Char → Bool} (all : "0123456789abcdefABCDEF".toList.all p) {c : Char}
    (digit : isDigit c) : p c :=
  List.all_eq_true.mp all c (mem_of_isDigit digit)

theorem digitValue_lt {c : Char} (digit : isDigit c) : digitValue c < 16 :=
  of_decide_eq_true (forall_digit (p := fun c => digitValue c < 16) (by decide) digit)

theorem digit_digitValue {c : Char} (isDigit : isDigit c) : digit (digitValue c) = c.toLower :=
  of_decide_eq_true
    (forall_digit (p := fun c => digit (digitValue c) = c.toLower) (by decide) isDigit)

theorem digitValue_digit {n : Nat} (bound : n < 16) : digitValue (digit n) = n := by
  interval_cases n <;> rfl

theorem isDigit_digit {n : Nat} (bound : n < 16) : isDigit (digit n) := by
  interval_cases n <;> rfl

theorem toLower_digit {n : Nat} (bound : n < 16) : (digit n).toLower = digit n := by
  interval_cases n <;> rfl

theorem digit_lt_digit {n m : Nat} (less : n < m) (bound : m < 16) : digit n < digit m := by
  interval_cases m <;> interval_cases n <;> decide

/-! ## Numbers -/

@[simp] theorem length_numeral (width n : Nat) : (numeral width n).length = width := by
  induction width with
  | zero => rfl
  | succ width ih => rw [numeral, List.length_cons, ih]

theorem value_numeral (width n : Nat) : value (numeral width n) = n % 16 ^ width := by
  induction width with
  | zero => rw [numeral, value, Nat.pow_zero, Nat.mod_one]
  | succ width ih =>
    rw [numeral, value, ih, length_numeral, digitValue_digit (Nat.mod_lt _ (by decide)),
      Nat.pow_succ, Nat.mod_mul, Nat.mul_comm (16 ^ width), Nat.add_comm]

theorem all_isDigit_numeral (width n : Nat) : (numeral width n).all isDigit := by
  induction width with
  | zero => rfl
  | succ width ih =>
    rw [numeral, List.all_cons, ih, isDigit_digit (Nat.mod_lt _ (by decide)), Bool.and_self]

theorem value_lt {s : List Char} (digits : s.all isDigit) : value s < 16 ^ s.length := by
  induction s with
  | nil => exact Nat.one_pos
  | cons c s ih =>
    rw [List.all_cons, Bool.and_eq_true] at digits
    have first := digitValue_lt digits.1
    have rest := ih digits.2
    calc digitValue c * 16 ^ s.length + value s
      _ < digitValue c * 16 ^ s.length + 16 ^ s.length := Nat.add_lt_add_left rest _
      _ = (digitValue c + 1) * 16 ^ s.length := (Nat.succ_mul _ _).symm
      _ ≤ 16 * 16 ^ s.length := Nat.mul_le_mul_right _ first
      _ = 16 ^ (c :: s).length := by rw [List.length_cons, Nat.pow_succ, Nat.mul_comm]

/-- Digits above the width are not printed. -/
theorem numeral_add (width high n : Nat) :
    numeral width (high * 16 ^ width + n) = numeral width n := by
  have low (k : Nat) (le : k ≤ width) :
      numeral k (high * 16 ^ width + n) = numeral k n := by
    induction k with
    | zero => rfl
    | succ k ih =>
      have split : high * 16 ^ width = 16 ^ k * (16 * (high * 16 ^ (width - k - 1))) := by
        rw [show width = k + (1 + (width - k - 1)) by omega, Nat.pow_add, Nat.pow_add]
        rw [show k + (1 + (width - k - 1)) - k - 1 = width - k - 1 by omega]
        ring
      rw [numeral, numeral, ih (by omega), split, Nat.mul_add_div (Nat.pow_pos (by decide)),
        Nat.mul_add_mod]
  exact low width le_rfl

/-- The printed form of what was read is the lower-case spelling. -/
theorem numeral_value {s : List Char} (digits : s.all isDigit) :
    numeral s.length (value s) = s.map Char.toLower := by
  induction s with
  | nil => rfl
  | cons c s ih =>
    rw [List.all_cons, Bool.and_eq_true] at digits
    have first : (digitValue c * 16 ^ s.length + value s) / 16 ^ s.length % 16 =
        digitValue c := by
      rw [Nat.mul_comm, Nat.mul_add_div (Nat.pow_pos (by decide)),
        Nat.div_eq_of_lt (value_lt digits.2), Nat.add_zero,
          Nat.mod_eq_of_lt (digitValue_lt digits.1)]
    rw [List.length_cons, numeral, value, first, digit_digitValue digits.1, numeral_add,
      ih digits.2, List.map_cons]

theorem toLower_numeral (width n : Nat) :
    (numeral width n).map Char.toLower = numeral width n := by
  induction width with
  | zero => rfl
  | succ width ih =>
    rw [numeral, List.map_cons, ih, toLower_digit (Nat.mod_lt _ (by decide))]

/-! ## Order -/

theorem textLe_numeral (width n m : Nat) : textLe (numeral width n) (numeral width m) =
    decide (n % 16 ^ width ≤ m % 16 ^ width) := by
  induction width with
  | zero => simp [numeral, textLe, Nat.mod_one]
  | succ width ih =>
    have first := Nat.mod_lt (n / 16 ^ width) (show 0 < 16 by decide)
    have second := Nat.mod_lt (m / 16 ^ width) (show 0 < 16 by decide)
    have low := Nat.mod_lt n (Nat.pow_pos (n := width) (show 0 < 16 by decide))
    have low' := Nat.mod_lt m (Nat.pow_pos (n := width) (show 0 < 16 by decide))
    rw [numeral, numeral, textLe, ih, Nat.pow_succ, Nat.mod_mul, Nat.mod_mul]
    -- A smaller first digit outweighs everything after it.
    have outweighs {d e r t : Nat} (less : d < e) (bound : r < 16 ^ width) :
        r + 16 ^ width * d < t + 16 ^ width * e := by
      have step := Nat.mul_le_mul_left (16 ^ width) (Nat.succ_le_of_lt less)
      rw [Nat.mul_succ] at step
      omega
    obtain less | same | greater :=
      lt_trichotomy (n / 16 ^ width % 16) (m / 16 ^ width % 16)
    · rw [if_pos (digit_lt_digit less second)]
      exact (decide_eq_true (outweighs less low).le).symm
    · rw [same, if_neg (Char.lt_irrefl _), if_neg (Char.lt_irrefl _)]
      simp only [Nat.add_le_add_iff_right]
    · have above := digit_lt_digit greater first
      rw [if_neg (Char.lt_asymm above), if_pos above]
      exact (decide_eq_false (outweighs greater low').not_ge).symm

end Hexadecimal
