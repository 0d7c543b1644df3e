import Mathlib.Data.List.DropRight
import Mathlib.Data.Nat.Digits.Defs
import Torium.Faucet.Calendar
import Torium.Lib.JsonText

/-!
# Times in JSON

A time is written as its date and clock in its zone, the fraction of the second without trailing
zeros, and the offset of the zone. What is written is read back, with the zone. Other texts than
these are read by a more lenient parser of the standard library, which is a parameter.
-/

namespace Torium.Faucet

/-- An instant, and the offset of its zone in minutes. -/
structure Stamp where
  instant : Time
  offset : Int := 0
  deriving DecidableEq

/-- `time.Parse`, for texts that are not in the form that is written. -/
class TimeParser where
  parse : GoString → Option Stamp

def minute : Duration := 60 * second

def day : Duration := 86400 * second

/-- What the clock shows in the zone. -/
def Stamp.wall (t : Stamp) : Time := t.instant + t.offset * minute

/-- The fraction of a second, in nanoseconds. -/
def fractionText (nanos : Nat) : GoString :=
  if nanos = 0 then [] else 46 :: (padded 9 nanos).rdropWhile (· = 48)

def zoneText (offset : Int) : GoString :=
  if offset = 0 then [90]
  else (if offset < 0 then 45 else 43) ::
    (padded 2 (offset.natAbs / 60) ++ 58 :: padded 2 (offset.natAbs % 60))

/-- Date and time of day of a wall clock. -/
def clockText (date : Int × Nat × Nat) (seconds : Nat) : GoString :=
  padded 4 date.1.natAbs ++ 45 :: (padded 2 date.2.1 ++ 45 :: (padded 2 date.2.2 ++ 84 ::
    (padded 2 (seconds / 3600) ++ 58 :: (padded 2 (seconds / 60 % 60) ++ 58 ::
      padded 2 (seconds % 60)))))

/-- The time of day, in nanoseconds. -/
def timeOfDay (t : Time) : Nat := (t.fmod day).toNat

def Stamp.format (t : Stamp) : GoString :=
  clockText (civil (dayNumber t.wall)) (timeOfDay t.wall / 1000000000) ++
    (fractionText (timeOfDay t.wall % 1000000000) ++ zoneText t.offset)

/-- Years have four digits, and offsets are shorter than a day. -/
def Stamp.Encodable (t : Stamp) : Prop :=
  0 ≤ t.wall.year ∧ t.wall.year ≤ 9999 ∧ t.offset.natAbs < 24 * 60

instance (t : Stamp) : Decidable t.Encodable := inferInstanceAs (Decidable (_ ∧ _ ∧ _))

/-- `MarshalJSON`. -/
def Stamp.marshal (t : Stamp) : Option GoString :=
  if t.Encodable then some (34 :: t.format ++ [34]) else none

/-! ## Reading -/

/-- A number of a fixed width within bounds. -/
def readNumber (width low high : Nat) (s : GoString) : Option (Nat × GoString) :=
  if s.length < width then none
  else (digitsValue? (s.take width)).bind fun n =>
    if low ≤ n ∧ n ≤ high then some (n, s.drop width) else none

def expect (mark : UInt8) : GoString → Option GoString
  | b :: rest => if b = mark then some rest else none
  | [] => none

/-- The fraction of a second; digits after the ninth are dropped. -/
def readFraction : GoString → Nat × GoString
  | 46 :: rest =>
    match digitsValue? ((rest.takeWhile isDigit).take 9) with
    | some n => (n * 10 ^ (9 - (rest.takeWhile isDigit).length), rest.dropWhile isDigit)
    | none => (0, 46 :: rest)
  | s => (0, s)

/-- The offset in minutes. -/
def readZone : GoString → Option Int
  | [90] => some 0
  | sign :: s => do
      let (hours, s) ← readNumber 2 0 23 s
      let s ← expect 58 s
      let (minutes, s) ← readNumber 2 0 59 s
      if s ≠ [] then none
      else if sign = 43 then some (hours * 60 + minutes)
      else if sign = 45 then some (-(hours * 60 + minutes))
      else none
  | [] => none

def parseRFC3339 (s : GoString) : Option Stamp := do
  let (year, s) ← readNumber 4 0 9999 s
  let s ← expect 45 s
  let (month, s) ← readNumber 2 1 12 s
  let s ← expect 45 s
  let (dayOfMonth, s) ← readNumber 2 1 (daysIn month year) s
  let s ← expect 84 s
  let (hour, s) ← readNumber 2 0 23 s
  let s ← expect 58 s
  let (minutes, s) ← readNumber 2 0 59 s
  let s ← expect 58 s
  let (seconds, s) ← readNumber 2 0 59 s
  let (nanos, s) := readFraction s
  let offset ← readZone s
  pure
    { instant := dayOf (year, month, dayOfMonth) * day +
        ((hour * 3600 + minutes * 60 + seconds : Nat) * second + nanos) - offset * minute
      offset }

/-- `UnmarshalJSON` on what stands between the quotes. -/
def Stamp.unmarshal [TimeParser] (raw : GoString) : Option Stamp :=
  match parseRFC3339 raw with
  | some t => some t
  | none => TimeParser.parse raw

/-! ## What is written is read back -/

theorem length_padded {width n : Nat} (wide : 0 < width) (small : n < 10 ^ width) :
    (padded width n).length = width := by
  have digits : (natText n).length ≤ width := by
    rw [natText, List.length_map]
    exact Nat.toDigits_length 10 n width wide small
  rw [padded, List.length_append, List.length_replicate]
  omega

theorem readNumber_padded (width low high : Nat) {n : Nat} (wide : 0 < width)
    (small : n < 10 ^ width) (above : low ≤ n) (below : n ≤ high) (rest : GoString) :
    readNumber width low high (padded width n ++ rest) = some (n, rest) := by
  have length := length_padded wide small
  have enough : ¬ (padded width n ++ rest).length < width := by
    rw [List.length_append, length]
    omega
  rw [readNumber, if_neg enough, List.take_left' length, List.drop_left' length,
    digitsValue?_padded, Option.bind_some, if_pos ⟨above, below⟩]

theorem expect_cons (mark : UInt8) (rest : GoString) : expect mark (mark :: rest) = some rest := by
  rw [expect, if_pos rfl]

theorem readZone_zoneText {offset : Int} (small : offset.natAbs < 24 * 60) :
    readZone (zoneText offset) = some offset := by
  have hours := readNumber_padded 2 0 23 (n := offset.natAbs / 60)
    (by decide) (by omega) (Nat.zero_le _) (by omega) (58 :: padded 2 (offset.natAbs % 60))
  have minutes := readNumber_padded 2 0 59 (n := offset.natAbs % 60)
    (by decide) (by omega) (Nat.zero_le _) (by omega) []
  rw [List.append_nil] at minutes
  unfold zoneText
  split_ifs with zero negative
  · rw [zero]
    rfl
  · rw [readZone.eq_2 _ _ (by rintro ⟨⟩)]
    simp only [hours, expect_cons, minutes, Option.bind_eq_bind, Option.bind_some]
    rw [if_neg (fun h => h rfl), if_neg (by decide), if_pos trivial]
    exact congrArg some (by omega)
  · rw [readZone.eq_2 _ _ (by rintro ⟨⟩)]
    simp only [hours, expect_cons, minutes, Option.bind_eq_bind, Option.bind_some]
    rw [if_neg (fun h => h rfl), if_pos trivial]
    exact congrArg some (by omega)

/-- Trailing zeros multiply the value. -/
theorem digitsValue?_append_zeros {digits : GoString} (nonempty : digits ≠ []) {n : Nat}
    (count : Nat) (value : digitsValue? (digits ++ List.replicate count 48) = some n) :
    ∃ m, digitsValue? digits = some m ∧ n = m * 10 ^ count := by
  have zeros (k count : Nat) : (List.replicate count (48 : UInt8)).foldl
      (fun n b => 10 * n + (b.toNat - 48)) k = k * 10 ^ count := by
    induction count generalizing k with
    | zero => exact (Nat.mul_one k).symm
    | succ count ih =>
      rw [List.replicate_succ, List.foldl_cons, ih, Nat.pow_succ']
      change (10 * k + 0) * 10 ^ count = _
      rw [Nat.add_zero, Nat.mul_comm 10 k, Nat.mul_assoc]
  unfold digitsValue? at value ⊢
  split_ifs at value with all
  have digit : digits.all isDigit := by
    have both := all.2
    rw [List.all_append, Bool.and_eq_true] at both
    exact both.1
  rw [List.foldl_append, zeros] at value
  exact ⟨_, if_pos ⟨nonempty, digit⟩, (Option.some.inj value).symm⟩

/-- What may follow the fraction of a second. -/
def EndsFraction (rest : GoString) : Prop := ∀ b ∈ rest.head?, isDigit b = false ∧ b ≠ 46

theorem takeWhile_isDigit_append {digits rest : GoString} (all : ∀ b ∈ digits, isDigit b)
    (ends : EndsFraction rest) :
    (digits ++ rest).takeWhile isDigit = digits ∧ (digits ++ rest).dropWhile isDigit = rest := by
  have stop : rest.takeWhile isDigit = [] ∧ rest.dropWhile isDigit = rest := by
    cases rest with
    | nil => exact ⟨rfl, rfl⟩
    | cons b rest =>
      have other := (ends b rfl).1
      simp [other]
  rw [List.takeWhile_append_of_pos all, List.dropWhile_append_of_pos all, stop.1, stop.2]
  exact ⟨List.append_nil _, rfl⟩

theorem readFraction_fractionText {nanos : Nat} (small : nanos < 1000000000) {rest : GoString}
    (ends : EndsFraction rest) : readFraction (fractionText nanos ++ rest) = (nanos, rest) := by
  unfold fractionText
  split_ifs with zero
  · rw [zero, List.nil_append, readFraction.eq_2 _ (by
      rintro tail rfl
      exact (ends 46 rfl).2 rfl)]
  · generalize core : (padded 9 nanos).rdropWhile (· = 48) = digits
    generalize tail : (padded 9 nanos).rtakeWhile (· = 48) = zeros
    have whole : padded 9 nanos = digits ++ List.replicate zeros.length 48 := by
      have all : ∀ b ∈ zeros, b = 48 := by
        intro b member
        rw [← tail] at member
        simpa using List.mem_rtakeWhile_imp member
      rw [← List.eq_replicate_of_mem all, ← core, ← tail, List.rdropWhile_append_rtakeWhile]
    have lengths := congrArg List.length whole
    rw [length_padded (by decide) (by omega), List.length_append, List.length_replicate] at lengths
    have nonempty : digits ≠ [] := by
      rintro rfl
      have count : zeros.length = 9 := by simpa using lengths.symm
      rw [count] at whole
      exact zero (padded_injective (show padded 9 nanos = padded 9 0 from whole))
    obtain ⟨m, value, same⟩ := digitsValue?_append_zeros nonempty zeros.length
      (whole ▸ digitsValue?_padded 9 nanos)
    have all : ∀ b ∈ digits, isDigit b := fun b member =>
      isDigit_of_mem_padded (whole ▸ List.mem_append_left _ member)
    obtain ⟨taken, dropped⟩ := takeWhile_isDigit_append all ends
    rw [List.cons_append, readFraction, taken, dropped, List.take_of_length_le (by omega), value]
    have exponent : 9 - digits.length = zeros.length := by omega
    rw [exponent, same]

theorem endsFraction_zoneText (offset : Int) : EndsFraction (zoneText offset) := by
  unfold zoneText
  split_ifs <;> rintro b ⟨⟩ <;> decide

theorem timeOfDay_lt (t : Time) : timeOfDay t < 86400 * 1000000000 := by
  have low := Int.fmod_nonneg_of_pos t (show (0 : Int) < day by decide)
  have high := Int.fmod_lt_of_pos t (show (0 : Int) < day by decide)
  simp only [timeOfDay, day, second] at *
  omega

/-- The day and the time of day make up a time. -/
theorem day_add_timeOfDay (t : Time) : dayNumber t * day + timeOfDay t = t := by
  have low := Int.fmod_nonneg_of_pos t (show (0 : Int) < day by decide)
  have whole := Int.fdiv_mul_add_fmod t day
  rw [timeOfDay, Int.toNat_of_nonneg low]
  exact whole

theorem parseRFC3339_clockText {year month dayOfMonth seconds nanos : Nat} {offset : Int}
    (years : year ≤ 9999) (months : 1 ≤ month ∧ month ≤ 12)
    (days : 1 ≤ dayOfMonth ∧ dayOfMonth ≤ daysIn month year) (short : seconds < 86400)
    (fraction : nanos < 1000000000) (zone : offset.natAbs < 24 * 60) :
    parseRFC3339 (clockText (year, month, dayOfMonth) seconds ++
        (fractionText nanos ++ zoneText offset)) =
      some { instant := dayOf (year, month, dayOfMonth) * day + (seconds * second + nanos) -
              offset * minute
             offset } := by
  have atMost := daysIn_le month year
  have readYear := readNumber_padded 4 0 9999 (n := year)
    (by decide) (by omega) (Nat.zero_le _) years
  have readMonth := readNumber_padded 2 1 12 (n := month)
    (by decide) (by omega) months.1 months.2
  have readDay := readNumber_padded 2 1 (daysIn month year)
    (n := dayOfMonth) (by decide) (by omega) days.1 days.2
  have readHour := readNumber_padded 2 0 23 (n := seconds / 3600)
    (by decide) (by omega) (Nat.zero_le _) (by omega)
  have readMinute := readNumber_padded 2 0 59
    (n := seconds / 60 % 60) (by decide) (by omega) (Nat.zero_le _) (by omega)
  have readSecond := readNumber_padded 2 0 59 (n := seconds % 60)
    (by decide) (by omega) (Nat.zero_le _) (by omega)
  have count : seconds / 3600 * 3600 + seconds / 60 % 60 * 60 + seconds % 60 = seconds := by omega
  simp only [clockText, Int.natAbs_natCast, List.append_assoc, List.cons_append, parseRFC3339,
    readYear, readMonth, readDay, readHour, readMinute, readSecond, expect_cons,
    readFraction_fractionText fraction (endsFraction_zoneText offset), readZone_zoneText zone,
    Option.bind_eq_bind, Option.bind_some, count]
  rfl

/-- A time that is written is read back. -/
theorem parseRFC3339_format {t : Stamp} (encodable : t.Encodable) :
    parseRFC3339 t.format = some t := by
  obtain ⟨low, high, zone⟩ := encodable
  obtain ⟨firstMonth, lastMonth, firstDay, lastDay⟩ := civil_bounds (dayNumber t.wall)
  have clock := timeOfDay_lt t.wall
  have whole := day_add_timeOfDay t.wall
  obtain ⟨year, same⟩ := Int.eq_ofNat_of_zero_le low
  change (civil (dayNumber t.wall)).1 = year at same
  change (civil (dayNumber t.wall)).1 ≤ 9999 at high
  have parts : civil (dayNumber t.wall) = ((year : Int), (civil (dayNumber t.wall)).2) :=
    Prod.ext same rfl
  rw [same] at high lastDay
  rw [Stamp.format, parts, parseRFC3339_clockText (by omega) ⟨firstMonth, lastMonth⟩
    ⟨firstDay, lastDay⟩ (by omega) (Nat.mod_lt _ (by decide)) zone]
  have date : dayOf ((year : Int), (civil (dayNumber t.wall)).2) = dayNumber t.wall :=
    (congrArg dayOf parts.symm).trans (dayOf_civil _)
  have instant : dayNumber t.wall * day + ((timeOfDay t.wall / 1000000000 : Nat) * second +
      (timeOfDay t.wall % 1000000000 : Nat)) - t.offset * minute = t.instant := by
    simp only [Stamp.wall, second] at whole ⊢
    omega
  rw [date, instant]

theorem Stamp.unmarshal_format [TimeParser] {t : Stamp} (encodable : t.Encodable) :
    Stamp.unmarshal t.format = some t := by
  rw [Stamp.unmarshal, parseRFC3339_format encodable]

end Torium.Faucet
