import Mathlib.Data.List.TakeWhile
import Torium.Evm.Basic
import Torium.Lib.JsonGrammar

/-!
# Duplicate keys of JSON texts

A recursive scanner goes over a text once and keeps the decoded names of each object's members. It
skips more white space than the grammar has, finds the end of a string by its first quote without a
backslash before it, and leaves the rest of a text unread where an array or an object is not closed.
The offset is kept as the rest of the text from there, and loops and calls are counted by fuel.
-/

namespace Torium.Generator

open JsonTree Evm

/-! ## The scanner -/

/-- Why a scan stops: an error with its message, or the fuel is used up. -/
inductive Failure where
  | thrown (message : JsString)
  | exhausted
  deriving DecidableEq

abbrev Scan (α : Type) : Type := Except Failure α

def failure (message : String) : Failure := .thrown (units message.toList)

def duplicateKey (key : JsString) : Failure :=
  .thrown (units "duplicate JSON object key: ".toList ++ key)

/-- White space of the language's patterns. -/
def isSpace (u : UInt16) : Bool :=
  (9 ≤ u && u ≤ 13) || u == 32 || u == 160 || u == 5760 || (8192 ≤ u && u ≤ 8202) || u == 8232 ||
    u == 8233 || u == 8239 || u == 8287 || u == 12288 || u == 65279

/-- The length up to the quote that ends a string. -/
def scanString : JsString → Option Nat
  | [] => none
  | 34 :: _ => some 1
  | 92 :: _ :: rest => (scanString rest).map (· + 2)
  | _ :: rest => (scanString rest).map (· + 1)

def integerLength : JsString → Option Nat
  | 48 :: _ => some 1
  | u :: rest => if isDigit u then some ((rest.takeWhile isDigit).length + 1) else none
  | [] => none

def fractionLength : JsString → Nat
  | 46 :: rest => if rest.takeWhile isDigit = [] then 0 else (rest.takeWhile isDigit).length + 1
  | _ => 0

def exponentSign : JsString → Nat
  | 43 :: _ => 1
  | 45 :: _ => 1
  | _ => 0

def exponentLength : JsString → Nat
  | u :: rest =>
    let digits := (rest.drop (exponentSign rest)).takeWhile isDigit
    if (u = 101 ∨ u = 69) ∧ digits ≠ [] then exponentSign rest + digits.length + 1 else 0
  | [] => 0

def signLength : JsString → Nat
  | 45 :: _ => 1
  | _ => 0

/-- The length of the match of `^-?(?:0|[1-9][0-9]*)(?:\.[0-9]+)?(?:[eE][+-]?[0-9]+)?`. -/
def matchNumber (text : JsString) : Option Nat := do
  let sign := signLength text
  let integer := sign + (← integerLength (text.drop sign))
  let fraction := integer + fractionLength (text.drop integer)
  return fraction + exponentLength (text.drop fraction)

variable {u : UInt16} {raw : JsString}

section Scanner

variable (text : JsString)

/-- The offset of a rest of the text, as it is shown. -/
def offsetOf (rest : JsString) : String := toString (text.length - rest.length)

def unexpectedToken (rest : JsString) : Failure :=
  failure ("unexpected JSON token at byte " ++ offsetOf text rest)

def skipWhitespace (rest : JsString) : JsString := rest.dropWhile isSpace

def expect (character : Char) (rest : JsString) : Scan JsString :=
  if rest.head? = some (unit character) then .ok rest.tail
  else .error (failure ("expected " ++ character.toString ++ " at byte " ++ offsetOf text rest))

def consumeLiteral (literal : String) (rest : JsString) : Scan JsString :=
  if units literal.toList <+: rest then .ok (rest.drop literal.length)
  else .error (unexpectedToken text rest)

def parseNumber (rest : JsString) : Scan JsString := do
  let length ← orRevert (unexpectedToken text rest) (matchNumber rest)
  return rest.drop length

/-- The decoding of a slice that starts and ends with a quote. -/
def parseSlice (slice : JsString) : Scan JsString :=
  orRevert (failure "SyntaxError") (decodeBody slice.tail.dropLast)

/-- A string, decoded, and the rest after it. -/
def parseString (start : JsString) : Scan (JsString × JsString) := do
  let inside ← expect text '"' start
  let length ← orRevert (failure "unterminated JSON string") (scanString inside)
  let decoded ← parseSlice (start.take (length + 1))
  return (decoded, inside.drop length)

/-- A member of an object after members with the given names: the names and the rest after it. -/
def parseMember (parseValue : JsString → Scan JsString) (keys : List JsString) (rest : JsString) :
    Scan (List JsString × JsString) := do
  let key ← parseString text (skipWhitespace rest)
  revertIf (key.1 ∈ keys) (duplicateKey key.1)
  let rest ← expect text ':' (skipWhitespace key.2)
  return (key.1 :: keys, ← parseValue rest)

def parseElement (parseValue : JsString → Scan JsString) (seen : Unit) (rest : JsString) :
    Scan (Unit × JsString) := do
  return (seen, ← parseValue rest)

/-- The loop over the elements of an array or the members of an object. -/
def parseItems {κ : Type} (close : Char) (parseItem : κ → JsString → Scan (κ × JsString)) :
    Nat → κ → JsString → Scan JsString
  | 0, _, _ => .error .exhausted
  | fuel + 1, seen, rest =>
    if rest = [] then .ok [] else do
      let read ← parseItem seen rest
      if (skipWhitespace read.2).head? = some (unit close) then .ok (skipWhitespace read.2).tail
      else parseItems close parseItem fuel read.1 (← expect text ',' (skipWhitespace read.2))

def parseGroup {κ : Type} (close : Char) (parseItem : κ → JsString → Scan (κ × JsString))
    (fuel : Nat) (none : κ) (rest : JsString) : Scan JsString :=
  if (skipWhitespace rest.tail).head? = some (unit close) then .ok (skipWhitespace rest.tail).tail
  else parseItems text close parseItem fuel none (skipWhitespace rest.tail)

def parseObject (parseValue : JsString → Scan JsString) (fuel : Nat) : JsString → Scan JsString :=
  parseGroup text '\x7d' (parseMember text parseValue) fuel []

def parseArray (parseValue : JsString → Scan JsString) (fuel : Nat) : JsString → Scan JsString :=
  parseGroup text ']' (parseElement parseValue) fuel ()

/-- The function that the first code unit of a value selects. -/
def parseToken (parseValue : JsString → Scan JsString) (fuel : Nat) (rest : JsString) :
    Scan JsString :=
  let token := rest.head?
  if token = some (unit '\x7b') then parseObject text parseValue fuel rest
  else if token = some (unit '[') then parseArray text parseValue fuel rest
  else if token = some (unit '"') then do return (← parseString text rest).2
  else if token = some (unit 't') then consumeLiteral text "true" rest
  else if token = some (unit 'f') then consumeLiteral text "false" rest
  else if token = some (unit 'n') then consumeLiteral text "null" rest
  else parseNumber text rest

def parseValue : Nat → JsString → Scan JsString
  | 0, _ => .error .exhausted
  | fuel + 1, rest => parseToken text (parseValue fuel) fuel (skipWhitespace rest)

def assertNoDuplicateJsonKeys (fuel : Nat) : Scan Unit := do
  let rest ← parseValue text fuel text
  revertIf (skipWhitespace rest ≠ []) (unexpectedToken text (skipWhitespace rest))

/-! ## Progress -/

variable {text} {length fuel : Nat} {rest s : JsString} {tree : JsonTree.Tree} {phrase : Phrase}

/-- The scan does not use up its fuel, and it leaves less than the given length. -/
def Leaves {α : Type} (rest : α → JsString) (length : Nat) : Scan α → Prop
  | .ok answer => (rest answer).length < length
  | .error failure => failure ≠ .exhausted

theorem Leaves.bind {α β : Type} {rest : α → JsString} {rest' : β → JsString} {length' : Nat}
    {first : Scan α} {next : α → Scan β} (leaves : Leaves rest length first)
    (later : ∀ answer, (rest answer).length < length → Leaves rest' length' (next answer)) :
    Leaves rest' length' (first >>= next) := by
  cases first with
  | error failure => exact leaves
  | ok answer => exact later answer leaves

theorem Leaves.mono {α : Type} {rest : α → JsString} {more : Nat} {result : Scan α}
    (leaves : Leaves rest length result) (le : length ≤ more) : Leaves rest more result := by
  cases result with
  | error failure => exact leaves
  | ok answer => exact Nat.lt_of_lt_of_le leaves le

theorem skipWhitespace_length (rest : JsString) : (skipWhitespace rest).length ≤ rest.length :=
  (List.dropWhile_sublist isSpace).length_le

theorem failure_ne (message : String) : failure message ≠ .exhausted := fun same => by cases same

theorem leaves_orRevert {α β : Type} {message : String} {result : Option α} {next : α → Scan β}
    {rest : β → JsString}
    (later : ∀ answer, result = some answer → Leaves rest length (next answer)) :
    Leaves rest length (orRevert (failure message) result >>= next) := by
  cases result with
  | none => exact failure_ne message
  | some answer => exact later answer rfl

theorem tail_length_lt (head : rest.head? = some u) :
    rest.tail.length < rest.length := by
  cases rest with
  | nil => cases head
  | cons _ tail => exact Nat.lt_succ_self tail.length

theorem leaves_expect (character : Char) (rest : JsString) :
    Leaves id rest.length (expect text character rest) := by
  rw [expect]
  split
  case isTrue head => exact tail_length_lt head
  case isFalse => exact failure_ne _

theorem leaves_parseString (start : JsString) :
    Leaves Prod.snd start.length (parseString text start) := by
  refine (leaves_expect '"' start).bind fun inside shorter => ?_
  refine leaves_orRevert fun length _ => leaves_orRevert fun decoded _ => ?_
  exact Nat.lt_of_le_of_lt (List.drop_sublist length inside).length_le shorter

theorem drop_length_lt (nonempty : rest ≠ []) (positive : 0 < length) :
    (rest.drop length).length < rest.length := by
  have := List.length_pos_of_ne_nil nonempty
  rw [List.length_drop]
  omega

theorem leaves_consumeLiteral {literal : String} (positive : 0 < literal.length) (rest : JsString) :
    Leaves id rest.length (consumeLiteral text literal rest) := by
  rw [consumeLiteral]
  split
  case isTrue found =>
    refine drop_length_lt ?_ positive
    rintro rfl
    rw [List.prefix_nil, units, List.map_eq_nil_iff, ← List.length_eq_zero_iff,
      String.length_toList] at found
    omega
  case isFalse => exact failure_ne _

theorem integerLength_pos (found : integerLength s = some length) :
    s ≠ [] ∧ 0 < length := by
  rw [integerLength.eq_def] at found
  split at found
  · cases found
    simp
  · split at found
    · cases found
      simp
    · cases found
  · cases found

theorem leaves_parseNumber (rest : JsString) : Leaves id rest.length (parseNumber text rest) := by
  refine leaves_orRevert fun length found => ?_
  simp only [matchNumber, Option.bind_eq_bind, Option.bind_eq_some_iff, Option.pure_def,
    Option.some.injEq] at found
  obtain ⟨integer, digits, rfl⟩ := found
  obtain ⟨nonempty, positive⟩ := integerLength_pos digits
  refine drop_length_lt ?_ (by omega)
  rintro rfl
  exact nonempty List.drop_nil

/-- The scan leaves less than it is given, wherever that is less than the bound. -/
def Steady {α : Type} (left : α → JsString) (bound : Nat) (parse : JsString → Scan α) : Prop :=
  ∀ rest : JsString, rest.length < bound → Leaves left rest.length (parse rest)

section Loops

variable {κ : Type} {parse : JsString → Scan JsString} {bound : Nat}
  {parseItem : κ → JsString → Scan (κ × JsString)}

theorem steady_parseElement (steady : Steady id bound parse) (seen : Unit) :
    Steady Prod.snd bound (parseElement parse seen) :=
  fun rest short => (steady rest short).bind fun _ shorter => shorter

theorem steady_parseMember (steady : Steady id bound parse) (keys : List JsString) :
    Steady Prod.snd bound (parseMember text parse keys) := by
  intro rest short
  have skipped := skipWhitespace_length rest
  refine (leaves_parseString _).bind fun key shorter => ?_
  have skippedKey := skipWhitespace_length key.2
  have new : Leaves (fun _ => []) 1 (revertIf (key.1 ∈ keys) (duplicateKey key.1)) := by
    rw [revertIf]
    split
    · exact fun same => by cases same
    · exact Nat.one_pos
  refine new.bind fun _ _ => (leaves_expect ':' _).bind fun value shorterValue => ?_
  change value.length < _ at shorterValue
  refine ((steady value (by omega)).mono ?_).bind fun _ left => left
  omega

theorem leaves_parseItems {close : Char} (items : ∀ seen, Steady Prod.snd bound (parseItem seen))
    (seen : κ) (enough : rest.length < fuel) (short : rest.length < bound) :
    Leaves id (rest.length + 1) (parseItems text close parseItem fuel seen rest) := by
  induction fuel generalizing seen rest with
  | zero => omega
  | succ fuel ih =>
    rw [parseItems]
    split
    · exact Nat.succ_pos _
    · refine (items seen rest short).bind fun read shorter => ?_
      have skipped := skipWhitespace_length read.2
      split
      case isTrue head =>
        have := tail_length_lt head
        change (skipWhitespace read.2).tail.length < _
        omega
      case isFalse =>
        refine (leaves_expect ',' _).bind fun next shorterNext => ?_
        change next.length < _ at shorterNext
        exact (ih read.1 (by omega) (by omega)).mono (by omega)

theorem leaves_parseGroup {close : Char} (items : ∀ seen, Steady Prod.snd bound (parseItem seen))
    (none : κ) (head : rest.head? = some u) (enough : rest.length < bound + 1) :
    Leaves id rest.length (parseGroup text close parseItem bound none rest) := by
  have shorter := tail_length_lt head
  have skipped := skipWhitespace_length rest.tail
  rw [parseGroup]
  split
  case isTrue closed =>
    have := tail_length_lt closed
    change (skipWhitespace rest.tail).tail.length < _
    omega
  case isFalse => exact (leaves_parseItems items none (by omega) (by omega)).mono (by omega)

end Loops

theorem steady_parseValue (fuel : Nat) : Steady id fuel (parseValue text fuel) := by
  induction fuel with
  | zero => exact fun _ short => absurd short (Nat.not_lt_zero _)
  | succ fuel ih =>
    intro rest short
    have skipped := skipWhitespace_length rest
    refine Leaves.mono ?_ skipped
    rw [parseValue, parseToken]
    split_ifs with object array
    · exact leaves_parseGroup (steady_parseMember ih) [] object (by omega)
    · exact leaves_parseGroup (steady_parseElement ih) () array (by omega)
    · exact (leaves_parseString _).bind fun _ shorter => shorter
    · exact leaves_consumeLiteral (by decide) _
    · exact leaves_consumeLiteral (by decide) _
    · exact leaves_consumeLiteral (by decide) _
    · exact leaves_parseNumber _

/-! ## White space -/

theorem isSpace_of_isWhitespace (white : isWhitespace u) : isSpace u := by
  simp only [isWhitespace, Bool.or_eq_true, beq_iff_eq] at white
  obtain ((rfl | rfl) | rfl) | rfl := white
  all_goals decide

/-- A text that does not start with white space. -/
def Visible (rest : JsString) : Prop := ∀ u, rest.head? = some u → isSpace u = false

theorem skipWhitespace_append {space : JsString} (white : Space space) (visible : Visible rest) :
    skipWhitespace (space ++ rest) = rest := by
  rw [skipWhitespace,
    List.dropWhile_append_of_pos fun u member => isSpace_of_isWhitespace (white u member)]
  cases rest with
  | nil => rfl
  | cons u rest => rw [List.dropWhile_cons_of_neg (by simpa using visible u rfl)]

theorem skipWhitespace_twice (rest : JsString) :
    skipWhitespace (skipWhitespace rest) = skipWhitespace rest := by
  induction rest with
  | nil => rfl
  | cons u rest ih =>
    rw [skipWhitespace, skipWhitespace, List.dropWhile_cons]
    split
    case isTrue => exact ih
    case isFalse visible => rw [List.dropWhile_cons_of_neg visible]

theorem parseValue_skipWhitespace (fuel : Nat) (rest : JsString) :
    parseValue text fuel (skipWhitespace rest) = parseValue text fuel rest := by
  cases fuel with
  | zero => rfl
  | succ fuel => rw [parseValue, parseValue, skipWhitespace_twice]

/-! ## Tokens of the grammar -/

theorem scanString_plain (plain : u ≠ 34 ∧ u ≠ 92) (rest : JsString) :
    scanString (u :: rest) = (scanString rest).map (· + 1) := by
  rw [scanString]
  · rintro ⟨⟩
    exact plain.1 rfl
  · rintro _ _ ⟨⟩
    exact fun _ => plain.2 rfl

theorem plain_of_hexValue? {value : UInt16} (hex : hexValue? u = some value) :
    u ≠ 34 ∧ u ≠ 92 := by
  constructor <;> rintro rfl <;> cases hex

/-- The end of a string of the grammar is its first quote without a backslash before it. -/
theorem scanString_of_decodeBody {body decoded : JsString} (valid : decodeBody body = some decoded)
    (rest : JsString) : scanString (body ++ unit '"' :: rest) = some (body.length + 1) := by
  induction body using decodeBody.induct generalizing decoded with
  | case1 => rfl
  | case2 a b c d tail ih =>
    simp only [decodeBody, Option.bind_eq_bind, Option.bind_eq_some_iff, codeUnit?] at valid
    obtain ⟨_, ⟨_, first, _, second, _, third, _, fourth, -⟩, decodedTail, valid, -⟩ := valid
    change (scanString (a :: b :: c :: d :: (tail ++ _))).map (· + 2) = _
    rw [scanString_plain (plain_of_hexValue? first), scanString_plain (plain_of_hexValue? second),
      scanString_plain (plain_of_hexValue? third), scanString_plain (plain_of_hexValue? fourth),
      ih valid]
    rfl
  | case3 letter tail noCode ih =>
    rw [decodeBody] at valid
    · simp only [Option.bind_eq_bind, Option.bind_eq_some_iff] at valid
      obtain ⟨_, -, decodedTail, valid, -⟩ := valid
      change (scanString (tail ++ _)).map (· + 2) = _
      rw [ih valid]
      rfl
    · exact noCode
  | case4 u tail noCode noEscape invalid =>
    rw [decodeBody, if_pos invalid] at valid
    · cases valid
    · exact noCode
    · exact noEscape
  | case5 u tail noCode noEscape plain ih =>
    rw [decodeBody, if_neg plain] at valid
    · simp only [Option.bind_eq_bind, Option.bind_eq_some_iff] at valid
      obtain ⟨decodedTail, valid, -⟩ := valid
      rw [List.cons_append, scanString_plain ⟨by tauto, by tauto⟩, ih valid]
      rfl
    · exact noCode
    · exact noEscape

/-- A text after a number: it does not go on with a digit, a fraction or an exponent. -/
def Stops (rest : JsString) : Prop :=
  ∀ u, rest.head? = some u → isDigit u = false ∧ u ≠ 46 ∧ u ≠ 101 ∧ u ≠ 69

theorem takeWhile_digits {digits : JsString} (valid : digits.all isDigit)
    (stops : ∀ u, rest.head? = some u → isDigit u = false) :
    (digits ++ rest).takeWhile isDigit = digits := by
  have none : rest.takeWhile isDigit = [] := by
    cases rest with
    | nil => rfl
    | cons u rest => rw [List.takeWhile_cons_of_neg]; simpa using stops u rfl
  rw [List.takeWhile_append_of_pos (List.all_eq_true.mp valid), none, List.append_nil]

theorem exponentSign_append {sign digits : JsString}
    (signed : sign = [] ∨ sign = [43] ∨ sign = [45]) (valid : Digits digits) :
    exponentSign (sign ++ (digits ++ rest)) = sign.length := by
  obtain rfl | rfl | rfl := signed
  · obtain ⟨nonempty, all⟩ := valid
    cases digits with
    | nil => exact absurd rfl nonempty
    | cons u digits =>
      rw [List.all_cons, Bool.and_eq_true] at all
      rw [List.nil_append, List.cons_append, exponentSign]
      · rfl
      · rintro _ ⟨⟩
        exact absurd all.1 (by decide)
      · rintro _ ⟨⟩
        exact absurd all.1 (by decide)
  · rfl
  · rfl

theorem exponentLength_of_isExponent (valid : IsExponent raw) (stops : Stops rest) :
    exponentLength (raw ++ rest) = raw.length := by
  obtain rfl | ⟨letter, sign, digits, rfl, e, signed, digital⟩ := valid
  · cases rest with
    | nil => rfl
    | cons u rest =>
      obtain ⟨-, -, noLower, noUpper⟩ := stops u rfl
      rw [List.nil_append, exponentLength, if_neg (by tauto)]
      rfl
  · rw [List.cons_append, List.append_assoc, exponentLength, exponentSign_append signed digital,
      List.drop_left, takeWhile_digits digital.2 fun u head => (stops u head).1,
      if_pos ⟨e, digital.1⟩, List.length_cons, List.length_append]

/-- What follows the fraction of a number. -/
theorem head_of_isExponent (valid : IsExponent raw) (stops : Stops rest) :
    ∀ u, (raw ++ rest).head? = some u → isDigit u = false ∧ u ≠ 46 := by
  obtain rfl | ⟨letter, sign, digits, rfl, e, -⟩ := valid
  · exact fun u head => ⟨(stops u head).1, (stops u head).2.1⟩
  · rintro u ⟨⟩
    obtain rfl | rfl := e
    · decide
    · decide

theorem fractionLength_of_isFraction (valid : IsFraction raw)
    (stops : ∀ u, rest.head? = some u → isDigit u = false ∧ u ≠ 46) :
    fractionLength (raw ++ rest) = raw.length := by
  obtain rfl | ⟨digits, rfl, digital⟩ := valid
  · cases rest with
    | nil => rfl
    | cons u rest =>
      rw [List.nil_append, fractionLength]
      · rfl
      · rintro _ ⟨⟩
        exact (stops _ rfl).2 rfl
  · rw [List.cons_append, fractionLength,
      takeWhile_digits digital.2 fun u head => (stops u head).1, if_neg digital.1, List.length_cons]

/-- What follows the digits before the fraction. -/
theorem head_of_isFraction (valid : IsFraction raw)
    (stops : ∀ u, rest.head? = some u → isDigit u = false ∧ u ≠ 46) :
    ∀ u, (raw ++ rest).head? = some u → isDigit u = false := by
  obtain rfl | ⟨digits, rfl, -⟩ := valid
  · exact fun u head => (stops u head).1
  · rintro u ⟨⟩
    decide

theorem integerLength_of_isInteger (valid : IsInteger raw)
    (stops : ∀ u, rest.head? = some u → isDigit u = false) :
    integerLength (raw ++ rest) = some raw.length := by
  obtain rfl | ⟨first, digits, rfl, digit, nonzero, all⟩ := valid
  · rfl
  · rw [List.cons_append, integerLength, if_pos digit, takeWhile_digits all stops, List.length_cons]
    rintro ⟨⟩
    exact nonzero rfl

theorem isInteger_head (valid : IsInteger raw) :
    ∃ u rest, raw = u :: rest ∧ isDigit u := by
  obtain rfl | ⟨first, digits, rfl, digit, -, -⟩ := valid
  · exact ⟨48, [], rfl, by decide⟩
  · exact ⟨first, digits, rfl, digit⟩

theorem signLength_append {sign integer : JsString} (signed : sign = [] ∨ sign = [45])
    (valid : IsInteger integer) : signLength (sign ++ (integer ++ rest)) = sign.length := by
  obtain rfl | rfl := signed
  · obtain ⟨u, digits, rfl, digit⟩ := isInteger_head valid
    rw [List.nil_append, List.cons_append, signLength]
    · rfl
    · rintro _ ⟨⟩
      exact absurd digit (by decide)
  · rfl

/-- The match of a number of the grammar is the number. -/
theorem matchNumber_of_isNumber (valid : IsNumber raw) (stops : Stops rest) :
    matchNumber (raw ++ rest) = some raw.length := by
  obtain ⟨sign, integer, fraction, exponent, rfl, signed, integral, fractional, exponential⟩ :=
    valid
  have afterFraction := head_of_isExponent exponential stops
  have afterInteger := head_of_isFraction fractional afterFraction
  have dropInteger (tail : JsString) :
      (sign ++ (integer ++ tail)).drop (sign.length + integer.length) = tail := by
    rw [← List.drop_drop, List.drop_left, List.drop_left]
  have dropFraction (tail : JsString) : (sign ++ (integer ++ (fraction ++ tail))).drop
      (sign.length + integer.length + fraction.length) = tail := by
    rw [← List.drop_drop, dropInteger, List.drop_left]
  simp only [List.append_assoc]
  rw [matchNumber, signLength_append signed integral, List.drop_left,
    integerLength_of_isInteger integral afterInteger]
  simp only [Option.bind_eq_bind, Option.bind_some, dropInteger,
    fractionLength_of_isFraction fractional afterFraction, dropFraction,
    exponentLength_of_isExponent exponential stops]
  simp [Nat.add_assoc]

theorem parseString_quoted {body decoded : JsString} (valid : decodeBody body = some decoded) :
    parseString text (quoted body ++ rest) = .ok (decoded, rest) := by
  have opened : quoted body ++ rest = unit '"' :: (body ++ unit '"' :: rest) := by simp [quoted]
  have slice : (quoted body ++ rest).take (body.length + 1 + 1) = quoted body :=
    List.take_left' (by simp [quoted])
  have inner : (quoted body).tail.dropLast = body := by simp [quoted]
  simp only [parseString, bind_eq_ok, orRevert_eq_ok, parseSlice]
  refine ⟨body ++ unit '"' :: rest, by rw [opened]; rfl, body.length + 1,
    scanString_of_decodeBody valid rest, decoded, ?_, ?_⟩
  · rw [slice, inner, valid]
  · have after : (body ++ unit '"' :: rest).drop (body.length + 1) = rest := by
      rw [← List.drop_drop, List.drop_left]
      rfl
    rw [after]
    rfl

/-! ## Phrases of the grammar -/

/-- No two members of an object have one name. -/
def Distinct : JsonTree.Tree → Prop
  | .object entries => (entries.map Prod.fst).Nodup
  | _ => True

/-- No object at any depth has two members of one name. -/
abbrev NoDuplicates (tree : JsonTree.Tree) : Prop := Everywhere Distinct tree

/-- The scan gives the answer if the condition holds, and otherwise reports a duplicate key. -/
def Outcome {α : Type} (result : Scan α) (good : Prop) (answer : α) : Prop :=
  (good → result = .ok answer) ∧ (¬good → ∃ key, result = .error (duplicateKey key))

theorem Outcome.ok {α : Type} {result : Scan α} {good : Prop} {answer : α} (holds : good)
    (returned : result = .ok answer) : Outcome result good answer :=
  ⟨fun _ => returned, fun bad => absurd holds bad⟩

theorem Outcome.bind {α β : Type} {first : Scan α} {next : α → Scan β} {good later : Prop}
    {answer : α} {final : β} (outcome : Outcome first good answer)
    (rest : Outcome (next answer) later final) :
    Outcome (first >>= next) (good ∧ later) final := by
  constructor
  · rintro ⟨here, after⟩
    rw [outcome.1 here]
    exact rest.1 after
  · intro bad
    by_cases here : good
    · rw [outcome.1 here]
      exact rest.2 fun after => bad ⟨here, after⟩
    · obtain ⟨key, failed⟩ := outcome.2 here
      rw [failed]
      exact ⟨key, rfl⟩

theorem Outcome.congr {α : Type} {result : Scan α} {good other : Prop} {answer : α}
    (outcome : Outcome result good answer) (same : good ↔ other) : Outcome result other answer := by
  rwa [propext same] at outcome

/-- A text after an element. -/
def Ends (rest : JsString) : Prop :=
  ∀ u, rest.head? = some u → u = unit ',' ∨ u = unit ']' ∨ u = unit '\x7d'

theorem ends_cons (bracket : u = unit ',' ∨ u = unit ']' ∨ u = unit '\x7d') :
    Ends (u :: rest) := by
  rintro _ ⟨⟩
  exact bracket

theorem Ends.not_isSpace (ends : Ends rest) :
    ∀ u, rest.head? = some u → isSpace u = false := by
  intro u head
  obtain rfl | rfl | rfl := ends u head
  all_goals decide

theorem Ends.stops {space : JsString} (ends : Ends rest) (white : Space space) :
    Stops (space ++ rest) := by
  intro u head
  cases space with
  | nil =>
    obtain rfl | rfl | rfl := ends u head
    all_goals decide
  | cons first space =>
    cases head
    have blank := white u (List.mem_cons_self)
    simp only [isWhitespace, Bool.or_eq_true, beq_iff_eq] at blank
    obtain ((rfl | rfl) | rfl) | rfl := blank
    all_goals decide

/-- A code unit that starts a value. -/
def StartsValue (u : UInt16) : Prop := isSpace u = false ∧ u ≠ unit ']' ∧ u ≠ unit '\x7d'

theorem startsValue_of_isDigit (digit : isDigit u) : StartsValue u := by
  simp only [isDigit, Bool.and_eq_true, decide_eq_true_iff, UInt16.le_iff_toNat_le] at digit
  change 48 ≤ u.toNat ∧ u.toNat ≤ 57 at digit
  refine ⟨?_, ?_, ?_⟩
  · simp only [isSpace, Bool.or_eq_false_iff, Bool.and_eq_false_iff, decide_eq_false_iff_not,
      UInt16.le_iff_toNat_le, beq_eq_false_iff_ne, ne_eq, ← UInt16.toNat_inj]
    simp
    omega
  · rintro rfl
    exact absurd digit.2 (by decide)
  · rintro rfl
    exact absurd digit.2 (by decide)

theorem isNumber_head (valid : IsNumber raw) :
    ∃ u rest, raw = u :: rest ∧ (u = 45 ∨ isDigit u) := by
  obtain ⟨sign, integer, fraction, exponent, rfl, signed, integral, -, -⟩ := valid
  obtain ⟨u, digits, rfl, digit⟩ := isInteger_head integral
  obtain rfl | rfl := signed
  · exact ⟨u, _, rfl, .inr digit⟩
  · exact ⟨45, _, rfl, .inl rfl⟩

theorem value_head (derives : Derives (.value tree) s) :
    ∃ u rest, s = u :: rest ∧ StartsValue u := by
  cases derives with
  | number valid =>
    obtain ⟨u, rest, rfl, rfl | digit⟩ := isNumber_head valid
    · exact ⟨_, _, rfl, by decide, by decide, by decide⟩
    · exact ⟨_, _, rfl, startsValue_of_isDigit digit⟩
  | _ => exact ⟨_, _, rfl, by decide, by decide, by decide⟩

/-- The first code unit of a phrase after its white space. -/
theorem derives_head (derives : Derives phrase s) :
    ∃ space u rest, s = space ++ u :: rest ∧ Space space ∧ StartsValue u := by
  induction derives with
  | element white _ value _ =>
    obtain ⟨u, rest, rfl, starts⟩ := value_head value
    exact ⟨_, u, _, rfl, white, starts⟩
  | member white _ _ _ _ => exact ⟨_, _, _, rfl, white, by decide, by decide, by decide⟩
  | lastElement _ ih | lastMember _ ih => exact ih
  | nextElement _ _ ih _ | nextMember _ _ ih _ =>
    obtain ⟨space, u, rest, rfl, white, starts⟩ := ih
    exact ⟨space, u, _, by rw [List.append_assoc, List.cons_append], white, starts⟩
  | number valid =>
    obtain ⟨u, rest, rfl, starts⟩ := value_head (.number valid)
    exact ⟨[], u, rest, rfl, by simp [Space], starts⟩
  | _ => exact ⟨[], _, _, rfl, by simp [Space], by decide, by decide, by decide⟩

theorem Outcome.map {α β : Type} {result : Scan α} {good : Prop} {answer : α} (f : α → β)
    (outcome : Outcome result good answer) : Outcome (f <$> result) good (f answer) := by
  constructor
  · intro holds
    rw [outcome.1 holds]
    rfl
  · intro bad
    obtain ⟨key, failed⟩ := outcome.2 bad
    rw [failed]
    exact ⟨key, rfl⟩

section Values

variable {space : JsString}

theorem consumeLiteral_append (text : JsString) (literal : String) :
    consumeLiteral text literal (units literal.toList ++ rest) = .ok rest := by
  have length : literal.length = (units literal.toList).length := by
    rw [units, List.length_map, String.length_toList]
  rw [consumeLiteral, if_pos (List.prefix_append _ _), length, List.drop_left]

/-- A number starts with none of the other tokens. -/
theorem parseToken_number {parse : JsString → Scan JsString} (valid : IsNumber raw)
    (stops : Stops rest) : parseToken text parse fuel (raw ++ rest) = .ok rest := by
  have number : parseNumber text (raw ++ rest) = .ok rest := by
    rw [parseNumber, matchNumber_of_isNumber valid stops]
    exact congrArg Except.ok List.drop_left
  obtain ⟨u, tail, rfl, first⟩ := isNumber_head valid
  have other (token : UInt16) (noSign : token ≠ 45) (noDigit : isDigit token = false) :
      (u :: tail ++ rest).head? ≠ some token := by
    rintro ⟨⟩
    obtain rfl | digit := first
    · exact noSign rfl
    · rw [noDigit] at digit
      cases digit
  simp only [parseToken]
  rw [if_neg (other _ (by decide) (by decide)), if_neg (other _ (by decide) (by decide)),
    if_neg (other _ (by decide) (by decide)), if_neg (other _ (by decide) (by decide)),
    if_neg (other _ (by decide) (by decide)), if_neg (other _ (by decide) (by decide)), number]

end Values

/-! ### Arrays and objects -/

section Items

variable {κ : Type} {close : Char} {parseItem : κ → JsString → Scan (κ × JsString)}
  {bound : Nat} {none seen : κ} {t : JsString} {good later : κ → Prop} {next : κ → κ}

/-- The scan of an item, with the white space after it. -/
def itemAndSpace (parseItem : κ → JsString → Scan (κ × JsString)) (seen : κ) (rest : JsString) :
    Scan (κ × JsString) :=
  (fun read => (read.1, skipWhitespace read.2)) <$> parseItem seen rest

/-- What the scan of an element or a member does on its text. -/
def ReadsItem (parseItem : κ → JsString → Scan (κ × JsString)) (bound : Nat) (good : κ → Prop)
    (next : κ → κ) (s : JsString) : Prop :=
  ∀ seen rest, Ends rest → (s ++ rest).length < bound →
    Outcome (itemAndSpace parseItem seen (s ++ rest)) (good seen) (next seen, rest)

/-- What the loop does on the texts of several ones and the bracket after them. -/
def ReadsItems (text : JsString) (close : Char) (parseItem : κ → JsString → Scan (κ × JsString))
    (bound : Nat) (good : κ → Prop) (s : JsString) : Prop :=
  ∀ seen fuel rest, (s ++ unit close :: rest).length < fuel →
    (s ++ unit close :: rest).length < bound →
    Outcome (parseItems text close parseItem fuel seen (s ++ unit close :: rest)) (good seen) rest

theorem ReadsItems.congr (reads : ReadsItems text close parseItem bound good s)
    (same : ∀ seen, good seen ↔ later seen) : ReadsItems text close parseItem bound later s :=
  fun seen fuel rest enough short => (reads seen fuel rest enough short).congr (same seen)

/-- One turn of the loop. -/
theorem parseItems_succ (nonempty : rest ≠ []) :
    parseItems text close parseItem (fuel + 1) seen rest =
      itemAndSpace parseItem seen rest >>= fun read =>
        if read.2.head? = some (unit close) then .ok read.2.tail
        else expect text ',' read.2 >>= parseItems text close parseItem fuel read.1 := by
  rw [parseItems, if_neg nonempty, itemAndSpace]
  cases parseItem seen rest <;> rfl

theorem nonempty_of_derives (derives : Derives phrase s) : s ++ rest ≠ [] := by
  obtain ⟨space, u, tail, rfl, -, -⟩ := derives_head derives
  simp

theorem succ_of_lt {short : Nat} (enough : short < fuel) : ∃ less, fuel = less + 1 :=
  ⟨fuel - 1, by omega⟩

theorem readsItems_last (derives : Derives phrase s) (bracket : close = ']' ∨ close = '\x7d')
    (reads : ReadsItem parseItem bound good next s) :
    ReadsItems text close parseItem bound good s := by
  intro seen fuel rest enough short
  obtain ⟨less, rfl⟩ := succ_of_lt enough
  have ends : Ends (unit close :: rest) := by
    obtain rfl | rfl := bracket
    · exact ends_cons (by simp)
    · exact ends_cons (by simp)
  rw [parseItems_succ (nonempty_of_derives derives)]
  exact ((reads seen _ ends short).bind (.ok trivial (if_pos rfl))).congr (and_iff_left trivial)

theorem readsItems_next (derives : Derives phrase s) (other : unit ',' ≠ unit close)
    (reads : ReadsItem parseItem bound good next s)
    (readsLater : ReadsItems text close parseItem bound later t) :
    ReadsItems text close parseItem bound (fun seen => good seen ∧ later (next seen))
      (s ++ unit ',' :: t) := by
  intro seen fuel rest enough short
  obtain ⟨less, rfl⟩ := succ_of_lt enough
  rw [List.append_assoc, List.cons_append] at enough short ⊢
  rw [parseItems_succ (nonempty_of_derives derives)]
  refine (reads seen _ (ends_cons (by simp)) short).bind ?_
  rw [List.head?_cons, if_neg (fun same => other (Option.some.inj same)), expect, List.head?_cons,
    if_pos rfl]
  rw [List.length_append, List.length_cons] at enough short
  exact readsLater _ _ _ (by omega) (by omega)

/-- The scan of an item does not depend on the white space before it. -/
def SkipsFirst (parseItem : κ → JsString → Scan (κ × JsString)) : Prop :=
  ∀ seen rest, parseItem seen (skipWhitespace rest) = parseItem seen rest

theorem skipsFirst_parseElement : SkipsFirst (parseElement (parseValue text bound)) := by
  intro seen rest
  rw [parseElement, parseElement, parseValue_skipWhitespace]

theorem skipsFirst_parseMember {parse : JsString → Scan JsString} :
    SkipsFirst (parseMember text parse) := by
  intro seen rest
  rw [parseMember, parseMember, skipWhitespace_twice]

theorem parseGroup_empty {space : JsString} (visible : isSpace (unit close) = false)
    (blank : Space space) (u : UInt16) :
    parseGroup text close parseItem fuel none (u :: (space ++ unit close :: rest)) = .ok rest := by
  rw [parseGroup, List.tail_cons,
    skipWhitespace_append blank fun _ head => by cases head; exact visible, List.head?_cons,
    if_pos rfl, List.tail_cons]

theorem outcome_parseGroup (derives : Derives phrase s)
    (other : ∀ u, StartsValue u → u ≠ unit close) (skips : SkipsFirst parseItem)
    (reads : ReadsItems text close parseItem bound good s) (u : UInt16)
    (short : (s ++ unit close :: rest).length < bound) :
    Outcome (parseGroup text close parseItem bound none (u :: (s ++ unit close :: rest)))
      (good none) rest := by
  have items := reads none bound rest short short
  obtain ⟨space, v, tail, rfl, white, starts⟩ := derives_head derives
  rw [List.append_assoc, List.cons_append] at items short ⊢
  have skipped : skipWhitespace (space ++ v :: (tail ++ unit close :: rest)) =
      v :: (tail ++ unit close :: rest) :=
    skipWhitespace_append white fun _ head => by cases head; exact starts.1
  obtain ⟨less, rfl⟩ := succ_of_lt short
  rw [parseItems, if_neg (by simp), ← skips, skipped] at items
  rw [parseGroup, List.tail_cons, skipped, List.head?_cons,
    if_neg (fun same => other v starts (Option.some.inj same)), parseItems, if_neg (by simp)]
  exact items

end Items

/-- What the scanner does on a text of a phrase, followed by what may follow it. -/
def Reads (text : JsString) : Phrase → JsString → Prop
  | .value tree, s => ∀ fuel rest, Stops rest → (s ++ rest).length ≤ fuel →
      Outcome (parseToken text (parseValue text fuel) fuel (s ++ rest)) (NoDuplicates tree) rest
  | .element tree, s => ∀ bound, ReadsItem (parseElement (parseValue text bound)) bound
      (fun _ => NoDuplicates tree) id s
  | .elements trees, s => ∀ bound, ReadsItems text ']' (parseElement (parseValue text bound)) bound
      (fun _ => ∀ tree ∈ trees, NoDuplicates tree) s
  | .member entry, s => ∀ bound, ReadsItem (parseMember text (parseValue text bound)) bound
      (fun keys => entry.1 ∉ keys ∧ NoDuplicates entry.2) (entry.1 :: ·) s
  | .members entries, s => ∀ bound, ReadsItems text '\x7d'
      (parseMember text (parseValue text bound)) bound
      (fun keys => (entries.map Prod.fst).Nodup ∧ (∀ entry ∈ entries, entry.1 ∉ keys) ∧
        ∀ entry ∈ entries, NoDuplicates entry.2) s

theorem reads_element {before after : JsString} (derives : Derives (.value tree) s)
    (spaced : Space before) (blank : Space after) (reads : Reads text (.value tree) s) :
    Reads text (.element tree) (before ++ (s ++ after)) := by
  intro bound seen rest ends short
  obtain ⟨less, rfl⟩ := succ_of_lt short
  rw [List.append_assoc, List.append_assoc] at short ⊢
  have visible : Visible (s ++ (after ++ rest)) := by
    obtain ⟨u, tail, rfl, starts⟩ := value_head derives
    rintro _ ⟨⟩
    exact starts.1
  have value := reads less (after ++ rest) (ends.stops blank)
    (by rw [List.length_append] at short; omega)
  rw [itemAndSpace, parseElement, parseValue, skipWhitespace_append spaced visible]
  have outcome := (value.map fun stop => (seen, stop)).map fun read =>
    (read.1, skipWhitespace read.2)
  rwa [skipWhitespace_append blank ends.not_isSpace] at outcome

theorem outcome_revertIf (key : JsString) (keys : List JsString) :
    Outcome (revertIf (key ∈ keys) (duplicateKey key)) (key ∉ keys) () := by
  by_cases known : key ∈ keys
  · rw [revertIf, if_pos known]
    exact ⟨fun new => absurd known new, fun _ => ⟨key, rfl⟩⟩
  · rw [revertIf, if_neg known]
    exact .ok known rfl

theorem reads_member {name body before after : JsString} (spaced : Space before)
    (blank : Space after) (valid : decodeBody body = some name)
    (reads : Reads text (.element tree) s) :
    Reads text (.member (name, tree)) (before ++ (quoted body ++ (after ++ unit ':' :: s))) := by
  intro bound keys rest ends short
  have flat : before ++ (quoted body ++ (after ++ unit ':' :: s)) ++ rest =
      before ++ (quoted body ++ (after ++ unit ':' :: (s ++ rest))) := by simp
  rw [flat] at short ⊢
  have element := reads bound () rest ends (by
    simp only [List.length_append, List.length_cons] at short ⊢
    omega)
  have unfolded : itemAndSpace (parseMember text (parseValue text bound)) keys
      (before ++ (quoted body ++ (after ++ unit ':' :: (s ++ rest)))) =
      revertIf (name ∈ keys) (duplicateKey name) >>= fun _ =>
        (fun read => (name :: keys, read.2)) <$>
          itemAndSpace (parseElement (parseValue text bound)) () (s ++ rest) := by
    rw [itemAndSpace, itemAndSpace, parseElement, parseMember, skipWhitespace_append spaced
      (fun _ head => by cases head; decide), parseString_quoted valid]
    change _ <$> (revertIf (name ∈ keys) (duplicateKey name) >>= fun _ =>
      expect text ':' (skipWhitespace (after ++ unit ':' :: (s ++ rest))) >>= _) = _
    rw [skipWhitespace_append blank (fun _ head => by cases head; decide), expect, List.head?_cons,
      if_pos rfl]
    cases revertIf (name ∈ keys) (duplicateKey name) with
    | error failure => rfl
    | ok _ =>
      change _ <$> (parseValue text bound (s ++ rest) >>= _) = _ <$> _ <$> _
      cases parseValue text bound (s ++ rest) <;> rfl
  rw [unfolded]
  exact (outcome_revertIf name keys).bind (element.map _)

/-- The names of the later members against those of the first and of the members before it. -/
theorem distinct_cons_iff {name : JsString} {keys : List JsString}
    {entries : List (JsString × JsonTree.Tree)} :
    ((name ∉ keys ∧ NoDuplicates tree) ∧ (entries.map Prod.fst).Nodup ∧
        (∀ entry ∈ entries, entry.1 ∉ name :: keys) ∧ ∀ entry ∈ entries, NoDuplicates entry.2) ↔
      (((name, tree) :: entries).map Prod.fst).Nodup ∧
        (∀ entry ∈ (name, tree) :: entries, entry.1 ∉ keys) ∧
        ∀ entry ∈ (name, tree) :: entries, NoDuplicates entry.2 := by
  have first : (∀ entry ∈ entries, entry.1 ∉ name :: keys) ↔
      name ∉ entries.map Prod.fst ∧ ∀ entry ∈ entries, entry.1 ∉ keys := by
    simp only [List.mem_cons, not_or, List.mem_map, not_exists, not_and]
    constructor
    · intro new
      exact ⟨fun entry member => (new entry member).1, fun entry member => (new entry member).2⟩
    · rintro ⟨other, new⟩ entry member
      exact ⟨other entry member, new entry member⟩
  rw [first, List.map_cons, List.nodup_cons, List.forall_mem_cons, List.forall_mem_cons]
  tauto

/-- The scanner follows the grammar: one case for each rule. -/
theorem reads_of_derives (text : JsString) (derives : Derives phrase s) :
    Reads text phrase s := by
  have leaf {tree : JsonTree.Tree} (noArray : ∀ items, tree ≠ .array items)
      (noObject : ∀ members, tree ≠ .object members) (trivially : Distinct tree) :
      NoDuplicates tree := everywhere_leaf trivially noArray noObject
  induction derives with
  | null =>
    exact fun fuel rest _ _ => .ok (leaf (by simp) (by simp) trivial)
      (consumeLiteral_append text "null")
  | true =>
    exact fun fuel rest _ _ => .ok (leaf (by simp) (by simp) trivial)
      (consumeLiteral_append text "true")
  | false =>
    exact fun fuel rest _ _ => .ok (leaf (by simp) (by simp) trivial)
      (consumeLiteral_append text "false")
  | number valid =>
    exact fun fuel rest stops _ => .ok (leaf (by simp) (by simp) trivial)
      (parseToken_number valid stops)
  | string valid =>
    refine fun fuel rest _ _ => .ok (leaf (by simp) (by simp) trivial) ?_
    change (parseString text _ >>= fun read => pure read.2) = _
    rw [parseString_quoted valid]
    rfl
  | emptyArray blank =>
    refine fun fuel rest _ _ => .ok (everywhere_array.mpr ⟨trivial, by simp⟩) ?_
    rw [List.cons_append, List.append_assoc]
    exact parseGroup_empty (by decide) blank _
  | emptyObject blank =>
    refine fun fuel rest _ _ => .ok (everywhere_object.mpr ⟨List.nodup_nil, by simp⟩) ?_
    rw [List.cons_append, List.append_assoc]
    exact parseGroup_empty (by decide) blank _
  | array derives ih =>
    intro fuel rest _ enough
    rw [List.cons_append, List.append_assoc] at enough ⊢
    exact (outcome_parseGroup derives (fun _ starts => starts.2.1) skipsFirst_parseElement
      (ih fuel) _ enough).congr (everywhere_array.trans (and_iff_right trivial)).symm
  | object derives ih =>
    intro fuel rest _ enough
    rw [List.cons_append, List.append_assoc] at enough ⊢
    refine (outcome_parseGroup derives (fun _ starts => starts.2.2) skipsFirst_parseMember
      (ih fuel) _ enough).congr ?_
    rw [NoDuplicates, everywhere_object]
    simp [Distinct]
  | element spaced blank derives ih => exact reads_element derives spaced blank ih
  | member spaced blank valid _ ih => exact reads_member spaced blank valid ih
  | lastElement derives ih =>
    exact fun bound => (readsItems_last derives (.inl rfl) (ih bound)).congr fun _ => by simp
  | nextElement derives _ ih later =>
    exact fun bound => (readsItems_next derives (by decide) (ih bound) (later bound)).congr
      fun _ => List.forall_mem_cons.symm
  | lastMember derives ih =>
    exact fun bound => (readsItems_last derives (.inr rfl) (ih bound)).congr fun _ => by simp
  | nextMember derives _ ih later =>
    exact fun bound => (readsItems_next derives (by decide) (ih bound) (later bound)).congr
      fun _ => distinct_cons_iff

/-! ## Results -/

theorem assertNoDuplicateJsonKeys_ne (enough : text.length < fuel) :
    assertNoDuplicateJsonKeys text fuel ≠ .error .exhausted := by
  have leaves : Leaves (fun _ => []) 1 (assertNoDuplicateJsonKeys text fuel) := by
    refine (steady_parseValue fuel text enough).bind fun rest _ => ?_
    rw [revertIf]
    split
    · exact failure_ne _
    · exact Nat.one_pos
  intro same
  rw [same] at leaves
  exact leaves rfl

theorem assertNoDuplicateJsonKeys_ok_iff (derives : Derives (.element tree) text)
    (enough : text.length < fuel) :
    assertNoDuplicateJsonKeys text fuel = .ok () ↔ NoDuplicates tree := by
  have outcome :=
    reads_of_derives text derives fuel () [] (by simp [Ends]) (by rwa [List.append_nil])
  rw [List.append_nil] at outcome
  have check : assertNoDuplicateJsonKeys text fuel =
      itemAndSpace (parseElement (parseValue text fuel)) () text >>= fun read =>
        revertIf (read.2 ≠ []) (unexpectedToken text read.2) := by
    rw [assertNoDuplicateJsonKeys, itemAndSpace, parseElement]
    cases parseValue text fuel text <;> rfl
  rw [check]
  constructor
  · intro passed
    by_contra bad
    obtain ⟨key, failed⟩ := outcome.2 bad
    rw [failed] at passed
    cases passed
  · intro good
    rw [outcome.1 good]
    rfl

/-- The check ends on every text, and it passes a text of the grammar iff no object in it has two
members whose decoded names are equal. -/
theorem duplicate_keys_exact (text : JsString) (fuel : Nat) (enough : text.length < fuel) :
    assertNoDuplicateJsonKeys text fuel ≠ .error .exhausted ∧
      ∀ tree, Derives (.element tree) text →
        (assertNoDuplicateJsonKeys text fuel = .ok () ↔ NoDuplicates tree) :=
  ⟨assertNoDuplicateJsonKeys_ne enough,
    fun _ derives => assertNoDuplicateJsonKeys_ok_iff derives enough⟩

end Scanner

namespace Demo

/-- One member of name `a`, without white space. -/
theorem derives_member {body : JsString} (name : decodeBody body = some (units ['a']))
    (number : IsNumber raw) :
    Derives (.member (units ['a'], .number raw)) (quoted body ++ unit ':' :: raw) := by
  have nothing : Space [] := by simp [Space]
  have value := Derives.element nothing nothing (.number number)
  rw [List.append_nil] at value
  exact .member nothing nothing name value

/-- An object with the member `a` twice, the second time with an escape. -/
def repeated : JsString :=
  unit '\x7b' :: ((quoted (units ['a']) ++ unit ':' :: units ['1']) ++
    unit ',' :: (quoted (units "\\u0061".toList) ++ unit ':' :: units ['2'])) ++ [unit '\x7d']

theorem isNumber_digit (digit : isDigit u) (nonzero : u ≠ 48) : IsNumber [u] :=
  ⟨[], [u], [], [], rfl, .inl rfl, .inr ⟨u, [], rfl, digit, nonzero, rfl⟩, .inl rfl, .inl rfl⟩

theorem derives_repeated : Derives (.element (.object
    [(units ['a'], .number (units ['1'])), (units ['a'], .number (units ['2']))])) repeated := by
  have nothing : Space [] := by simp [Space]
  have plain : decodeBody (units ['a']) = some (units ['a']) := by decide
  have escaped : decodeBody (units "\\u0061".toList) = some (units ['a']) := by decide
  have one : IsNumber (units ['1']) := isNumber_digit (by decide) (by decide)
  have two : IsNumber (units ['2']) := isNumber_digit (by decide) (by decide)
  have members := Derives.nextMember (derives_member plain one)
    (.lastMember (derives_member escaped two))
  have element := Derives.element nothing nothing (.object members)
  rwa [List.append_nil] at element

end Demo

theorem duplicate_keys_exact_demo : assertNoDuplicateJsonKeys Demo.repeated 100 ≠ .ok () := by
  obtain ⟨-, exactly⟩ := duplicate_keys_exact Demo.repeated 100 (by decide)
  rw [ne_eq, exactly _ Demo.derives_repeated]
  intro distinct
  exact absurd (everywhere_self distinct) (by simp [Distinct])

end Torium.Generator
