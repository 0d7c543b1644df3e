import Torium.Lib.Decimal
import Torium.Lib.JsonTree

/-!
# JSON with big integers

A big integer is serialized as an object with one reserved key, and an object of the caller that
has this key is refused. Reading turns exactly the inserted objects back into big integers. The
texts of trees are a parameter: a text that is printed for a tree is read as that tree.
-/

namespace Torium.Sdk

open JsonTree

/-- A number, as the bits of its double precision format. -/
abbrev Double : Type := BitVec 64

def isFinite (number : Double) : Bool := (number >>> 52) &&& 0x7FF != 0x7FF

def negativeZero : Double := 0x8000000000000000

abbrev JsonValue : Type := Value Double Int

/-- The characters of a text. A surrogate is none of those that the patterns below look for. -/
def chars (text : JsString) : List Char := text.map fun unit => Char.ofNat unit.toNat

/-! ## Keys -/

/-- The index that a key stands for. -/
def arrayIndex? (key : JsString) : Option Nat :=
  let digits := chars key
  if Decimal.isCanonical digits ∧ Decimal.value digits < 2 ^ 32 - 1 then some (Decimal.value digits)
  else none

/-- The keys of an object in their order: indices from the smallest to the largest, then the other
keys as they were added. -/
def OwnKeys (keys : List JsString) : Prop :=
  ∃ indices names, keys = indices ++ names ∧ (∀ key ∈ indices, (arrayIndex? key).isSome) ∧
    indices.Pairwise (fun key later => (arrayIndex? key).getD 0 < (arrayIndex? later).getD 0) ∧
    (∀ key ∈ names, arrayIndex? key = none) ∧ names.Nodup

/-- Numbers that are finite and not the negative zero, and objects with keys that an object can
have. -/
def Representable {β : Type} : Value Double β → Prop
  | .number number => isFinite number ∧ number ≠ negativeZero
  | .object members => OwnKeys (members.map Prod.fst)
  | _ => True

/-! ## Serialization -/

def toriumBigIntTag : JsString := units "$torium.bigint".toList

/-- The decimal text of a big integer. -/
def bigintText (value : Int) : List Char :=
  if value < 0 then '-' :: Nat.toDigits 10 value.natAbs else Nat.toDigits 10 value.natAbs

def reservedTag : String := "Torium JSON value contains a reserved serialization tag."

def invalidEnvelope : String := "Torium JSON contains an invalid bigint envelope."

def invalidJson : String := "Torium JSON input is not valid JSON."

def replacer : JsonValue → Except String JsonValue
  | .bigint value => .ok (.object [(toriumBigIntTag, .string (units (bigintText value)))])
  | .object members =>
    if toriumBigIntTag ∈ members.map Prod.fst then .error reservedTag else .ok (.object members)
  | candidate => .ok candidate

/-- The pattern `^(?:0|-[1-9][0-9]*|[1-9][0-9]*)$`. -/
def isBigintText : List Char → Bool
  | '-' :: digits => Decimal.isCanonical digits && digits != ['0']
  | digits => Decimal.isCanonical digits

/-- The big integer that a text with this pattern stands for. -/
def bigintValue : List Char → Int
  | '-' :: digits => -(Decimal.value digits : Int)
  | digits => Decimal.value digits

def reviver : JsonValue → Except String JsonValue
  | .object members =>
    if members.length ≠ 1 then .ok (.object members)
    else match members.lookup toriumBigIntTag with
      | some (.string encoded) =>
        if isBigintText (chars encoded) = false then .error invalidEnvelope
        else .ok (.bigint (bigintValue (chars encoded)))
      | _ => .ok (.object members)
  | candidate => .ok candidate

/-- The texts of trees: printing, with the space for indentation, and reading. -/
class JsonText (τ : Type) where
  print : Option Double → Plain Double → τ
  parse : τ → Option (Plain Double)

/-- A printed tree is read back. -/
structure JsonText.Standard (τ : Type) [JsonText τ] : Prop where
  reads : ∀ space (plain : Plain Double), Everywhere Representable plain →
    parse (print (τ := τ) space plain) = some plain

section Functions

variable {τ : Type} [JsonText τ]

/-- On a stack of the given depth. -/
def stringifyToriumJson (stack : Nat) (value : JsonValue) (space : Option Double) :
    Except String τ := do
  return JsonText.print space (← serialize replacer stack value)

def parseToriumJson (text : τ) : Except String JsonValue :=
  match JsonText.parse text with
  | none => .error invalidJson
  | some plain => internalize reviver plain

end Functions

/-! ## Big integers -/

theorem chars_units {text : List Char} (ascii : ∀ c ∈ text, c.toNat < 128) :
    chars (units text) = text := by
  rw [chars, units, List.map_map]
  refine (List.map_congr_left fun c member => ?_).trans (List.map_id text)
  have small := ascii c member
  have unit : (UInt16.ofNat c.toNat).toNat = c.toNat := by
    rw [UInt16.toNat_ofNat']
    exact Nat.mod_eq_of_lt (by omega)
  rw [Function.comp_apply, unit, Char.ofNat_toNat, id]

theorem bigintText_ascii (value : Int) : ∀ c ∈ bigintText value, c.toNat < 128 := by
  have digits : ∀ c ∈ Nat.toDigits 10 value.natAbs, c.toNat < 128 := by
    intro c member
    have := Decimal.isDigit_iff.mp (Decimal.isDigit_of_mem_toDigits member)
    omega
  rw [bigintText]
  split
  · exact List.forall_mem_cons.mpr ⟨by decide, digits⟩
  · exact digits

/-- A numeral does not start with a sign. -/
theorem ne_sign_of_isCanonical {first : Char} {rest : List Char}
    (canonical : Decimal.isCanonical (first :: rest)) : first ≠ '-' := by
  rintro rfl
  have digit := Decimal.all_isDigit_of_isCanonical canonical
  rw [List.all_cons] at digit
  exact absurd (Bool.and_elim_left digit) (by decide)

theorem isBigintText_of_isCanonical {digits : List Char} (canonical : Decimal.isCanonical digits) :
    isBigintText digits ∧ bigintValue digits = Decimal.value digits := by
  cases digits with
  | nil => exact absurd canonical (by decide)
  | cons first rest =>
    have unsigned := ne_sign_of_isCanonical canonical
    rw [isBigintText, bigintValue]
    · exact ⟨canonical, rfl⟩
    · rintro digits ⟨⟩
      exact unsigned rfl
    · rintro digits ⟨⟩
      exact unsigned rfl

/-- The text of a big integer has the pattern and stands for it. -/
theorem bigintText_inverse (value : Int) :
    isBigintText (bigintText value) ∧ bigintValue (bigintText value) = value := by
  have canonical := Decimal.isCanonical_toDigits value.natAbs
  have same := Decimal.value_toDigits value.natAbs
  rw [bigintText]
  split
  case isTrue negative =>
    have nonzero : Nat.toDigits 10 value.natAbs ≠ ['0'] := by
      intro zero
      rw [zero] at same
      have : value.natAbs = 0 := same.symm
      omega
    rw [isBigintText, bigintValue, canonical, same]
    refine ⟨by simpa using nonzero, by omega⟩
  case isFalse positive =>
    obtain ⟨text, number⟩ := isBigintText_of_isCanonical canonical
    exact ⟨text, by rw [number, same]; omega⟩

/-! ## Round trip -/

/-- The value is not an object with the reserved key. -/
def Untagged (value : JsonValue) : Prop :=
  ∀ members, value = .object members → toriumBigIntTag ∉ members.map Prod.fst

theorem ownKeys_tag : OwnKeys [toriumBigIntTag] :=
  ⟨[], [toriumBigIntTag], rfl, by simp, .nil, by decide, by simp⟩

theorem codes_bigint (value : Int) : Codes replacer reviver (.bigint value)
    (.object [(toriumBigIntTag, .string (units (bigintText value)))]) := by
  obtain ⟨pattern, number⟩ := bigintText_inverse value
  have read := chars_units (bigintText_ascii value)
  constructor
  · refine .object rfl (.cons ⟨rfl, ?_⟩ .nil)
    exact eventually_succ (Filter.Eventually.of_forall fun _ => rfl)
  · change reviver (.object [(toriumBigIntTag, .string (units (bigintText value)))]) = _
    rw [reviver, if_neg (by simp), List.lookup_cons_self]
    change (if isBigintText (chars (units (bigintText value))) = false then _ else _) = _
    rw [read, pattern, number]
    rfl

theorem reviver_object {members : List (JsString × JsonValue)}
    (untagged : toriumBigIntTag ∉ members.map Prod.fst) :
    reviver (.object members) = .ok (.object members) := by
  have absent : members.lookup toriumBigIntTag = none := by
    rw [List.lookup_eq_none_iff]
    intro entry member
    rw [bne_iff_ne]
    intro same
    rw [same] at untagged
    exact untagged (List.mem_map_of_mem member)
  rw [reviver, absent]
  exact ite_self _

/-- What becomes of a value: it is coded, or it is refused because of a reserved key in it. -/
def Answered (value : JsonValue) (plain : Plain Double) : Prop :=
  Codes replacer reviver value plain ∧ Everywhere Representable plain ∧ Everywhere Untagged value

def Refused (value : JsonValue) : Prop :=
  Rejects replacer reservedTag value ∧ ¬Everywhere Untagged value

variable {plain : Plain Double} {value : JsonValue}

/-- A value without parts that is serialized as it is. -/
theorem answered_scalar (kept : Representable plain)
    (noParts : (∀ items, plain ≠ .array items) ∧ ∀ members, plain ≠ .object members)
    (untagged : Everywhere Untagged value)
    (walked : ∀ stack, serialize replacer (stack + 1) value = .ok plain)
    (read : internalize reviver plain = .ok value) : Answered value plain :=
  ⟨⟨eventually_succ (Filter.Eventually.of_forall walked), read⟩,
    everywhere_leaf kept noParts.1 noParts.2, untagged⟩

theorem answered_leaf (representable : Representable value)
    (noArray : ∀ items, value ≠ .array items) (noObject : ∀ members, value ≠ .object members) :
    ∃ plain, Answered value plain := by
  have untagged : Everywhere Untagged value :=
    everywhere_leaf (fun members same => absurd same (noObject members)) noArray noObject
  cases value with
  | null => exact ⟨.null, answered_scalar trivial ⟨by simp, by simp⟩ untagged (fun _ => rfl) rfl⟩
  | bool b =>
    exact ⟨.bool b, answered_scalar trivial ⟨by simp, by simp⟩ untagged (fun _ => rfl) rfl⟩
  | string text =>
    exact ⟨.string text, answered_scalar trivial ⟨by simp, by simp⟩ untagged (fun _ => rfl) rfl⟩
  | number n =>
    exact ⟨.number n, answered_scalar representable ⟨by simp, by simp⟩ untagged (fun _ => rfl) rfl⟩
  | bigint n =>
    refine ⟨_, codes_bigint n, ?_, untagged⟩
    rw [everywhere_object, List.forall_mem_singleton]
    exact ⟨ownKeys_tag, everywhere_leaf trivial (by simp) (by simp)⟩
  | array items => exact absurd rfl (noArray items)
  | object members => exact absurd rfl (noObject members)

theorem answered_array {items : List JsonValue}
    (each : ∀ item ∈ items, (∃ plain, Answered item plain) ∨ Refused item) :
    (∃ plain, Answered (.array items) plain) ∨ Refused (.array items) := by
  have here : Untagged (.array items) := fun members same => by cases same
  rcases answered_or_refused each with
    ⟨plains, answered⟩ | ⟨before, item, after, plains, rfl, answered, rejected, tagged⟩
  · refine .inl ⟨.array plains, ?_, ?_, ?_⟩
    · exact .array rfl rfl (answered.imp fun _ _ coded => coded.1)
    · exact everywhere_array.mpr
        ⟨trivial, right_of_forall₂ answered fun _ _ coded => coded.2.1⟩
    · exact everywhere_array.mpr
        ⟨here, right_of_forall₂ answered.flip fun _ _ coded => coded.2.2⟩
  · refine .inr ⟨.array rfl (answered.imp fun _ _ coded => coded.1.serialized) rejected, ?_⟩
    intro untagged
    exact tagged ((everywhere_array.mp untagged).2 item (by simp))

theorem answered_object {members : List (JsString × JsonValue)}
    (keys : OwnKeys (members.map Prod.fst))
    (each : ∀ entry ∈ members, (∃ plain, Answered entry.2 plain) ∨ Refused entry.2) :
    (∃ plain, Answered (.object members) plain) ∨ Refused (.object members) := by
  by_cases reserved : toriumBigIntTag ∈ members.map Prod.fst
  · refine .inr ⟨.of_replace (by rw [replacer, if_pos reserved]), ?_⟩
    intro untagged
    exact everywhere_self untagged members rfl reserved
  have kept : replacer (.object members) = .ok (.object members) := by
    rw [replacer, if_neg reserved]
  have here : Untagged (.object members) := by
    rintro _ ⟨⟩
    exact reserved
  have entries : ∀ entry ∈ members,
      (∃ plain : JsString × Plain Double, OnValues Answered entry plain) ∨ Refused entry.2 := by
    intro entry member
    exact (each entry member).imp_left fun found =>
      found.elim fun plain answered => ⟨(entry.1, plain), rfl, answered⟩
  rcases answered_or_refused entries with
    ⟨plains, answered⟩ | ⟨before, entry, after, plains, rfl, answered, rejected, tagged⟩
  · refine .inl ⟨.object plains, ?_, ?_, ?_⟩
    · exact .object kept (reviver_object reserved)
        (answered.imp fun _ _ coded => ⟨coded.1, coded.2.1⟩)
    · refine everywhere_object.mpr ⟨?_, right_of_forall₂ answered fun _ _ coded => coded.2.2.1⟩
      change OwnKeys (plains.map Prod.fst)
      rwa [keys_of_onValues answered]
    · exact everywhere_object.mpr
        ⟨here, right_of_forall₂ answered.flip fun _ _ coded => coded.2.2.2⟩
  · refine .inr ⟨.object kept (answered.imp fun _ _ coded => ⟨coded.1, coded.2.1.serialized⟩)
      rejected, ?_⟩
    intro untagged
    exact tagged ((everywhere_object.mp untagged).2 entry (by simp))

theorem answered_or_refused_value (representable : Everywhere Representable value) :
    (∃ plain, Answered value plain) ∨ Refused value := by
  induction value using Value.induct with
  | leaf value noArray noObject =>
    exact .inl (answered_leaf (everywhere_self representable) noArray noObject)
  | array items ih =>
    exact answered_array fun item member =>
      ih item member ((everywhere_array.mp representable).2 item member)
  | object members ih =>
    obtain ⟨keys, parts⟩ := everywhere_object.mp representable
    exact answered_object keys fun entry member => ih entry member (parts entry member)

/-- Some object in the value has the reserved key. -/
def HasReservedKey (value : JsonValue) : Prop :=
  ∃ members, Within (.object members) value ∧ toriumBigIntTag ∈ members.map Prod.fst

theorem not_hasReservedKey_iff :
    ¬HasReservedKey value ↔ Everywhere Untagged value := by
  constructor
  · rintro free part within members rfl reserved
    exact free ⟨members, within, reserved⟩
  · rintro untagged ⟨members, within, reserved⟩
    exact untagged _ within members rfl reserved

section Results

variable {τ : Type} [JsonText τ]

/-- The answer of the serialization on every large enough stack. -/
def Stringifies (value : JsonValue) (space : Option Double) (answer : Except String τ) : Prop :=
  ∃ enough, ∀ stack, enough ≤ stack → stringifyToriumJson stack value space = answer

theorem stringifies_of_answered (answered : Answered value plain) (space : Option Double) :
    Stringifies value space (.ok (JsonText.print (τ := τ) space plain)) := by
  obtain ⟨enough, walked⟩ := Filter.eventually_atTop.mp answered.1.serialized
  refine ⟨enough, fun stack large => ?_⟩
  rw [stringifyToriumJson, walked stack large]
  rfl

theorem stringifies_of_refused (refused : Refused value) (space : Option Double) :
    Stringifies (τ := τ) value space (.error reservedTag) := by
  obtain ⟨enough, walked⟩ := Filter.eventually_atTop.mp refused.1
  refine ⟨enough, fun stack large => ?_⟩
  rw [stringifyToriumJson, walked stack large]
  rfl

theorem Stringifies.unique {space : Option Double} {answer other : Except String τ}
    (first : Stringifies value space answer) (second : Stringifies value space other) :
    answer = other := by
  obtain ⟨enough, holds⟩ := first
  obtain ⟨more, holdsToo⟩ := second
  rw [← holds (max enough more) (le_max_left _ _), holdsToo (max enough more) (le_max_right _ _)]

theorem parse_of_answered (standard : JsonText.Standard τ) (answered : Answered value plain)
    (space : Option Double) :
    parseToriumJson (JsonText.print (τ := τ) space plain) = .ok value := by
  rw [parseToriumJson, standard.reads space plain answered.2.1]
  exact answered.1.internalized

/-- A text that is printed for a value is read as the value. -/
theorem parse_of_stringifies (standard : JsonText.Standard τ)
    (representable : Everywhere Representable value) {space : Option Double} {text : τ}
    (printed : Stringifies value space (.ok text)) : parseToriumJson text = .ok value := by
  rcases answered_or_refused_value representable with ⟨plain, answered⟩ | refused
  · cases printed.unique (stringifies_of_answered answered space)
    exact parse_of_answered standard answered space
  · cases printed.unique (stringifies_of_refused refused space)

/-- A value without the reserved key is printed as a text that is read as the value; a value is
refused iff it has the key; and values with one text are equal. -/
theorem bigint_json_round_trip (standard : JsonText.Standard τ) (value : JsonValue)
    (representable : Everywhere Representable value) (space : Option Double) :
    (¬HasReservedKey value → ∃ text : τ, Stringifies value space (.ok text) ∧
        parseToriumJson text = .ok value) ∧
      ((∃ error, Stringifies (τ := τ) value space (.error error)) ↔ HasReservedKey value) ∧
      ∀ other otherSpace (text : τ), Everywhere Representable other →
        Stringifies value space (.ok text) → Stringifies other otherSpace (.ok text) →
        value = other := by
  refine ⟨?_, ?_, ?_⟩
  · intro free
    rcases answered_or_refused_value representable with ⟨plain, answered⟩ | refused
    · exact ⟨_, stringifies_of_answered answered space, parse_of_answered standard answered space⟩
    · exact absurd (not_hasReservedKey_iff.mp free) refused.2
  · constructor
    · rintro ⟨error, rejected⟩
      by_contra free
      rcases answered_or_refused_value representable with ⟨plain, answered⟩ | refused
      · cases rejected.unique (stringifies_of_answered answered space)
      · exact refused.2 (not_hasReservedKey_iff.mp free)
    · intro reserved
      rcases answered_or_refused_value representable with ⟨plain, answered⟩ | refused
      · exact absurd reserved (not_hasReservedKey_iff.mpr answered.2.2)
      · exact ⟨reservedTag, stringifies_of_refused refused space⟩
  · intro other otherSpace text representableToo printed printedToo
    have read := parse_of_stringifies standard representable printed
    have readToo := parse_of_stringifies standard representableToo printedToo
    exact Except.ok.inj (read.symm.trans readToo)

end Results

namespace Demo

/-- An amount as a big integer, and the number one. -/
def payment : JsonValue :=
  .object [(units "amount".toList, .bigint 25), (units "count".toList, .number 0x3FF0000000000000)]

def paymentTree : Plain Double :=
  .object [(units "amount".toList, .object [(toriumBigIntTag, .string (units "25".toList))]),
    (units "count".toList, .number 0x3FF0000000000000)]

def paymentText : JsString :=
  units "\x7b\"amount\":\x7b\"$torium.bigint\":\"25\"\x7d,\"count\":1\x7d".toList

/-- The text of the payment. -/
def written? : Plain Double → Option JsString
  | .object [(amount, .object [(tag, .string digits)]), (count, .number number)] =>
    if amount = units "amount".toList ∧ tag = toriumBigIntTag ∧ digits = units "25".toList ∧
      count = units "count".toList ∧ number = 0x3FF0000000000000 then some paymentText else none
  | _ => none

theorem written?_eq_some {text : JsString} (written : written? plain = some text) :
    plain = paymentTree ∧ text = paymentText := by
  unfold written? at written
  split at written
  · obtain ⟨⟨rfl, rfl, rfl, rfl, rfl⟩, same⟩ := Option.ite_none_right_eq_some.mp written
    exact ⟨rfl, (Option.some.inj same).symm⟩
  · cases written

/-- The payment is printed and read as the language does it; other trees stand for their texts. -/
@[reducible] def jsonText : JsonText (JsString ⊕ Plain Double) where
  print space plain := if space = none then (written? plain).elim (.inr plain) .inl else .inr plain
  parse
    | .inl text => if text = paymentText then some paymentTree else none
    | .inr plain => some plain

theorem jsonText_standard : @JsonText.Standard _ jsonText := by
  refine @JsonText.Standard.mk _ jsonText fun space plain _ => ?_
  simp only [JsonText.print]
  split_ifs
  · cases written : written? plain with
    | none => rfl
    | some text =>
      obtain ⟨rfl, rfl⟩ := written?_eq_some written
      exact if_pos rfl
  · rfl

theorem everywhere_payment {P : JsonValue → Prop} (whole : P payment) (amount : P (.bigint 25))
    (count : P (.number 0x3FF0000000000000)) : Everywhere P payment := by
  refine everywhere_object.mpr
    ⟨whole, List.forall_mem_cons.mpr ⟨?_, List.forall_mem_singleton.mpr ?_⟩⟩
  · exact everywhere_leaf amount (by simp) (by simp)
  · exact everywhere_leaf count (by simp) (by simp)

end Demo

/-- An object with a big integer is printed as a text that is read as the object. -/
theorem bigint_json_round_trip_demo :
    @stringifyToriumJson _ Demo.jsonText 3 Demo.payment none = .ok (.inl Demo.paymentText) ∧
      ∃ text, @Stringifies _ Demo.jsonText Demo.payment none (.ok text) ∧
        @parseToriumJson _ Demo.jsonText text = .ok Demo.payment := by
  refine ⟨rfl, ?_⟩
  have representable : Everywhere Representable Demo.payment := by
    refine Demo.everywhere_payment ?_ trivial ⟨by decide, by decide⟩
    exact ⟨[], _, rfl, by simp, .nil, by decide, by decide⟩
  have free : ¬HasReservedKey Demo.payment := by
    refine not_hasReservedKey_iff.mpr (Demo.everywhere_payment ?_ (by rintro _ ⟨⟩) (by rintro _ ⟨⟩))
    rintro _ ⟨⟩
    decide
  exact (@bigint_json_round_trip _ Demo.jsonText Demo.jsonText_standard Demo.payment representable
    none).1 free

end Torium.Sdk
