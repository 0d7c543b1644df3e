import Torium.Lib.JsonSyntax

/-!
# Reading records from JSON

A record is filled from an object member by member, in the order in which they stand: of members
for one field the last one counts. A member belongs to the field that has exactly its name, or
else to one whose name differs in the case of letters only. A member that belongs to no field is
passed over, and `null` leaves a field as it is.
-/

namespace Json

open Utf8

/-- A piece of a name in upper case. Two characters outside ASCII, the long s and the Kelvin sign,
are in the same case class as an ASCII letter; what another one becomes is not ASCII, and stays as
it is here, since the names of fields are ASCII. -/
def foldPiece : Piece → Bytes
  | .rune [b] => [if 97 ≤ b && b ≤ 122 then b - 32 else b]
  | .rune [0xC5, 0xBF] => [83]
  | .rune [0xE2, 0x84, 0xAA] => [75]
  | .rune bytes => bytes
  | .stray _ => replacement

def foldName (name : Bytes) : Bytes := (pieces name).flatMap foldPiece

section Fields

variable {φ σ : Type} {fields : List (Bytes × φ)} {set : φ → Value → σ → Option σ}

/-- The field that a member with the given name belongs to. -/
def fieldOf (fields : List (Bytes × φ)) (name : Bytes) : Option φ :=
  match fields.find? (·.1 = name) with
  | some field => some field.2
  | none => (fields.find? (foldName ·.1 = foldName name)).map (·.2)

/-- Fill a record from the members of an object. -/
def fill (fields : List (Bytes × φ)) (set : φ → Value → σ → Option σ) :
    List (Bytes × Value) → σ → Option σ
  | [], record => some record
  | (raw, v) :: members, record => do
      let name ← unquote raw
      match fieldOf fields name with
      | some field => do
          let record ← set field v record
          fill fields set members record
      | none => fill fields set members record

/-- Fill a record from a value. -/
def decodeStruct (fields : List (Bytes × φ)) (set : φ → Value → σ → Option σ) :
    Value → σ → Option σ
  | .null, record => some record
  | .object members, record => fill fields set members record
  | _, _ => none

theorem fill_step {raw name : Bytes} (field : φ) {v : Value} {record new : σ}
    (named : unquote raw = some name) (found : fieldOf fields name = some field)
    (done : set field v record = some new) (members : List (Bytes × Value)) :
    fill fields set ((raw, v) :: members) record = fill fields set members new := by
  simp only [fill, named, found, done, Option.bind_eq_bind, Option.bind_some]

/-- What every field keeps holds of the record that is read. -/
theorem invariant_of_fill (P : σ → Prop)
    (step : ∀ field v record new, P record → set field v record = some new → P new)
    {members : List (Bytes × Value)} {record new : σ} (start : P record)
    (filled : fill fields set members record = some new) : P new := by
  induction members generalizing record with
  | nil => exact Option.some.inj filled ▸ start
  | cons member members ih =>
    simp only [fill, bind, Option.bind_eq_some_iff] at filled
    obtain ⟨name, -, rest⟩ := filled
    split at rest
    · obtain ⟨next, done, later⟩ := Option.bind_eq_some_iff.mp rest
      exact ih (step _ _ _ _ start done) later
    · exact ih start rest

theorem invariant_of_decodeStruct (P : σ → Prop)
    (step : ∀ field v record new, P record → set field v record = some new → P new) {v : Value}
    {record new : σ} (start : P record) (decoded : decodeStruct fields set v record = some new) :
    P new := by
  unfold decodeStruct at decoded
  split at decoded
  · exact Option.some.inj decoded ▸ start
  · exact invariant_of_fill P step start decoded
  · cases decoded

end Fields

def decodeString : Value → Bytes → Option Bytes
  | .null, old => some old
  | .string raw, _ => unquote raw
  | _, _ => none

theorem valid_of_decodeString {v : Value} {old new : Bytes} (valid : Valid old)
    (decoded : decodeString v old = some new) : Valid new := by
  unfold decodeString at decoded
  split at decoded
  · exact Option.some.inj decoded ▸ valid
  · exact valid_of_unquote decoded
  · cases decoded

theorem decodeString_escape {s : Bytes} (valid : Valid s) (old : Bytes) :
    decodeString (.string (escape s)) old = some s :=
  unquote_escape valid

end Json
