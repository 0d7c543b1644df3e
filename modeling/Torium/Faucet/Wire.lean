import Torium.Faucet.Timestamp
import Torium.Lib.JsonDecode
import Torium.Lib.SortedMap

/-!
# Journal entries in JSON

A line of the journal is a JSON object with the fields of an entry in their order; the payload is
an object with sorted keys. Reading accepts much more than what is written: any order of the
members, names in other cases, members without a field, repeated members.
-/

namespace Torium.Faucet

open Utf8 Json

/-- A payload as it stands in an entry. -/
abbrev StringMap : Type := SortedMap GoString GoString

instance : Std.IsLinearOrder GoString := inferInstance

instance : Std.LawfulOrderLT GoString := inferInstance

/-- An entry of the journal as it is written and read; a payload may be the nil map. -/
structure Record where
  sequence : Nat
  at_ : Stamp
  type : GoString
  payload : Option StringMap
  prevHash : GoString
  hash : GoString
  deriving DecidableEq

def Record.zero : Record :=
  { sequence := 0, at_ := { instant := 0 }, type := [], payload := none, prevHash := []
    hash := [] }

/-! ## Writing -/

def payloadText : Option StringMap → GoString
  | none => nullText
  | some map => objectText (map.pairs.map fun (key, value) => (key, quote value))

/-- `json.Marshal`; it fails for a time that has no text. -/
def Record.marshal (record : Record) : Option GoString := do
  let at_ ← record.at_.marshal
  pure (objectText
    [(text "sequence", natText record.sequence),
     (text "at", at_),
     (text "type", quote record.type),
     (text "payload", payloadText record.payload),
     (text "prevHash", quote record.prevHash),
     (text "hash", quote record.hash)])

/-! ## Reading -/

inductive Field where
  | sequence
  | at_
  | type
  | payload
  | prevHash
  | hash
  deriving DecidableEq

def Record.fields : List (GoString × Field) :=
  [(text "sequence", .sequence), (text "at", .at_), (text "type", .type),
   (text "payload", .payload), (text "prevHash", .prevHash), (text "hash", .hash)]

def decodeUint64 : Value → Nat → Option Nat
  | .null, old => some old
  | .number raw, _ => (digitsValue? raw).bind fun n => if n < 2 ^ 64 then some n else none
  | _, _ => none

/-- Put the members of an object into a map. -/
def fillMap : List (Bytes × Value) → StringMap → Option StringMap
  | [], map => some map
  | (raw, v) :: members, map => do
      let key ← unquote raw
      let value ← decodeString v []
      fillMap members (map.insert key value)

def decodeMap : Value → Option StringMap → Option (Option StringMap)
  | .null, _ => some none
  | .object members, old => (fillMap members (old.getD .empty)).map some
  | _, _ => none

/-! ### Valid strings -/

/-- Every string is valid UTF-8, and the sequence number fits. -/
structure Record.Clean (record : Record) : Prop where
  sequence : record.sequence < 2 ^ 64
  type : Valid record.type
  payload : ∀ map ∈ record.payload, ∀ pair ∈ map.pairs, Valid pair.1 ∧ Valid pair.2
  prevHash : Valid record.prevHash
  hash : Valid record.hash

theorem Record.clean_zero : Record.zero.Clean where
  sequence := by decide
  type := .nil
  payload := by rintro map ⟨⟩
  prevHash := .nil
  hash := .nil

theorem clean_of_fillMap {members : List (Bytes × Value)} {map new : StringMap}
    (clean : ∀ pair ∈ map.pairs, Valid pair.1 ∧ Valid pair.2)
    (filled : fillMap members map = some new) :
    ∀ pair ∈ new.pairs, Valid pair.1 ∧ Valid pair.2 := by
  induction members generalizing map with
  | nil => exact Option.some.inj filled ▸ clean
  | cons first members ih =>
    simp only [fillMap, bind, Option.bind_eq_some_iff] at filled
    obtain ⟨key, named, value, decoded, later⟩ := filled
    refine ih ?_ later
    intro pair member
    obtain rfl | old := SortedMap.mem_insertPair member
    · exact ⟨valid_of_unquote named, valid_of_decodeString .nil decoded⟩
    · exact clean pair old

theorem clean_of_decodeMap {v : Value} {old new : Option StringMap}
    (clean : ∀ map ∈ old, ∀ pair ∈ map.pairs, Valid pair.1 ∧ Valid pair.2)
    (decoded : decodeMap v old = some new) :
    ∀ map ∈ new, ∀ pair ∈ map.pairs, Valid pair.1 ∧ Valid pair.2 := by
  unfold decodeMap at decoded
  split at decoded
  · cases decoded
    rintro map ⟨⟩
  · obtain ⟨map, filled, rfl⟩ := Option.map_eq_some_iff.mp decoded
    rintro _ ⟨⟩
    refine clean_of_fillMap ?_ filled
    cases old with
    | none => rintro pair ⟨⟩
    | some map => exact clean map rfl
  · cases decoded

theorem lt_of_decodeUint64 {v : Value} {old new : Nat} (small : old < 2 ^ 64)
    (decoded : decodeUint64 v old = some new) : new < 2 ^ 64 := by
  unfold decodeUint64 at decoded
  split at decoded
  · exact Option.some.inj decoded ▸ small
  · obtain ⟨n, -, fits⟩ := Option.bind_eq_some_iff.mp decoded
    split_ifs at fits with bound
    exact Option.some.inj fits ▸ bound
  · cases decoded

/-! ### Texts of the fields -/

theorem natText_head {n : Nat} (positive : n ≠ 0) : (natText n).head? ≠ some 48 := by
  induction n using Nat.strongRecOn with
  | ind n ih =>
    obtain small | large := Nat.lt_or_ge n 10
    · have digit : ∀ d < 10, d ≠ 0 → UInt8.ofNat d.digitChar.toNat ≠ 48 := by decide
      rw [natText, Nat.toDigits_of_lt_base small]
      exact fun zero => digit n small positive (Option.some.inj zero)
    · have digits : natText n = natText (n / 10) ++ [UInt8.ofNat (n % 10).digitChar.toNat] := by
        rw [natText, Nat.toDigits_of_base_le (by decide) large, List.map_append]
        rfl
      have nonempty : natText (n / 10) ≠ [] := by simp [natText]
      rw [digits, List.head?_append_of_ne_nil _ nonempty]
      exact ih (n / 10) (by omega) (by omega)

theorem decimal_natText (n : Nat) : Decimal (natText n) where
  digit b member := isDigit_of_mem_natText member
  nonempty := by simp [natText]
  leading zero := by
    by_contra other
    refine natText_head (n := n) ?_ zero
    rintro rfl
    exact other rfl

theorem writes_natText (n : Nat) : Writes 0 (natText n) (.number (natText n)) :=
  writes_number (decimal_natText n)

theorem decodeUint64_natText {n : Nat} (small : n < 2 ^ 64) (old : Nat) :
    decodeUint64 (.number (natText n)) old = some n := by
  rw [decodeUint64, digitsValue?_natText, Option.bind_some, if_pos small]

theorem isPlain_of_isDigit {b : UInt8} (digit : isDigit b) : isPlain b := by
  simp only [isDigit, isPlain, Bool.and_eq_true, decide_eq_true_eq, UInt8.le_iff_toNat_le,
    UInt8.lt_iff_toNat_lt, UInt8.reduceToNat, ne_eq, ← UInt8.toNat_inj] at digit ⊢
  omega

/-- A text that needs no escapes. -/
def Plain (s : GoString) : Prop := ∀ b ∈ s, isPlain b

theorem Plain.append {first second : GoString} (left : Plain first) (right : Plain second) :
    Plain (first ++ second) := fun b member =>
  (List.mem_append.mp member).elim (left b) (right b)

theorem Plain.cons {b : UInt8} {s : GoString} (first : isPlain b) (others : Plain s) :
    Plain (b :: s) := fun c member =>
  (List.mem_cons.mp member).elim (fun same => same ▸ first) (others c)

theorem plain_padded (width n : Nat) : Plain (padded width n) :=
  fun _ member => isPlain_of_isDigit (isDigit_of_mem_padded member)

theorem Stamp.plain_format (t : Stamp) : Plain t.format := by
  have clock (date : Int × Nat × Nat) (seconds : Nat) : Plain (clockText date seconds) :=
    (plain_padded _ _).append <| .cons (by decide) <| (plain_padded _ _).append <|
      .cons (by decide) <| (plain_padded _ _).append <| .cons (by decide) <|
      (plain_padded _ _).append <| .cons (by decide) <| (plain_padded _ _).append <|
      .cons (by decide) (plain_padded _ _)
  have fraction (nanos : Nat) : Plain (fractionText nanos) := by
    unfold fractionText
    split_ifs
    · rintro b ⟨⟩
    · exact .cons (by decide) fun b member =>
        plain_padded _ _ b ((List.rdropWhile_prefix _ _).subset member)
  have zone : Plain (zoneText t.offset) := by
    have utc : Plain [90] := .cons (by decide) (by rintro b ⟨⟩)
    have other : Plain (padded 2 (t.offset.natAbs / 60) ++ 58 :: padded 2 (t.offset.natAbs % 60)) :=
      (plain_padded _ _).append (.cons (by decide) (plain_padded _ _))
    unfold zoneText
    split_ifs
    · exact utc
    · exact .cons (by decide) other
    · exact .cons (by decide) other
  exact (clock _ _).append ((fraction _).append zone)

/-- The value of the payload in the tree of a line. -/
def payloadValue : Option StringMap → Value
  | none => .null
  | some map => .object (map.pairs.map fun (key, value) => (escape key, .string (escape value)))

theorem writes_payloadText (payload : Option StringMap) :
    Writes 1 (payloadText payload) (payloadValue payload) := by
  cases payload with
  | none => exact writes_null.mono (by decide)
  | some map =>
    have all := writes_object 0
      (map.pairs.map fun (key, value) => (key, quote value, .string (escape value)))
      (by
        intro m member
        obtain ⟨pair, -, rfl⟩ := List.mem_map.mp member
        exact writes_quote pair.2)
    rw [List.map_map, List.map_map] at all
    exact all

/-- Sorted pairs are put at the end, one after the other. -/
theorem fillMap_sorted {done rest : List (GoString × GoString)}
    (sorted : (done ++ rest).Pairwise fun first second => first.1 < second.1)
    (valid : ∀ pair ∈ rest, Valid pair.1 ∧ Valid pair.2) :
    fillMap (rest.map fun (key, value) => (escape key, .string (escape value)))
        ⟨done, (List.pairwise_append.mp sorted).1⟩ = some ⟨done ++ rest, sorted⟩ := by
  induction rest generalizing done with
  | nil => simp [fillMap]
  | cons pair rest ih =>
    obtain ⟨key, value⟩ := valid pair List.mem_cons_self
    have last : ∀ old ∈ done, old.1 < pair.1 := fun old member =>
      (List.pairwise_append.mp sorted).2.2 old member pair List.mem_cons_self
    have sorted' : (done ++ [pair] ++ rest).Pairwise fun first second => first.1 < second.1 := by
      simpa using sorted
    have inserted : SortedMap.insert pair.1 pair.2 ⟨done, (List.pairwise_append.mp sorted).1⟩ =
        ⟨done ++ [pair], (List.pairwise_append.mp sorted').1⟩ := by
      simp only [SortedMap.insert, SortedMap.insertPair_last last]
    simp only [List.map_cons, fillMap, unquote_escape key, decodeString_escape value,
      Option.bind_eq_bind, Option.bind_some, inserted]
    rw [ih sorted' fun pair member => valid pair (List.mem_cons_of_mem _ member)]
    simp

theorem decodeMap_payloadValue {payload : Option StringMap}
    (valid : ∀ map ∈ payload, ∀ pair ∈ map.pairs, Valid pair.1 ∧ Valid pair.2) :
    decodeMap (payloadValue payload) none = some payload := by
  cases payload with
  | none => rfl
  | some map =>
    have filled := @fillMap_sorted [] map.pairs map.sorted (valid map rfl)
    exact congrArg (Option.map some) filled

/-- The members of a line: name, text and value. -/
def Record.members (record : Record) : List (Bytes × Bytes × Value) :=
  [(text "sequence", natText record.sequence, .number (natText record.sequence)),
   (text "at", quote record.at_.format, .string (escape record.at_.format)),
   (text "type", quote record.type, .string (escape record.type)),
   (text "payload", payloadText record.payload, payloadValue record.payload),
   (text "prevHash", quote record.prevHash, .string (escape record.prevHash)),
   (text "hash", quote record.hash, .string (escape record.hash))]

theorem Record.writes_members (record : Record) :
    ∀ m ∈ record.members, Writes 1 m.2.1 m.2.2 := by
  have string (s : GoString) : Writes 1 (quote s) (.string (escape s)) :=
    (writes_quote s).mono (by decide)
  simp only [Record.members, List.forall_mem_cons]
  exact ⟨(writes_natText _).mono (by decide), string _, string _, writes_payloadText _, string _,
    string _, by rintro m ⟨⟩⟩

variable {line : GoString} {record : Record}

theorem Record.marshal_eq (written : record.marshal = some line) :
    record.at_.Encodable ∧ line = objectText (record.members.map fun m => (m.1, m.2.1)) := by
  simp only [Record.marshal, Stamp.marshal, bind, Option.bind_eq_some_iff, pure,
    Option.some.injEq] at written
  obtain ⟨at_, stamped, rfl⟩ := written
  split_ifs at stamped with encodable
  obtain rfl := Option.some.inj stamped
  have time : quote record.at_.format = 34 :: record.at_.format ++ [34] := by
    rw [quote, escape_plain record.at_.plain_format]
  refine ⟨encodable, ?_⟩
  simp only [Record.members, List.map_cons, List.map_nil, time]

theorem Record.marshal_of_encodable (encodable : record.at_.Encodable) :
    record.marshal = some (objectText (record.members.map fun m => (m.1, m.2.1))) := by
  have stamped : record.at_.marshal = some (34 :: record.at_.format ++ [34]) := if_pos encodable
  obtain ⟨line, written⟩ : ∃ line, record.marshal = some line :=
    ⟨_, by rw [Record.marshal, stamped]; rfl⟩
  rw [written, (Record.marshal_eq written).2]

theorem Record.marshal_of_not_encodable (not : ¬ record.at_.Encodable) :
    record.marshal = none := by
  rw [Record.marshal, Stamp.marshal, if_neg not]
  rfl

section Entry

variable [TimeParser]

def decodeTime : Value → Stamp → Option Stamp
  | .null, old => some old
  | .string raw, _ => Stamp.unmarshal raw
  | _, _ => none

def Record.set : Field → Value → Record → Option Record
  | .sequence, v, record =>
    (decodeUint64 v record.sequence).map fun sequence => { record with sequence }
  | .at_, v, record => (decodeTime v record.at_).map fun at_ => { record with at_ }
  | .type, v, record => (decodeString v record.type).map fun type => { record with type }
  | .payload, v, record => (decodeMap v record.payload).map fun payload => { record with payload }
  | .prevHash, v, record =>
    (decodeString v record.prevHash).map fun prevHash => { record with prevHash }
  | .hash, v, record => (decodeString v record.hash).map fun hash => { record with hash }

/-- `json.Unmarshal` into an empty entry. -/
def Record.unmarshal (line : GoString) : Option Record := do
  let v ← parse line
  decodeStruct Record.fields Record.set v .zero

/-! ## What is read -/

theorem Record.Clean.set {field : Field} {v : Value} {new : Record} (clean : record.Clean)
    (done : Record.set field v record = some new) : new.Clean := by
  cases field with
  | sequence =>
    obtain ⟨sequence, decoded, rfl⟩ := Option.map_eq_some_iff.mp done
    exact { clean with sequence := lt_of_decodeUint64 clean.sequence decoded }
  | at_ =>
    obtain ⟨at_, decoded, rfl⟩ := Option.map_eq_some_iff.mp done
    exact { clean with }
  | type =>
    obtain ⟨type, decoded, rfl⟩ := Option.map_eq_some_iff.mp done
    exact { clean with type := valid_of_decodeString clean.type decoded }
  | payload =>
    obtain ⟨payload, decoded, rfl⟩ := Option.map_eq_some_iff.mp done
    exact { clean with payload := clean_of_decodeMap clean.payload decoded }
  | prevHash =>
    obtain ⟨prevHash, decoded, rfl⟩ := Option.map_eq_some_iff.mp done
    exact { clean with prevHash := valid_of_decodeString clean.prevHash decoded }
  | hash =>
    obtain ⟨hash, decoded, rfl⟩ := Option.map_eq_some_iff.mp done
    exact { clean with hash := valid_of_decodeString clean.hash decoded }

/-- Whatever is read is clean. -/
theorem Record.clean_of_unmarshal (read : Record.unmarshal line = some record) : record.Clean := by
  simp only [Record.unmarshal, bind, Option.bind_eq_some_iff] at read
  obtain ⟨v, -, decoded⟩ := read
  exact invariant_of_decodeStruct Record.Clean (fun _ _ _ _ clean done => clean.set done)
    Record.clean_zero decoded

/-! ## What is written is read back -/

theorem Record.decode_members (clean : record.Clean) (encodable : record.at_.Encodable) :
    fill Record.fields Record.set (record.members.map fun m => (escape m.1, m.2.2)) .zero =
      some record := by
  have name (s : String) (ascii : ∀ b ∈ text s, b < 0x80) :
      unquote (escape (text s)) = some (text s) := unquote_escape (valid_of_ascii ascii)
  have time : decodeTime (.string (escape record.at_.format)) Record.zero.at_ =
      some record.at_ := by
    rw [escape_plain record.at_.plain_format]
    exact Stamp.unmarshal_format encodable
  have done {α : Type} {decoded : Option α} {x : α} (same : decoded = some x)
      (update : α → Record) : decoded.map update = some (update x) := by
    rw [same, Option.map_some]
  refine (fill_step .sequence (name "sequence" (by decide +kernel)) (by decide)
    (done (decodeUint64_natText clean.sequence _) _) _).trans ?_
  refine (fill_step .at_ (name "at" (by decide +kernel)) (by decide) (done time _) _).trans ?_
  refine (fill_step .type (name "type" (by decide +kernel)) (by decide)
    (done (decodeString_escape clean.type _) _) _).trans ?_
  refine (fill_step .payload (name "payload" (by decide +kernel)) (by decide)
    (done (decodeMap_payloadValue clean.payload) _) _).trans ?_
  refine (fill_step .prevHash (name "prevHash" (by decide +kernel)) (by decide)
    (done (decodeString_escape clean.prevHash _) _) _).trans ?_
  exact fill_step .hash (name "hash" (by decide +kernel)) (by decide)
    (done (decodeString_escape clean.hash _) _) _

theorem Record.unmarshal_marshal (clean : record.Clean) (written : record.marshal = some line) :
    Record.unmarshal line = some record := by
  obtain ⟨encodable, rfl⟩ := Record.marshal_eq written
  have deep : 2 ≤ (objectText (record.members.map fun m => (m.1, m.2.1))).length := by
    rw [objectText, List.length_append, List.length_cons]
    exact Nat.add_le_add (Nat.le_add_left 1 _) (Nat.le_refl 1)
  have read := parse_of_writes (writes_object 1 _ record.writes_members) deep (by decide)
  simp only [Record.unmarshal, read, Option.bind_eq_bind, Option.bind_some]
  exact Record.decode_members clean encodable

/-- Entries that can be read are written in different ways. -/
theorem Record.marshal_injective {first second : Record} (clean : first.Clean)
    (clean' : second.Clean) (written : first.marshal = some line)
    (written' : second.marshal = some line) : first = second :=
  Option.some.inj
    ((Record.unmarshal_marshal clean written).symm.trans (Record.unmarshal_marshal clean' written'))

end Entry

end Torium.Faucet
