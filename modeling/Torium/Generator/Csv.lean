import Torium.Generator.Normalized

/-!
# Reading a CSV input

The reader runs over the characters of the text once. It looks one character ahead behind a
quote inside of a quoted field, and behind a carriage return.

A text is a writing of rows if it consists of the rows' fields, each quoted or plain, with commas
between them and a line end behind each row. The reader accepts exactly the writings of rows that
are not blank, and gives back the rows that were written.
-/

namespace Torium.Generator

open Evm
open List (append_assoc append_nil)

namespace Csv

/-- The variables of the reader's loop. -/
structure State where
  rows : List (List Text)
  row : List Text
  field : Text
  quoted : Bool
  closedQuote : Bool

def State.initial : State :=
  { rows := [], row := [], field := [], quoted := false, closedQuote := false }

def State.finishField (s : State) : State :=
  { s with row := s.row ++ [s.field], field := [], closedQuote := false }

def State.finishRow (s : State) : Except String State := do
  let s := s.finishField
  throwIf (∀ value ∈ s.row, value = [])
    ("CSV row " ++ toString (s.rows.length + 1) ++ " must not be blank")
  pure { s with rows := s.rows ++ [s.row], row := [] }

/-- The loop over the characters of the text. -/
def scan (s : State) : Text → Except String State
  | [] => pure s
  | character :: rest =>
    if s.quoted then
      if character = '"' then
        match rest with
        | '"' :: rest => scan { s with field := s.field ++ ['"'] } rest
        | rest => scan { s with quoted := false, closedQuote := true } rest
      else scan { s with field := s.field ++ [character] } rest
    else if s.closedQuote ∧ character ≠ ',' ∧ character ≠ '\n' ∧ character ≠ '\r' then
      throw "CSV contains characters after a closing quote"
    else if character = '"' then
      if s.field ≠ [] then throw "CSV quote must begin at the start of a field"
      else scan { s with quoted := true } rest
    else if character = ',' then scan s.finishField rest
    else if character = '\n' then do
      let s ← s.finishRow
      scan s rest
    else if character = '\r' then
      if rest.head? ≠ some '\n' then
        throw "CSV carriage returns must be followed by a newline"
      else scan s rest
    else scan { s with field := s.field ++ [character] } rest

/-- What is left to do when the text has ended. -/
def State.finish (s : State) : Except String (List (List Text)) :=
  if s.quoted then throw "CSV contains an unterminated quoted field"
  else if s.row ≠ [] ∨ s.field ≠ [] ∨ s.closedQuote then do
    let s ← s.finishRow
    pure s.rows
  else pure s.rows

end Csv

def byteOrderMark : Char := '\ufeff'

def csvRows (text : Text) : Except String (List (List Text)) := do
  throwIf (text.head? = some byteOrderMark) "CSV input must not contain a UTF-8 BOM"
  throwIf ('\x00' ∈ text) "CSV input must not contain NUL bytes"
  let s ← Csv.scan .initial text
  s.finish

namespace Csv

/-! ## Writing rows -/

/-- A quote inside of a quoted field is written twice. -/
def double (character : Char) : Text :=
  if character = '"' then ['"', '"'] else [character]

def IsPlain (field : Text) : Prop :=
  '"' ∉ field ∧ ',' ∉ field ∧ '\r' ∉ field ∧ '\n' ∉ field

inductive WritesField (field : Text) : Text → Prop
  | quoted : WritesField field ('"' :: field.flatMap double ++ ['"'])
  | plain (isPlain : IsPlain field) : WritesField field field

inductive WritesRow : List Text → Text → Prop
  | last {field text : Text} (writes : WritesField field text) : WritesRow [field] text
  | cons {field text : Text} {row : List Text} {behind : Text} (writes : WritesField field text)
      (others : WritesRow row behind) : WritesRow (field :: row) (text ++ ',' :: behind)

inductive LineEnd : Text → Prop
  | lf : LineEnd ['\n']
  | crlf : LineEnd ['\r', '\n']

/-- The last row may end without a line end. -/
inductive Writes : List (List Text) → Text → Prop
  | nil : Writes [] []
  | last {row : List Text} {text : Text} (writes : WritesRow row text) : Writes [row] text
  | cons {row : List Text} {text lineEnd behind : Text} {rows : List (List Text)}
      (writes : WritesRow row text) (ends : LineEnd lineEnd) (others : Writes rows behind) :
      Writes (row :: rows) (text ++ lineEnd ++ behind)

variable {rows : List (List Text)} {row : List Text} {field : Text} {closedQuote : Bool}
variable {text lineEnd : Text} {fields : List Text}

/-! ## A writing is read back -/

theorem scan_plain {more : Text} (isPlain : IsPlain more) (rest : Text) :
    scan ⟨rows, row, field, false, false⟩ (more ++ rest) =
      scan ⟨rows, row, field ++ more, false, false⟩ rest := by
  induction more generalizing field with
  | nil => rw [List.nil_append, append_nil]
  | cons character more ih =>
    obtain ⟨quote, comma, cr, lf⟩ := isPlain
    rw [List.mem_cons, not_or] at quote comma cr lf
    rw [List.cons_append, scan.eq_def]
    simp only [Bool.false_eq_true, false_and, if_false, Ne.symm quote.1, Ne.symm comma.1,
      Ne.symm cr.1, Ne.symm lf.1]
    rw [ih ⟨quote.2, comma.2, cr.2, lf.2⟩, append_assoc, List.singleton_append]

theorem scan_doubled {more : Text} {rest : Text} (next : rest.head? ≠ some '"') :
    scan ⟨rows, row, field, true, closedQuote⟩ (more.flatMap double ++ '"' :: rest) =
      scan ⟨rows, row, field ++ more, false, true⟩ rest := by
  induction more generalizing field with
  | nil =>
    rw [List.flatMap_nil, List.nil_append, append_nil, scan.eq_def]
    simp only [if_true]
    split
    · exact absurd rfl next
    · rfl
  | cons character more ih =>
    rw [List.flatMap_cons, double]
    split_ifs with quote
    · subst quote
      rw [append_assoc, List.cons_append, List.singleton_append, scan]
      simp only [if_true]
      rw [ih, append_assoc, List.singleton_append]
    · rw [append_assoc, List.singleton_append, scan.eq_def]
      simp only [if_true, quote, if_false]
      rw [ih, append_assoc, List.singleton_append]

/-- A field is read up to the character behind it. -/
theorem scan_field (rows : List (List Text)) (row : List Text) {rest : Text}
    (writes : WritesField field text) (next : rest.head? ≠ some '"') :
    ∃ closedQuote, scan ⟨rows, row, [], false, false⟩ (text ++ rest) =
      scan ⟨rows, row, field, false, closedQuote⟩ rest ∧
        (text ≠ [] → field ≠ [] ∨ closedQuote = true) := by
  cases writes with
  | quoted =>
    refine ⟨true, ?_, fun _ => .inr rfl⟩
    rw [List.cons_append, List.cons_append, append_assoc, List.singleton_append, scan.eq_def]
    simp only [Bool.false_eq_true, false_and, if_false, if_true, ne_eq, not_true_eq_false]
    rw [scan_doubled next, List.nil_append]
  | plain isPlain =>
    refine ⟨false, ?_, .inl⟩
    rw [scan_plain isPlain, List.nil_append]

theorem scan_comma (rest : Text) : scan ⟨rows, row, field, false, closedQuote⟩ (',' :: rest) =
      scan ⟨rows, row ++ [field], [], false, false⟩ rest := by
  rw [scan.eq_def]
  simp [State.finishField]

theorem scan_newline (rest : Text) : scan ⟨rows, row, field, false, closedQuote⟩ ('\n' :: rest) =
      State.finishRow ⟨rows, row, field, false, closedQuote⟩ >>= fun s => scan s rest := by
  rw [scan.eq_def]
  simp

theorem scan_lineEnd (ends : LineEnd lineEnd) (rest : Text) :
    scan ⟨rows, row, field, false, closedQuote⟩ (lineEnd ++ rest) =
      State.finishRow ⟨rows, row, field, false, closedQuote⟩ >>= fun s => scan s rest := by
  cases ends with
  | lf => exact scan_newline rest
  | crlf =>
    rw [List.cons_append, List.singleton_append, ← scan_newline, scan.eq_def]
    simp

/-- A row is read up to its last field, which is finished by what stands behind the row. -/
theorem scan_row (rows : List (List Text)) (row : List Text) {rest : Text}
    (writes : WritesRow fields text) (next : rest.head? ≠ some '"') :
    ∃ before last closedQuote, fields = before ++ [last] ∧
      scan ⟨rows, row, [], false, false⟩ (text ++ rest) =
        scan ⟨rows, row ++ before, last, false, closedQuote⟩ rest ∧
      (text ≠ [] → before ≠ [] ∨ last ≠ [] ∨ closedQuote = true) := by
  induction writes generalizing row with
  | last writes =>
    obtain ⟨closedQuote, read, some⟩ := scan_field rows row writes next
    refine ⟨[], _, closedQuote, rfl, ?_, fun nonempty => .inr (some nonempty)⟩
    rw [append_nil]
    exact read
  | @cons field text fields behind writes others ih =>
    obtain ⟨closedQuote, read, -⟩ := scan_field rows row writes
      (show (',' :: (behind ++ rest)).head? ≠ some '"' by simp)
    obtain ⟨before, last, closed, split, readOthers, -⟩ := ih (row ++ [field])
    refine ⟨field :: before, last, closed, ?_, ?_, fun _ => .inl (List.cons_ne_nil _ _)⟩
    · rw [split, List.cons_append]
    · rw [append_assoc, List.cons_append, read, scan_comma, readOthers, append_assoc,
        List.singleton_append]

theorem finishRow_of_split {before : List Text} {last : Text}
    (some : ∃ value ∈ before ++ [last], value ≠ []) :
    State.finishRow ⟨rows, before, last, false, closedQuote⟩ =
      .ok ⟨rows ++ [before ++ [last]], [], [], false, false⟩ := by
  obtain ⟨value, present, nonempty⟩ := some
  simp only [State.finishRow, State.finishField, bind_eq_ok, pure_eq_ok]
  exact ⟨(), revertIf_eq_ok.mpr fun blank => nonempty (blank value present), trivial⟩

theorem WritesRow.ne_nil (writes : WritesRow fields text) (filled : ∃ value ∈ fields, value ≠ []) :
    text ≠ [] := by
  cases writes with
  | last writes =>
    obtain ⟨value, present, nonempty⟩ := filled
    rw [List.mem_singleton] at present
    subst present
    cases writes with
    | quoted => exact List.cons_ne_nil _ _
    | plain isPlain => exact nonempty
  | cons writes others => exact List.append_ne_nil_of_right_ne_nil _ (List.cons_ne_nil _ _)

theorem LineEnd.head?_ne (ends : LineEnd lineEnd) (rest : Text) :
    (lineEnd ++ rest).head? ≠ some '"' := by
  cases ends with
  | lf | crlf => simp

/-- Rows that are not blank are read back from each of their writings. -/
theorem scan_of_writes (rows : List (List Text)) {written : List (List Text)}
    (writes : Writes written text) (some : ∀ row ∈ written, ∃ value ∈ row, value ≠ []) :
    ∃ s, scan ⟨rows, [], [], false, false⟩ text = .ok s ∧ s.finish = .ok (rows ++ written) := by
  induction writes generalizing rows with
  | nil => exact ⟨_, rfl, by rw [append_nil]; rfl⟩
  | @last fields text writes =>
    have filled := some fields List.mem_cons_self
    obtain ⟨before, last, closedQuote, rfl, read, begun⟩ := scan_row rows [] writes
      (show ([] : Text).head? ≠ Option.some '"' by simp)
    rw [append_nil, List.nil_append] at read
    refine ⟨_, read, ?_⟩
    rw [State.finish, if_neg Bool.false_ne_true, if_pos (begun (writes.ne_nil filled)),
      finishRow_of_split filled]
    rfl
  | @cons fields text lineEnd behind written writes ends others ih =>
    have filled := some fields List.mem_cons_self
    obtain ⟨before, last, closedQuote, rfl, read, -⟩ :=
      scan_row rows [] writes (ends.head?_ne behind)
    obtain ⟨s, readOthers, finished⟩ := ih (rows ++ [before ++ [last]])
      fun row present => some row (List.mem_cons_of_mem _ present)
    refine ⟨s, ?_, ?_⟩
    · rw [append_assoc, read, scan_lineEnd ends, List.nil_append, finishRow_of_split filled]
      exact readOthers
    · rw [finished, append_assoc, List.singleton_append]

/-! ## What is accepted is a writing -/

/-- The fields of a row that have been finished by a comma. -/
inductive Commas : List Text → Text → Prop
  | nil : Commas [] []
  | snoc {row : List Text} {before field text : Text} (others : Commas row before)
      (writes : WritesField field text) : Commas (row ++ [field]) (before ++ text ++ [','])

/-- The rows that have been finished by a line end. -/
inductive Lines : List (List Text) → Text → Prop
  | nil : Lines [] []
  | snoc {rows : List (List Text)} {before text lineEnd : Text} {row : List Text}
      (others : Lines rows before) (writes : WritesRow row text) (ends : LineEnd lineEnd)
      (filled : ∃ value ∈ row, value ≠ []) :
      Lines (rows ++ [row]) (before ++ text ++ lineEnd)

/-- What the text of the field in progress is. -/
def Begun (s : State) (text : Text) : Prop :=
  if s.quoted then text = '"' :: s.field.flatMap double
  else if s.closedQuote then text = '"' :: s.field.flatMap double ++ ['"']
  else text = s.field ∧ IsPlain s.field

/-- The state that the reader is in behind a part of the text. -/
def Behind (s : State) (text : Text) : Prop :=
  ∃ lines commas begun, text = lines ++ commas ++ begun ∧ Lines s.rows lines ∧
    Commas s.row commas ∧ Begun s begun

theorem Commas.writesRow {row : List Text} {before behind : Text} (commas : Commas row before)
    (writes : WritesRow fields behind) :
    WritesRow (row ++ fields) (before ++ behind) := by
  induction commas generalizing fields behind with
  | nil => exact writes
  | snoc others written ih =>
    rw [append_assoc, append_assoc, append_assoc]
    exact ih (.cons written writes)

theorem Commas.eq_nil {row : List Text} (commas : Commas row text) (none : row = []) :
    text = [] := by
  cases commas with
  | nil => rfl
  | snoc others writes => exact absurd none (List.append_ne_nil_of_right_ne_nil _ (by simp))

theorem Lines.writes {before : Text} (lines : Lines rows before) {others : List (List Text)}
    {behind : Text} (writes : Writes others behind) :
    Writes (rows ++ others) (before ++ behind) := by
  induction lines generalizing others behind with
  | nil => exact writes
  | snoc lines written ends filled ih =>
    rw [append_assoc, append_assoc, append_assoc]
    have := ih (.cons written ends writes)
    rwa [append_assoc] at this

theorem Lines.filled {before : Text} (lines : Lines rows before) :
    ∀ row ∈ rows, ∃ value ∈ row, value ≠ [] := by
  induction lines with
  | nil => exact fun row absent => absurd absent List.not_mem_nil
  | snoc lines written ends filled ih =>
    intro row present
    obtain old | new := List.mem_append.mp present
    · exact ih row old
    · rw [List.mem_singleton] at new
      exact new ▸ filled

theorem Begun.writesField {s : State} (begun : Begun s text) (closed : s.quoted = false) :
    WritesField s.field text := by
  rw [Begun, closed, if_neg Bool.false_ne_true] at begun
  split_ifs at begun with quote
  · exact begun ▸ .quoted
  · obtain ⟨rfl, isPlain⟩ := begun
    exact .plain isPlain

theorem finishRow_eq_ok {s s' : State} (finished : s.finishRow = .ok s') :
    (∃ value ∈ s.row ++ [s.field], value ≠ []) ∧
      s' = ⟨s.rows ++ [s.row ++ [s.field]], [], [], s.quoted, false⟩ := by
  simp only [State.finishRow, State.finishField, bind_eq_ok, pure_eq_ok] at finished
  obtain ⟨done, filled, rfl⟩ := finished
  have some := revertIf_eq_ok.mp filled
  push Not at some
  exact ⟨some, rfl⟩

theorem IsPlain.append {character : Char} (isPlain : IsPlain field) (quote : character ≠ '"')
    (comma : character ≠ ',') (cr : character ≠ '\r') (lf : character ≠ '\n') :
    IsPlain (field ++ [character]) := by
  simp only [IsPlain, List.mem_append, List.mem_singleton, not_or]
  exact ⟨⟨isPlain.1, quote.symm⟩, ⟨isPlain.2.1, comma.symm⟩, ⟨isPlain.2.2.1, cr.symm⟩,
    isPlain.2.2.2, lf.symm⟩

namespace Begun

variable {s : State} {character : Char}

theorem double (quoted : s.quoted = true) (begun : Begun s text) :
    Begun { s with field := s.field ++ ['"'] } (text ++ ['"', '"']) := by
  simp only [Begun, quoted, if_true] at begun ⊢
  rw [begun, List.flatMap_append]
  rfl

theorem inside (quoted : s.quoted = true) (quote : character ≠ '"') (begun : Begun s text) :
    Begun { s with field := s.field ++ [character] } (text ++ [character]) := by
  simp only [Begun, quoted, if_true] at begun ⊢
  rw [begun, List.flatMap_append, List.flatMap_singleton, Csv.double, if_neg quote]
  rfl

theorem close (quoted : s.quoted = true) (begun : Begun s text) :
    Begun { s with quoted := false, closedQuote := true } (text ++ ['"']) := by
  simp only [Begun, quoted, if_true] at begun
  simp only [Begun, Bool.false_eq_true, if_false, if_true]
  rw [begun]

theorem quote (outside : ¬s.quoted = true) (unopened : s.closedQuote = false)
    (empty : s.field = []) (begun : Begun s text) :
    Begun { s with quoted := true } (text ++ ['"']) := by
  simp only [Begun, outside, unopened, Bool.false_eq_true, if_false] at begun
  simp only [Begun, if_true]
  rw [begun.1, empty]
  rfl

theorem plain (outside : ¬s.quoted = true) (unopened : s.closedQuote = false)
    (quote : character ≠ '"') (comma : character ≠ ',') (cr : character ≠ '\r')
    (lf : character ≠ '\n') (begun : Begun s text) :
    Begun { s with field := s.field ++ [character] } (text ++ [character]) := by
  simp only [Begun, outside, unopened, Bool.false_eq_true, if_false] at begun ⊢
  rw [begun.1]
  exact ⟨rfl, begun.2.append quote comma cr lf⟩

end Begun

section Steps

variable {s s' : State}

theorem Behind.finishField (behind : Behind s text) (closed : s.quoted = false) :
    Behind s.finishField (text ++ [',']) := by
  obtain ⟨lines, commas, begun, rfl, written, row, field⟩ := behind
  refine ⟨lines, commas ++ begun ++ [','], [], ?_, written, row.snoc (field.writesField closed), ?_⟩
  · simp only [append_assoc, append_nil]
  · simp [Begun, State.finishField, closed, IsPlain]

theorem Behind.finishRow (behind : Behind s text) (closed : s.quoted = false)
    (finished : s.finishRow = .ok s') (ends : LineEnd lineEnd) :
    Behind s' (text ++ lineEnd) := by
  obtain ⟨lines, commas, begun, rfl, written, row, field⟩ := behind
  obtain ⟨filled, rfl⟩ := finishRow_eq_ok finished
  have line := row.writesRow (.last (field.writesField closed))
  refine ⟨lines ++ (commas ++ begun) ++ lineEnd, [], [], ?_, written.snoc line ends filled, .nil,
    ?_⟩
  · simp only [append_assoc, append_nil]
  · simp [Begun, closed, IsPlain]

/-- The field in progress takes in a part of the text. -/
theorem Behind.extend {field more : Text} {quoted closedQuote : Bool} (behind : Behind s text)
    (taken : ∀ begun, Begun s begun →
      Begun { s with field := field, quoted := quoted, closedQuote := closedQuote }
        (begun ++ more)) :
    Behind { s with field := field, quoted := quoted, closedQuote := closedQuote }
      (text ++ more) := by
  obtain ⟨lines, commas, begun, rfl, written, row, started⟩ := behind
  refine ⟨lines, commas, begun ++ more, ?_, written, row, taken begun started⟩
  simp only [append_assoc]

end Steps

/-- Whatever the reader has accepted so far is the beginning of a writing. -/
theorem behind_scan {s' : State} : ∀ (text : Text) (s : State) (before : Text), Behind s before →
    scan s text = .ok s' → Behind s' (before ++ text)
  | [], s, before, behind, read => by
      cases read
      rwa [append_nil]
  | character :: rest, s, before, behind, read => by
      rw [scan.eq_def] at read
      simp only at read
      rw [← List.singleton_append, ← append_assoc]
      split_ifs at read with quoted quote after quote nonempty comma lf cr next
      · subst quote
        split at read
        · rename_i rest
          have taken := behind_scan rest _ _ (behind.extend fun begun => Begun.double quoted) read
          rwa [List.append_cons, append_assoc before]
        · exact behind_scan rest _ _ (behind.extend fun begun => Begun.close quoted) read
      · exact behind_scan rest _ _ (behind.extend fun begun => Begun.inside quoted quote) read
      · subst quote
        have unopened : s.closedQuote = false := by
          rw [Bool.eq_false_iff]
          intro closed
          exact after ⟨closed, by decide, by decide, by decide⟩
        exact behind_scan rest _ _
          (behind.extend fun begun => Begun.quote quoted unopened (not_not.mp nonempty)) read
      · subst comma
        exact behind_scan rest _ _ (behind.finishField (Bool.eq_false_iff.mpr quoted)) read
      · subst lf
        obtain ⟨finished, done, read⟩ := bind_eq_ok.mp read
        exact behind_scan rest _ _
          (behind.finishRow (Bool.eq_false_iff.mpr quoted) done .lf) read
      · -- the newline that has been seen ahead is the next character
        subst cr
        obtain ⟨rest, rfl⟩ := List.head?_eq_some_iff.mp (not_not.mp next)
        obtain ⟨rows, row, field, quote, closedQuote⟩ := s
        obtain rfl := Bool.eq_false_iff.mpr quoted
        rw [scan_newline] at read
        obtain ⟨finished, done, read⟩ := bind_eq_ok.mp read
        have taken := behind_scan rest _ _ (behind.finishRow rfl done .crlf) read
        rwa [List.append_cons, append_assoc before]
      · have unopened : s.closedQuote = false := by
          rw [Bool.eq_false_iff]
          intro closed
          exact after ⟨closed, comma, lf, cr⟩
        exact behind_scan rest _ _
          (behind.extend fun begun => Begun.plain quoted unopened quote comma cr lf) read
termination_by text => text.length

theorem writes_of_finish {s : State} (behind : Behind s text) (finished : s.finish = .ok rows) :
    Writes rows text ∧ ∀ row ∈ rows, ∃ value ∈ row, value ≠ [] := by
  obtain ⟨lines, commas, begun, rfl, written, row, field⟩ := behind
  unfold State.finish at finished
  split_ifs at finished with quoted started
  · obtain ⟨s', done, same⟩ := bind_eq_ok.mp finished
    obtain ⟨filled, rfl⟩ := finishRow_eq_ok done
    obtain rfl := pure_eq_ok.mp same
    have line := row.writesRow (.last (field.writesField (Bool.eq_false_iff.mpr quoted)))
    constructor
    · rw [append_assoc]
      exact written.writes (.last line)
    · intro row present
      obtain old | new := List.mem_append.mp present
      · exact written.filled row old
      · rw [List.mem_singleton] at new
        exact new ▸ filled
  · obtain rfl := pure_eq_ok.mp finished
    push Not at started
    obtain ⟨noFields, empty, unopened⟩ := started
    rw [noFields] at row
    simp only [Begun, quoted, unopened, empty] at field
    refine ⟨?_, written.filled⟩
    obtain rfl := row.eq_nil rfl
    rw [field.1, append_nil, append_nil]
    have done := written.writes .nil
    rwa [append_nil, append_nil] at done

/-! ## The characters of a writing -/

theorem mem_flatMap_double {character : Char} :
    character ∈ field.flatMap double ↔ character ∈ field := by
  have each (other : Char) : character ∈ double other ↔ character = other := by
    rw [double]
    split_ifs with quote
    · simp [quote]
    · exact List.mem_singleton
  simp only [List.mem_flatMap, each, exists_eq_right']

/-- The characters that have no meaning for the reader. -/
def IsOrdinary (character : Char) : Prop :=
  character ≠ '"' ∧ character ≠ ',' ∧ character ≠ '\r' ∧ character ≠ '\n'

section Ordinary

variable {character : Char} (ordinary : IsOrdinary character)

include ordinary

theorem WritesField.mem_iff (writes : WritesField field text) :
    character ∈ text ↔ character ∈ field := by
  cases writes with
  | quoted =>
    simp only [List.mem_cons, List.mem_append, mem_flatMap_double, ordinary.1, List.not_mem_nil,
      or_false, false_or]
  | plain isPlain => rfl

theorem WritesRow.mem_iff (writes : WritesRow row text) :
    character ∈ text ↔ ∃ field ∈ row, character ∈ field := by
  induction writes with
  | last writes => simp [writes.mem_iff ordinary]
  | cons writes others ih => simp [writes.mem_iff ordinary, ih, ordinary.2.1]

theorem LineEnd.not_mem (ends : LineEnd lineEnd) : character ∉ lineEnd := by
  cases ends with
  | lf => simp [ordinary.2.2.2]
  | crlf => simp [ordinary.2.2.1, ordinary.2.2.2]

theorem Writes.mem_iff (writes : Writes rows text) :
    character ∈ text ↔ ∃ row ∈ rows, ∃ field ∈ row, character ∈ field := by
  induction writes with
  | nil => simp
  | last writes => simp [writes.mem_iff ordinary]
  | cons writes ends others ih =>
    simp [writes.mem_iff ordinary, ih, ends.not_mem ordinary]

end Ordinary

theorem Writes.eq_nil_iff (writes : Writes rows text)
    (filled : ∀ row ∈ rows, ∃ value ∈ row, value ≠ []) : rows = [] ↔ text = [] := by
  cases writes with
  | nil => exact iff_of_true rfl rfl
  | last writes =>
    exact iff_of_false (List.cons_ne_nil _ _) (writes.ne_nil (filled _ List.mem_cons_self))
  | cons writes ends others =>
    refine iff_of_false (List.cons_ne_nil _ _) ?_
    rw [append_assoc]
    exact List.append_ne_nil_of_left_ne_nil (writes.ne_nil (filled _ List.mem_cons_self)) _

end Csv

/-- A text is accepted exactly if it is a writing of rows that are not blank, with no byte order
mark in front and no zero character, and what it is read as are these rows. Only the empty text
has no rows. -/
theorem csvRows_eq_ok_iff (text : Text) (rows : List (List Text)) :
    (csvRows text = .ok rows ↔ text.head? ≠ some byteOrderMark ∧ Csv.Writes rows text ∧
      ∀ row ∈ rows, (∃ field ∈ row, field ≠ []) ∧ ∀ field ∈ row, '\x00' ∉ field) ∧
    (csvRows text = .ok rows → (rows = [] ↔ text = [])) := by
  have ordinary : Csv.IsOrdinary '\x00' := by
    refine ⟨?_, ?_, ?_, ?_⟩ <;> decide
  have sound (accepted : csvRows text = .ok rows) : text.head? ≠ some byteOrderMark ∧
      '\x00' ∉ text ∧ Csv.Writes rows text ∧ ∀ row ∈ rows, ∃ field ∈ row, field ≠ [] := by
    simp only [csvRows, bind_eq_ok, revertIf_eq_ok] at accepted
    obtain ⟨-, mark, -, zero, s, read, finished⟩ := accepted
    have start : Csv.Behind .initial [] :=
      ⟨[], [], [], rfl, .nil, .nil, by simp [Csv.Begun, Csv.State.initial, Csv.IsPlain]⟩
    have behind := Csv.behind_scan text _ _ start read
    exact ⟨mark, zero, Csv.writes_of_finish behind finished⟩
  refine ⟨⟨fun accepted => ?_, ?_⟩, fun accepted => ?_⟩
  · obtain ⟨mark, zero, writes, filled⟩ := sound accepted
    rw [writes.mem_iff ordinary] at zero
    push Not at zero
    exact ⟨mark, writes, fun row present => ⟨filled row present, zero row present⟩⟩
  · rintro ⟨mark, writes, each⟩
    obtain ⟨s, read, finished⟩ := Csv.scan_of_writes [] writes fun row present =>
      (each row present).1
    simp only [csvRows, bind_eq_ok, revertIf_eq_ok]
    refine ⟨(), mark, (), ?_, s, read, finished⟩
    rw [writes.mem_iff ordinary]
    rintro ⟨row, present, field, inRow, zero⟩
    exact (each row present).2 field inRow zero
  · obtain ⟨-, -, writes, filled⟩ := sound accepted
    exact writes.eq_nil_iff filled

end Torium.Generator
