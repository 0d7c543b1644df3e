import Torium.Lib.JsonSyntax

/-!
# Writing JSON

The texts of strings, numbers and objects as an encoder writes them, without spaces. Each is read
back as the value it was written for, whatever follows it in a larger text.
-/

namespace Json

open Utf8

/-- A string in quotes. -/
def quote (s : Bytes) : Bytes := 34 :: escape s ++ [34]

/-- Texts with commas between them. -/
def commaSeparated : List Bytes → Bytes
  | [] => []
  | [last] => last
  | first :: second :: others => first ++ 44 :: commaSeparated (second :: others)

def memberText (name text : Bytes) : Bytes := quote name ++ 58 :: text

/-- An object with the given names and texts of values. -/
def objectText (members : List (Bytes × Bytes)) : Bytes :=
  123 :: commaSeparated (members.map fun (name, text) => memberText name text) ++ [125]

def nullText : Bytes := [110, 117, 108, 108]

/-! ## Strings -/

/-- A part of a string that does not end it. -/
def Scans (part : Bytes) : Prop :=
  ∀ rest, scanString (part ++ rest) =
    (scanString rest).map fun (raw, rest) => (part ++ raw, rest)

theorem Scans.nil : Scans [] := fun rest => by
  rw [List.nil_append]
  cases scanString rest <;> rfl

theorem Scans.append {first second : Bytes} (left : Scans first) (right : Scans second) :
    Scans (first ++ second) := by
  intro rest
  rw [List.append_assoc, left, right]
  cases scanString rest with
  | none => rfl
  | some result => simp

theorem scans_plain {b : UInt8} (printable : 32 ≤ b) (quote : b ≠ 34) (slash : b ≠ 92) :
    Scans [b] := by
  intro rest
  rw [List.cons_append, List.nil_append]
  rw [scanString.eq_5 b rest quote (by rintro _ _ _ _ _ same -; exact slash same)
    (by rintro _ _ same -; exact slash same), if_neg (UInt8.not_lt.mpr printable)]
  rfl

theorem scans_of_high {bytes : Bytes} (high : ∀ b ∈ bytes, 0x80 ≤ b) : Scans bytes := by
  induction bytes with
  | nil => exact .nil
  | cons b bytes ih =>
    have above := high b List.mem_cons_self
    have first : Scans [b] := scans_plain (UInt8.le_trans (by decide) above)
      (by rintro rfl; exact absurd above (by decide))
      (by rintro rfl; exact absurd above (by decide))
    exact first.append (ih fun c member => high c (List.mem_cons_of_mem _ member))

theorem isHex_hexDigit {n : Nat} (small : n < 16) : isHex (hexDigit n) = true := by
  rw [isHex, hexValue?_hexDigit small]
  rfl

theorem scans_code {a b c d : UInt8} (hex : isHex a && isHex b && isHex c && isHex d) :
    Scans [92, 117, a, b, c, d] := by
  intro rest
  change scanString (92 :: 117 :: a :: b :: c :: d :: rest) = _
  rw [scanString, if_pos hex]
  rfl

theorem scans_escape {b : UInt8} (escape : isEscape b) (plain : b ≠ 117) : Scans [92, b] := by
  intro rest
  change scanString (92 :: b :: rest) = _
  rw [scanString.eq_4 b rest (by rintro _ _ _ _ _ same -; exact plain same), if_pos escape]
  rfl

theorem scans_escapeAscii (b : UInt8) : Scans (escapeAscii b) := by
  have small := b.toNat_lt
  unfold escapeAscii
  split_ifs with mark _ _ _ _ _ control
  · obtain rfl | rfl := mark <;> exact scans_escape rfl (by decide)
  · exact scans_escape rfl (by decide)
  · exact scans_escape rfl (by decide)
  · exact scans_escape rfl (by decide)
  · exact scans_escape rfl (by decide)
  · exact scans_escape rfl (by decide)
  · refine scans_code ?_
    rw [isHex_hexDigit (by omega), isHex_hexDigit (by omega)]
    rfl
  · rw [not_or] at mark control
    exact scans_plain (UInt8.not_lt.mp control.1) mark.1 mark.2

theorem scans_escapePiece {piece : Piece} (rune : ∀ r, piece = .rune r → isRune r) :
    Scans (escapePiece piece) :=
  escapePiece_cases (P := fun _ => Scans) rune (fun b _ => scans_escapeAscii b) (scans_code rfl)
    (scans_code rfl) (fun _ _ => scans_of_high) fun _ => scans_code rfl

theorem scans_escape_all (s : Bytes) : Scans (escape s) := by
  have all : ∀ ps : List Piece, (∀ r, .rune r ∈ ps → isRune r) →
    Scans (ps.flatMap escapePiece) := by
    intro ps
    induction ps with
    | nil => exact fun _ => .nil
    | cons piece ps ih =>
      intro runes
      rw [List.flatMap_cons]
      refine Scans.append (scans_escapePiece fun r same => runes r ?_) (ih fun r member =>
        runes r (List.mem_cons_of_mem _ member))
      exact same ▸ List.mem_cons_self
  exact all _ fun r member => isRune_of_mem_pieces member

theorem scanString_escape (s rest : Bytes) :
    scanString (escape s ++ 34 :: rest) = some (escape s, rest) := by
  rw [scans_escape_all]
  change some (escape s ++ [], rest) = _
  rw [List.append_nil]

/-- ASCII characters that are written as they are. -/
def isPlain (b : UInt8) : Bool :=
  32 ≤ b && b < 0x80 && b ≠ 34 && b ≠ 92 && b ≠ 38 && b ≠ 60 && b ≠ 62

theorem escape_plain {s : Bytes} (plain : ∀ b ∈ s, isPlain b) : escape s = s := by
  induction s with
  | nil => rfl
  | cons b s ih =>
    have here := plain b List.mem_cons_self
    simp only [isPlain, Bool.and_eq_true, decide_eq_true_eq] at here
    obtain ⟨⟨⟨⟨⟨⟨low, ascii⟩, quote⟩, slash⟩, ampersand⟩, less⟩, greater⟩ := here
    have first : escapeAscii b = [b] := by
      have above (c : UInt8) (control : c < 32) : b ≠ c := by
        rintro rfl
        exact absurd low (UInt8.not_le.mpr control)
      simp [escapeAscii, quote, slash, ampersand, less, greater, UInt8.not_lt.mpr low,
        above 8 (by decide), above 12 (by decide), above 10 (by decide), above 13 (by decide),
        above 9 (by decide)]
    have rune : isRune [b] := decide_eq_true ascii
    rw [← List.singleton_append, escape_append rune, ih fun c member =>
      plain c (List.mem_cons_of_mem _ member)]
    exact congrArg (· ++ s) first

/-! ## Values -/

/-- What may follow a value: nothing, a comma or a closing character. -/
def Ends (rest : Bytes) : Prop := ∀ b ∈ rest.head?, b = 44 ∨ b = 93 ∨ b = 125

/-- The reader takes the text as `x` and stops there. -/
def Reads {α : Type} (item : Bytes → Option (α × Bytes)) (text : Bytes) (x : α) : Prop :=
  ∀ rest, Ends rest → item (text ++ rest) = some (x, rest)

/-- A text of a value that is nested `levels` deep. -/
def Writes (levels : Nat) (text : Bytes) (v : Value) : Prop :=
  ∀ fuel depth, levels < fuel → levels ≤ depth → Reads (value fuel depth) text v

variable {text rest : Bytes}

theorem Writes.mono {levels levels' : Nat} {v : Value} (writes : Writes levels text v)
    (more : levels ≤ levels') : Writes levels' text v :=
  fun fuel depth enough deep =>
    writes fuel depth (Nat.lt_of_le_of_lt more enough) (Nat.le_trans more deep)

theorem writes_quote (s : Bytes) : Writes 0 (quote s) (.string (escape s)) := by
  intro fuel depth enough _ rest _
  obtain ⟨fuel, rfl⟩ := Nat.exists_eq_add_of_lt enough
  have here : quote s ++ rest = 34 :: (escape s ++ 34 :: rest) := by simp [quote]
  rw [here, Nat.zero_add]
  change (scanString (escape s ++ 34 :: rest)).map _ = _
  rw [scanString_escape]
  rfl

theorem writes_null : Writes 0 nullText .null := by
  intro fuel depth enough _ rest _
  obtain ⟨fuel, rfl⟩ := Nat.exists_eq_add_of_lt enough
  rw [Nat.zero_add]
  rfl

/-! ### Numbers -/

theorem Ends.cases (ends : Ends rest) :
    rest = [] ∨ ∃ b tail, rest = b :: tail ∧ (b = 44 ∨ b = 93 ∨ b = 125) := by
  cases rest with
  | nil => exact .inl rfl
  | cons b tail => exact .inr ⟨b, tail, rfl, ends b rfl⟩

theorem scanFraction_ends (ends : Ends rest) :
    scanFraction rest = some ([], rest) := by
  obtain rfl | ⟨b, tail, rfl, rfl | rfl | rfl⟩ := ends.cases <;> rfl

theorem scanExponent_ends (ends : Ends rest) :
    scanExponent rest = some ([], rest) := by
  obtain rfl | ⟨b, tail, rfl, rfl | rfl | rfl⟩ := ends.cases <;> rfl

theorem takeWhile_digits {digits : Bytes} (all : ∀ b ∈ digits, isDigit b) (ends : Ends rest) :
    (digits ++ rest).takeWhile isDigit = digits ∧ (digits ++ rest).dropWhile isDigit = rest := by
  have stop : rest.takeWhile isDigit = [] ∧ rest.dropWhile isDigit = rest := by
    obtain rfl | ⟨b, tail, rfl, rfl | rfl | rfl⟩ := ends.cases <;> exact ⟨rfl, rfl⟩
  rw [List.takeWhile_append_of_pos all, List.dropWhile_append_of_pos all, stop.1, stop.2]
  exact ⟨List.append_nil _, rfl⟩

/-- A text of digits, without a leading zero. -/
structure Decimal (digits : Bytes) : Prop where
  digit : ∀ b ∈ digits, isDigit b
  nonempty : digits ≠ []
  leading : digits.head? = some 48 → digits = [48]

theorem scanInteger_digits {digits : Bytes} (decimal : Decimal digits) (ends : Ends rest) :
    scanInteger (digits ++ rest) = some (digits, rest) := by
  have whole := takeWhile_digits decimal.digit ends
  cases digits with
  | nil => exact absurd rfl decimal.nonempty
  | cons b digits =>
    rw [List.cons_append] at whole ⊢
    rw [scanInteger]
    split_ifs with zero digit
    · obtain ⟨-, rfl⟩ := List.cons.inj (decimal.leading (congrArg some zero))
      rw [zero]
      rfl
    · rw [whole.1, whole.2]
    · exact absurd (decimal.digit b List.mem_cons_self) digit

theorem writes_number {digits : Bytes} (decimal : Decimal digits) :
    Writes 0 digits (.number digits) := by
  intro fuel depth enough _ rest ends
  obtain ⟨fuel, rfl⟩ := Nat.exists_eq_add_of_lt enough
  have scanned : scanUnsigned (digits ++ rest) = some (digits, rest) := by
    simp [scanUnsigned, scanInteger_digits decimal ends, scanFraction_ends ends,
      scanExponent_ends ends]
  obtain ⟨b, others, rfl⟩ := List.exists_cons_of_ne_nil decimal.nonempty
  have digit := decimal.digit b List.mem_cons_self
  have notEq {c : UInt8} (other : isDigit c = false) : b ≠ c := by
    rintro rfl
    rw [other] at digit
    cases digit
  have plain : skip (b :: others ++ rest) = b :: others ++ rest := by
    refine List.dropWhile_cons_of_neg ?_
    simp [isSpace, notEq (c := 32) rfl, notEq (c := 9) rfl, notEq (c := 10) rfl,
      notEq (c := 13) rfl]
  rw [Nat.zero_add]
  change form _ depth _ = _
  unfold form
  rw [plain, List.cons_append]
  rw [List.cons_append] at scanned
  split
  case h_7 =>
    rw [scanNumber.eq_2 _ (fun _ same => notEq rfl (List.cons.inj same).1), scanned]
    rfl
  -- The other forms of values do not begin with a digit.
  all_goals
    rename_i same
    exact absurd (List.cons.inj same).1 (notEq rfl)

/-! ### Objects -/

theorem ends_comma (rest : Bytes) : Ends (44 :: rest) := by
  rintro b ⟨⟩
  exact .inl rfl

/-- Items that are written with commas between them are read back. -/
theorem items_commaSeparated {α : Type} {item : Bytes → Option (α × Bytes)} {close : UInt8}
    (closes : close = 93 ∨ close = 125) (parts : List (Bytes × α))
    (reads : ∀ part ∈ parts, Reads item part.1 part.2) (nonempty : parts ≠ []) (fuel : Nat)
    (enough : parts.length ≤ fuel) (rest : Bytes) :
    items item close fuel (commaSeparated (parts.map (·.1)) ++ close :: rest) =
      some (parts.map (·.2), rest) := by
  induction parts generalizing fuel with
  | nil => exact absurd rfl nonempty
  | cons part parts ih =>
    obtain ⟨fuel, rfl⟩ := Nat.exists_eq_add_of_le' (Nat.le_trans (Nat.le_add_left 1 _) enough)
    have first := reads part List.mem_cons_self
    cases parts with
    | nil =>
      have ends : Ends (close :: rest) := by
        rintro b ⟨⟩
        exact .inr closes
      have last : skip (close :: rest) = close :: rest ∧ close ≠ 44 := by
        obtain rfl | rfl := closes <;> exact ⟨rfl, by decide⟩
      simp only [List.map_cons, List.map_nil, commaSeparated, items, first _ ends, bind,
        Option.bind_some, last.1, if_neg last.2, ite_true]
      rfl
    | cons second others =>
      have later := ih (fun part member => reads part (List.mem_cons_of_mem _ member))
        (List.cons_ne_nil _ _) fuel (Nat.le_of_succ_le_succ enough)
      have here : commaSeparated ((part :: second :: others).map (·.1)) ++ close :: rest =
          part.1 ++ 44 :: (commaSeparated ((second :: others).map (·.1)) ++ close :: rest) := by
        simp [commaSeparated]
      have comma (tail : Bytes) : skip (44 :: tail) = 44 :: tail := rfl
      rw [here, items, first _ (ends_comma _)]
      simp only [bind, Option.bind_some, comma, ite_true, later]
      rfl

theorem reads_member {α : Type} {item : Bytes → Option (α × Bytes)} {name : Bytes} {x : α}
    (reads : Reads item text x) :
    Reads (member item) (memberText name text) (escape name, x) := by
  intro rest ends
  have here : memberText name text ++ rest =
      34 :: (escape name ++ 34 :: (58 :: (text ++ rest))) := by
    simp [memberText, quote]
  have opening (tail : Bytes) : skip (34 :: tail) = 34 :: tail := rfl
  have colon (tail : Bytes) : skip (58 :: tail) = 58 :: tail := rfl
  rw [here]
  simp only [member, opening, scanString_escape, bind, Option.bind_some, colon, reads rest ends]
  rfl

theorem length_commaSeparated (texts : List Bytes) :
    texts.length ≤ (commaSeparated texts).length + 1 := by
  induction texts with
  | nil => exact Nat.zero_le _
  | cons first texts ih =>
    cases texts with
    | nil => exact Nat.le_add_left _ _
    | cons second others =>
      simp only [commaSeparated, List.length_append, List.length_cons] at ih ⊢
      omega

theorem commaSeparated_memberText (member : Bytes × Bytes) (members : List (Bytes × Bytes)) :
    ∃ tail, commaSeparated ((member :: members).map fun (name, text) => memberText name text) =
      34 :: tail := by
  cases members with
  | nil => exact ⟨_, rfl⟩
  | cons second others => exact ⟨_, rfl⟩

theorem group_members {item : Bytes → Option (Value × Bytes)}
    (members : List (Bytes × Bytes × Value)) (reads : ∀ m ∈ members, Reads item m.2.1 m.2.2)
    (rest : Bytes) :
    group (member item) 125 (commaSeparated
        ((members.map fun m => (m.1, m.2.1)).map fun (name, text) => memberText name text) ++
          125 :: rest) =
      some (members.map fun m => (escape m.1, m.2.2), rest) := by
  cases members with
  | nil => rfl
  | cons m members =>
    obtain ⟨tail, head⟩ := commaSeparated_memberText (m.1, m.2.1)
      (members.map fun m => (m.1, m.2.1))
    have count := length_commaSeparated
      (((m :: members).map fun m => (m.1, m.2.1)).map fun (name, text) => memberText name text)
    have all := items_commaSeparated
      (show (125 : UInt8) = 93 ∨ (125 : UInt8) = 125 from .inr rfl)
      ((m :: members).map fun m => (memberText m.1 m.2.1, escape m.1, m.2.2))
      (by
        intro part among
        obtain ⟨m, member, rfl⟩ := List.mem_map.mp among
        exact reads_member (reads m member))
      (by simp) ((tail ++ 125 :: rest).length + 1)
      (by
        rw [List.map_cons, head] at count
        simp only [List.length_cons, List.length_map, List.length_append] at count ⊢
        omega) rest
    have parts : ((m :: members).map fun m => (memberText m.1 m.2.1, escape m.1, m.2.2)).map
        (·.1) = ((m :: members).map fun m => (m.1, m.2.1)).map fun (name, text) =>
          memberText name text := by
      simp [Function.comp_def]
    rw [parts, List.map_cons, head] at all
    rw [List.map_cons, head]
    change items (member item) 125 ((tail ++ 125 :: rest).length + 1)
      (34 :: (tail ++ 125 :: rest)) = _
    rw [List.cons_append] at all
    rw [all]
    simp [Function.comp_def]

/-- An object is read back when its members are. -/
theorem writes_object (levels : Nat) (members : List (Bytes × Bytes × Value))
    (writes : ∀ m ∈ members, Writes levels m.2.1 m.2.2) :
    Writes (levels + 1) (objectText (members.map fun m => (m.1, m.2.1)))
      (.object (members.map fun m => (escape m.1, m.2.2))) := by
  intro fuel depth enough deep rest _
  obtain ⟨fuel, rfl⟩ := Nat.exists_eq_add_of_le' (Nat.le_trans (Nat.le_add_left 1 _) enough)
  obtain ⟨depth, rfl⟩ := Nat.exists_eq_add_of_le' (Nat.le_trans (Nat.le_add_left 1 _) deep)
  have all := group_members members
    (fun m member => writes m member fuel depth (Nat.lt_of_succ_lt_succ enough)
      (Nat.le_of_succ_le_succ deep)) rest
  have here : objectText (members.map fun m => (m.1, m.2.1)) ++ rest =
      123 :: (commaSeparated ((members.map fun m => (m.1, m.2.1)).map fun (name, text) =>
        memberText name text) ++ 125 :: rest) := by
    simp [objectText]
  rw [here]
  change (group (member (value fuel depth)) 125 _).map _ = _
  rw [all]
  rfl

/-- A text that is written for a value is read as it. -/
theorem parse_of_writes {levels : Nat} {v : Value} (writes : Writes levels text v)
    (enough : levels ≤ text.length) (deep : levels ≤ maxNestingDepth) : parse text = some v := by
  have read := writes (text.length + 1) maxNestingDepth (Nat.lt_succ_of_le enough) deep []
    (by rintro b ⟨⟩)
  rw [List.append_nil] at read
  simp only [parse, read, bind, Option.bind_some]
  rfl

/-! ## No control characters -/

/-- A text without control characters; in particular it is one line. -/
def Printable (text : Bytes) : Prop := ∀ b ∈ text, 32 ≤ b

theorem Printable.append {first second : Bytes} (left : Printable first)
    (right : Printable second) : Printable (first ++ second) := by
  intro b member
  obtain here | there := List.mem_append.mp member
  · exact left b here
  · exact right b there

theorem Printable.cons {b : UInt8} (first : 32 ≤ b) (others : Printable text) :
    Printable (b :: text) := by
  intro c member
  obtain rfl | there := List.mem_cons.mp member
  · exact first
  · exact others c there

theorem printable_nil : Printable [] := by
  rintro b ⟨⟩

theorem printable_hexDigit {n : Nat} (small : n < 16) : 32 ≤ hexDigit n := by
  decide +revert

theorem printable_escapeAscii (b : UInt8) : Printable (escapeAscii b) := by
  have small := b.toNat_lt
  unfold escapeAscii
  split_ifs with mark _ _ _ _ _ control
  · obtain rfl | rfl := mark <;> simp [Printable]
  · simp [Printable]
  · simp [Printable]
  · simp [Printable]
  · simp [Printable]
  · simp [Printable]
  · simpa [Printable] using ⟨printable_hexDigit (by omega), printable_hexDigit (by omega)⟩
  · rw [not_or] at control
    exact .cons (UInt8.not_lt.mp control.1) printable_nil

theorem printable_escapePiece {piece : Piece} (rune : ∀ r, piece = .rune r → isRune r) :
    Printable (escapePiece piece) := by
  refine escapePiece_cases (P := fun _ => Printable) rune (fun b _ => printable_escapeAscii b)
    ?_ ?_ (fun _ _ high b member => ?_) fun _ => ?_
  · simp [Printable]
  · simp [Printable]
  · exact UInt8.le_trans (by decide) (high b member)
  · simp [Printable]

theorem printable_escape (s : Bytes) : Printable (escape s) := by
  intro b member
  obtain ⟨piece, among, here⟩ := List.mem_flatMap.mp member
  exact printable_escapePiece (fun r same => isRune_of_mem_pieces (same ▸ among)) b here

theorem printable_quote (s : Bytes) : Printable (quote s) :=
  .cons (by decide) ((printable_escape s).append (.cons (by decide) printable_nil))

theorem printable_commaSeparated {texts : List Bytes} (all : ∀ text ∈ texts, Printable text) :
    Printable (commaSeparated texts) := by
  induction texts with
  | nil => exact printable_nil
  | cons first texts ih =>
    have head := all first List.mem_cons_self
    cases texts with
    | nil => exact head
    | cons second others =>
      exact head.append (.cons (by decide)
        (ih fun text member => all text (List.mem_cons_of_mem _ member)))

theorem printable_objectText {members : List (Bytes × Bytes)}
    (all : ∀ m ∈ members, Printable m.2) : Printable (objectText members) := by
  refine .cons (by decide) (.append (printable_commaSeparated ?_) (.cons (by decide) printable_nil))
  intro text among
  obtain ⟨m, member, rfl⟩ := List.mem_map.mp among
  exact (printable_quote _).append (.cons (by decide) (all m member))

end Json
