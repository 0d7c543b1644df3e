import Torium.Lib.Utf8

/-!
# Strings in JSON

Writing a string escapes quotes, backslashes, control characters, the three characters that
matter in HTML and the two line separators. A byte that belongs to no character is written as the
escape of U+FFFD, so it is not read back. Reading a string undoes every escape and replaces what
is no character, so what is read is always valid UTF-8, and a valid string is read back as it was.
-/

namespace Json

open Utf8

def hexDigit (n : Nat) : UInt8 := UInt8.ofNat (if n < 10 then 48 + n else 87 + n)

def hexValue? (b : UInt8) : Option Nat :=
  if 48 ≤ b && b ≤ 57 then some (b.toNat - 48)
  else if 97 ≤ b && b ≤ 102 then some (b.toNat - 87)
  else if 65 ≤ b && b ≤ 70 then some (b.toNat - 55)
  else none

/-- The number of four hexadecimal digits, and what follows them. -/
def hex4 : Bytes → Option (Nat × Bytes)
  | a :: b :: c :: d :: rest => do
      let a ← hexValue? a
      let b ← hexValue? b
      let c ← hexValue? c
      let d ← hexValue? d
      pure (4096 * a + 256 * b + 16 * c + d, rest)
  | _ => none

/-! ## Writing -/

/-- An ASCII character in a string. -/
def escapeAscii (b : UInt8) : Bytes :=
  if b = 34 ∨ b = 92 then [92, b]
  else if b = 8 then [92, 98]
  else if b = 12 then [92, 102]
  else if b = 10 then [92, 110]
  else if b = 13 then [92, 114]
  else if b = 9 then [92, 116]
  else if b < 32 ∨ b = 38 ∨ b = 60 ∨ b = 62 then
    [92, 117, 48, 48, hexDigit (b.toNat / 16), hexDigit (b.toNat % 16)]
  else [b]

def escapePiece : Piece → Bytes
  | .rune [b] => escapeAscii b
  | .rune bytes =>
    if bytes = [0xE2, 0x80, 0xA8] then [92, 117, 50, 48, 50, 56]
    else if bytes = [0xE2, 0x80, 0xA9] then [92, 117, 50, 48, 50, 57]
    else bytes
  | .stray _ => [92, 117, 102, 102, 102, 100]

/-- What is written between the quotes. -/
def escape (s : Bytes) : Bytes := (pieces s).flatMap escapePiece

/-! ## Reading -/

/-- The code point of a pair of surrogates. -/
def surrogatePair? (high low : Nat) : Option Nat :=
  if 0xD800 ≤ high ∧ high < 0xDC00 ∧ 0xDC00 ≤ low ∧ low < 0xE000 then
    some (0x10000 + 1024 * (high - 0xD800) + (low - 0xDC00))
  else none

/-- The escape of a code point, after its `u`. A surrogate needs a second escape behind it. -/
def unquoteCode (s : Bytes) : Option (Bytes × Bytes) := do
  let (code, rest) ← hex4 s
  if isSurrogate code then
    let pair : Option (Nat × Bytes) := do
      match rest with
      | 92 :: 117 :: after => do
          let (low, after) ← hex4 after
          let code ← surrogatePair? code low
          pure (code, after)
      | _ => none
    match pair with
    | some (code, after) => pure (encodeRune code, after)
    | none => pure (replacement, rest)
  else pure (encodeRune code, rest)

/-- The first character or escape of a string: what it stands for, and what follows. -/
def unquoteStep : Bytes → Option (Bytes × Bytes)
  | [] => none
  | 92 :: c :: rest =>
    if c = 34 ∨ c = 92 ∨ c = 47 ∨ c = 39 then some ([c], rest)
    else if c = 98 then some ([8], rest)
    else if c = 102 then some ([12], rest)
    else if c = 110 then some ([10], rest)
    else if c = 114 then some ([13], rest)
    else if c = 116 then some ([9], rest)
    else if c = 117 then unquoteCode rest
    else none
  | b :: rest =>
    if b = 92 ∨ b = 34 ∨ b < 32 then none
    else
      match runeLength (b :: rest) with
      | 0 => some (replacement, rest)
      | n + 1 => some ((b :: rest).take (n + 1), (b :: rest).drop (n + 1))

/-- Read the rest of a string; the fuel is its length. -/
def unquoteFrom : Nat → Bytes → Option Bytes
  | _, [] => some []
  | 0, _ :: _ => none
  | fuel + 1, b :: s =>
    match unquoteStep (b :: s) with
    | some (out, rest) => (unquoteFrom fuel rest).map (out ++ ·)
    | none => none

def unquote (s : Bytes) : Option Bytes := unquoteFrom s.length s

/-! ## What is read -/

theorem hex4_length {s rest : Bytes} {code : Nat} (read : hex4 s = some (code, rest)) :
    rest.length < s.length := by
  unfold hex4 at read
  split at read
  · simp only [bind, Option.bind_eq_some_iff, pure, Option.some.injEq, Prod.mk.injEq] at read
    obtain ⟨-, -, -, -, -, -, -, -, -, rfl⟩ := read
    simp only [List.length_cons]
    omega
  · cases read

theorem unquoteCode_spec {s out rest : Bytes} (read : unquoteCode s = some (out, rest)) :
    isRune out ∧ rest.length < s.length := by
  unfold unquoteCode at read
  simp only [bind, Option.bind_eq_some_iff] at read
  obtain ⟨⟨code, after⟩, digits, read⟩ := read
  have shorter := hex4_length digits
  simp only at read
  split_ifs at read with surrogate
  · split at read
    · rename_i pair
      obtain ⟨rfl, rfl⟩ := Prod.mk.inj (Option.some.inj read)
      refine ⟨isRune_encodeRune _, ?_⟩
      split at pair
      · simp only [Option.bind_eq_some_iff, pure, Option.some.injEq, Prod.mk.injEq] at pair
        obtain ⟨⟨low, last⟩, second, _, -, -, rfl⟩ := pair
        have further := hex4_length second
        simp only [List.length_cons] at shorter ⊢
        omega
      · cases pair
    · obtain ⟨rfl, rfl⟩ := Prod.mk.inj (Option.some.inj read)
      exact ⟨rfl, shorter⟩
  · obtain ⟨rfl, rfl⟩ := Prod.mk.inj (Option.some.inj read)
    exact ⟨isRune_encodeRune _, shorter⟩

/-- A step reads one character and leaves less to read. -/
theorem unquoteStep_spec {s out rest : Bytes} (read : unquoteStep s = some (out, rest)) :
    isRune out ∧ rest.length < s.length := by
  unfold unquoteStep at read
  split at read
  · cases read
  · rename_i c tail
    have ascii {b : UInt8} (small : b < 0x80) (same : some ([b], tail) = some (out, rest)) :
        isRune out ∧ rest.length < (92 :: c :: tail).length := by
      obtain ⟨rfl, rfl⟩ := Prod.mk.inj (Option.some.inj same)
      exact ⟨decide_eq_true small, by simp only [List.length_cons]; omega⟩
    split_ifs at read with plain
    · refine ascii ?_ read
      obtain rfl | rfl | rfl | rfl := plain <;> decide
    · exact ascii (by decide) read
    · exact ascii (by decide) read
    · exact ascii (by decide) read
    · exact ascii (by decide) read
    · exact ascii (by decide) read
    · obtain ⟨rune, shorter⟩ := unquoteCode_spec read
      exact ⟨rune, by simp only [List.length_cons]; omega⟩
  · rename_i b tail _
    split_ifs at read
    split at read
    · obtain ⟨rfl, rfl⟩ := Prod.mk.inj (Option.some.inj read)
      exact ⟨rfl, by simp only [List.length_cons]; omega⟩
    · rename_i n begins
      obtain ⟨rfl, rfl⟩ := Prod.mk.inj (Option.some.inj read)
      obtain ⟨r, after, whole, rune, length⟩ := runeLength_cases begins
      rw [whole, ← length, List.take_left, List.drop_left]
      refine ⟨rune, ?_⟩
      rw [List.length_append]
      omega

/-- What is read is valid UTF-8. -/
theorem valid_of_unquoteFrom {fuel : Nat} {s out : Bytes} (read : unquoteFrom fuel s = some out) :
    Valid out := by
  induction fuel generalizing s out with
  | zero =>
    cases s with
    | nil =>
      cases read
      exact .nil
    | cons => cases read
  | succ fuel ih =>
    cases s with
    | nil =>
      cases read
      exact .nil
    | cons b s =>
      rw [unquoteFrom] at read
      split at read
      · rename_i first rest step
        obtain ⟨others, later, rfl⟩ := Option.map_eq_some_iff.mp read
        exact .cons (unquoteStep_spec step).1 (ih later)
      · cases read

theorem valid_of_unquote {s out : Bytes} (read : unquote s = some out) : Valid out :=
  valid_of_unquoteFrom read

/-- More fuel than the length changes nothing. -/
theorem unquoteFrom_congr {fuel fuel' : Nat} {s : Bytes} (enough : s.length ≤ fuel)
    (enough' : s.length ≤ fuel') : unquoteFrom fuel s = unquoteFrom fuel' s := by
  induction fuel generalizing fuel' s with
  | zero =>
    obtain rfl := List.length_eq_zero_iff.mp (Nat.le_zero.mp enough)
    rw [unquoteFrom, unquoteFrom]
  | succ fuel ih =>
    cases s with
    | nil => rw [unquoteFrom, unquoteFrom]
    | cons b rest =>
      obtain ⟨fuel', rfl⟩ := Nat.exists_eq_add_of_le'
        (Nat.le_trans (Nat.le_add_left 1 _) enough')
      rw [unquoteFrom, unquoteFrom]
      split
      · rename_i step
        have shorter := (unquoteStep_spec step).2
        exact congrArg _ (ih (by omega) (by omega))
      · rfl

/-- The first step of reading. -/
theorem unquote_of_step {s out rest : Bytes} (step : unquoteStep s = some (out, rest)) :
    unquote s = (unquote rest).map (out ++ ·) := by
  have shorter := (unquoteStep_spec step).2
  cases s with
  | nil => cases step
  | cons b tail =>
    rw [unquote, List.length_cons, unquoteFrom, step]
    simp only
    rw [List.length_cons] at shorter
    rw [unquoteFrom_congr (by omega) (Nat.le_refl _), unquote]

/-! ## What is written is read back -/

/-- Two digits of an escape are read. -/
theorem hexValue?_hexDigit {n : Nat} (small : n < 16) : hexValue? (hexDigit n) = some n := by
  decide +revert

/-- A byte that needs no escape and begins a character is read as it stands. -/
theorem unquoteStep_rune {r : Bytes} (rune : isRune r)
    (plain : ∀ b ∈ r, b ≠ 92 ∧ b ≠ 34 ∧ 32 ≤ b) (rest : Bytes) :
    unquoteStep (r ++ rest) = some (r, rest) := by
  have length := runeLength_append rune rest
  cases r with
  | nil => cases rune
  | cons b tail =>
    obtain ⟨slash, quote, printable⟩ := plain b List.mem_cons_self
    rw [List.cons_append] at length ⊢
    rw [unquoteStep.eq_3 _ _ (by rintro _ _ same -; exact slash same),
      if_neg (by
        rintro (same | same | control)
        · exact slash same
        · exact quote same
        · exact absurd printable (UInt8.not_le.mpr control)),
      length]
    simp only [List.length_cons]
    rw [← List.length_cons (a := b), ← List.cons_append, List.take_left, List.drop_left]

/-- The escape of a code point that is no surrogate. -/
theorem unquoteStep_code {a b c d code : Nat} (rest : Bytes) (first : a < 16) (second : b < 16)
    (third : c < 16) (fourth : d < 16) (value : 4096 * a + 256 * b + 16 * c + d = code)
    (scalar : ¬ isSurrogate code) :
    unquoteStep (92 :: 117 :: hexDigit a :: hexDigit b :: hexDigit c :: hexDigit d :: rest) =
      some (encodeRune code, rest) := by
  have digits : hex4 (hexDigit a :: hexDigit b :: hexDigit c :: hexDigit d :: rest) =
      some (code, rest) := by
    simp only [hex4, hexValue?_hexDigit first, hexValue?_hexDigit second,
      hexValue?_hexDigit third, hexValue?_hexDigit fourth, ← value]
    rfl
  change unquoteCode _ = _
  simp only [unquoteCode, digits, Option.bind_eq_bind, Option.bind_some, if_neg scalar]
  rfl

/-- An ASCII character is read back. -/
theorem unquoteStep_escapeAscii {b : UInt8} (ascii : b < 0x80) (rest : Bytes) :
    unquoteStep (escapeAscii b ++ rest) = some ([b], rest) := by
  have small : b.toNat < 128 := ascii
  unfold escapeAscii
  split_ifs with mark backspace feed newline back tab control
  · obtain rfl | rfl := mark <;> rfl
  · subst backspace
    rfl
  · subst feed
    rfl
  · subst newline
    rfl
  · subst back
    rfl
  · subst tab
    rfl
  · have same : encodeRune b.toNat = [b] := by
      rw [encodeRune, if_pos small, UInt8.ofNat_toNat]
    rw [← same]
    refine unquoteStep_code (a := 0) (b := 0) rest (by omega) (by omega) (by omega) (by omega)
      (by omega) ?_
    simp only [isSurrogate, Bool.and_eq_true, decide_eq_true_eq]
    omega
  · refine unquoteStep_rune (r := [b]) (decide_eq_true ascii) ?_ rest
    intro c member
    rw [List.mem_singleton.mp member]
    rw [not_or] at mark control
    exact ⟨mark.2, mark.1, UInt8.not_lt.mp control.1⟩

/-- How the pieces of a string are written. -/
theorem escapePiece_cases {P : Piece → Bytes → Prop} {piece : Piece}
    (rune : ∀ r, piece = .rune r → isRune r)
    (ascii : ∀ b, b < 0x80 → P (.rune [b]) (escapeAscii b))
    (line : P (.rune [0xE2, 0x80, 0xA8]) [92, 117, 50, 48, 50, 56])
    (paragraph : P (.rune [0xE2, 0x80, 0xA9]) [92, 117, 50, 48, 50, 57])
    (high : ∀ bytes, isRune bytes → (∀ b ∈ bytes, 0x80 ≤ b) → P (.rune bytes) bytes)
    (stray : ∀ b, P (.stray b) [92, 117, 102, 102, 102, 100]) :
    P piece (escapePiece piece) := by
  unfold escapePiece
  split
  · exact ascii _ (of_decide_eq_true (rune _ rfl))
  · rename_i bytes other
    split_ifs with first second
    · exact first ▸ line
    · exact second ▸ paragraph
    · obtain ⟨b, -, rfl⟩ | ⟨-, above⟩ := isRune_cases (rune bytes rfl)
      · exact absurd rfl (other b)
      · exact high bytes (rune bytes rfl) above
  · exact stray _

/-- A character is read back. -/
theorem unquoteStep_escapePiece {r : Bytes} (rune : isRune r) (rest : Bytes) :
    unquoteStep (escapePiece (.rune r) ++ rest) = some (r, rest) := by
  refine escapePiece_cases (P := fun piece written => ∀ r, piece = .rune r →
      unquoteStep (written ++ rest) = some (r, rest))
    (fun _ same => Piece.rune.inj same ▸ rune) ?_ ?_ ?_ ?_ nofun r rfl
  · intro b ascii _ same
    cases same
    exact unquoteStep_escapeAscii ascii rest
  · intro _ same
    cases same
    rfl
  · intro _ same
    cases same
    rfl
  · intro bytes rune high _ same
    cases same
    refine unquoteStep_rune rune (fun b member => ?_) rest
    have above := high b member
    refine ⟨?_, ?_, UInt8.le_trans (by decide) above⟩ <;> rintro rfl <;>
      exact absurd above (by decide)

theorem escape_append {r : Bytes} (rune : isRune r) (s : Bytes) :
    escape (r ++ s) = escapePiece (.rune r) ++ escape s := by
  rw [escape, pieces_append rune, List.flatMap_cons, escape]

/-- A valid string is read back as it was written. -/
theorem unquote_escape {s : Bytes} (valid : Valid s) : unquote (escape s) = some s := by
  induction valid with
  | nil => rfl
  | cons rune _ ih =>
    rw [escape_append rune, unquote_of_step (unquoteStep_escapePiece rune _), ih]
    rfl

end Json
