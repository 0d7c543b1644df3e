import Mathlib.Data.List.Basic

/-!
# UTF-8

A text is a list of bytes. `isRune` says which lists are the encoding of one character: overlong
forms, surrogates and numbers beyond the last code point are not. The first byte tells how many
bytes a character has, so a text is cut into characters in one way. A byte at which no character
begins stands alone.
-/

namespace Utf8

abbrev Bytes : Type := List UInt8

def isContinuation (b : UInt8) : Bool := 0x80 ≤ b && b ≤ 0xBF

/-- The second byte of a character of three or four bytes. -/
def isSecond (first b : UInt8) : Bool :=
  (if first = 0xE0 then 0xA0 else if first = 0xF0 then 0x90 else 0x80) ≤ b &&
    b ≤ (if first = 0xED then 0x9F else if first = 0xF4 then 0x8F else 0xBF)

/-- The bytes of one character. -/
def isRune : Bytes → Bool
  | [a] => a < 0x80
  | [a, b] => 0xC2 ≤ a && a ≤ 0xDF && isContinuation b
  | [a, b, c] => 0xE0 ≤ a && a ≤ 0xEF && isSecond a b && isContinuation c
  | [a, b, c, d] => 0xF0 ≤ a && a ≤ 0xF4 && isSecond a b && isContinuation c && isContinuation d
  | _ => false

/-- The number of bytes of a character with the given first byte. -/
def width (first : UInt8) : Nat :=
  if first < 0x80 then 1 else if first ≤ 0xDF then 2 else if first ≤ 0xEF then 3 else 4

/-- The number of bytes of the character at the beginning; zero if there is none. -/
def runeLength : Bytes → Nat
  | [] => 0
  | a :: rest => if isRune ((a :: rest).take (width a)) then width a else 0

theorem width_pos (a : UInt8) : 0 < width a := by
  unfold width
  split_ifs <;> decide

theorem length_of_isRune {a : UInt8} {rest : Bytes} (rune : isRune (a :: rest)) :
    (a :: rest).length = width a := by
  rcases rest with _ | ⟨b, _ | ⟨c, _ | ⟨d, _ | ⟨e, rest⟩⟩⟩⟩ <;>
    simp only [isRune, width, Bool.and_eq_true, decide_eq_true_eq, UInt8.le_iff_toNat_le,
      UInt8.lt_iff_toNat_lt, UInt8.reduceToNat, List.length_cons, List.length_nil,
      Bool.false_eq_true] at rune ⊢ <;>
    split_ifs <;> omega

theorem runeLength_append {r : Bytes} (rune : isRune r) (s : Bytes) :
    runeLength (r ++ s) = r.length := by
  cases r with
  | nil => cases rune
  | cons a rest =>
    have length := length_of_isRune rune
    rw [List.cons_append, runeLength, ← length, ← List.cons_append, List.take_left, if_pos rune]

/-- What stands at the beginning of a text. -/
theorem runeLength_cases {s : Bytes} {n : Nat} (begins : runeLength s = n + 1) :
    ∃ r rest, s = r ++ rest ∧ isRune r ∧ r.length = n + 1 := by
  cases s with
  | nil => cases begins
  | cons a tail =>
    rw [runeLength] at begins
    split_ifs at begins with rune
    refine ⟨(a :: tail).take (width a), (a :: tail).drop (width a),
      (List.take_append_drop _ _).symm, rune, ?_⟩
    obtain ⟨k, wide⟩ := Nat.exists_eq_add_of_lt (width_pos a)
    rw [Nat.zero_add] at wide
    rw [wide, List.take_succ_cons] at rune ⊢
    rw [length_of_isRune rune, begins]

theorem le_of_isContinuation {b : UInt8} (continues : isContinuation b) : 0x80 ≤ b :=
  of_decide_eq_true ((Bool.and_eq_true _ _).mp continues).1

theorem le_of_isSecond {first b : UInt8} (second : isSecond first b) : 0x80 ≤ b := by
  have low := of_decide_eq_true ((Bool.and_eq_true _ _).mp second).1
  refine UInt8.le_trans ?_ low
  split_ifs <;> decide

/-- A character is one ASCII character, or none of its bytes is one. -/
theorem isRune_cases {r : Bytes} (rune : isRune r) :
    (∃ b, b < 0x80 ∧ r = [b]) ∨ r ≠ [] ∧ ∀ b ∈ r, 0x80 ≤ b := by
  have first {a : UInt8} {low high : UInt8} (above : 0x80 ≤ low) (within : low ≤ a ∧ a ≤ high) :
      0x80 ≤ a := UInt8.le_trans above within.1
  rcases r with _ | ⟨a, _ | ⟨b, _ | ⟨c, _ | ⟨d, _ | ⟨e, rest⟩⟩⟩⟩⟩
  · cases rune
  · exact .inl ⟨a, of_decide_eq_true rune, rfl⟩
  · simp only [isRune, Bool.and_eq_true, decide_eq_true_eq] at rune
    obtain ⟨head, second⟩ := rune
    simpa using ⟨first (by decide) head, le_of_isContinuation second⟩
  · simp only [isRune, Bool.and_eq_true, decide_eq_true_eq] at rune
    obtain ⟨⟨head, second⟩, third⟩ := rune
    simpa using ⟨first (by decide) head, le_of_isSecond second, le_of_isContinuation third⟩
  · simp only [isRune, Bool.and_eq_true, decide_eq_true_eq] at rune
    obtain ⟨⟨⟨head, second⟩, third⟩, fourth⟩ := rune
    simpa using ⟨first (by decide) head, le_of_isSecond second, le_of_isContinuation third,
      le_of_isContinuation fourth⟩
  · cases rune

/-! ## Code points -/

/-- The encoding of U+FFFD. -/
def replacement : Bytes := [0xEF, 0xBF, 0xBD]

def isSurrogate (r : Nat) : Bool := 0xD800 ≤ r && r < 0xE000

/-- The encoding of a code point; what is none is encoded as U+FFFD. -/
def encodeRune (r : Nat) : Bytes :=
  if r < 0x80 then [UInt8.ofNat r]
  else if r < 0x800 then [UInt8.ofNat (0xC0 + r / 64), UInt8.ofNat (0x80 + r % 64)]
  else if isSurrogate r then replacement
  else if r < 0x10000 then
    [UInt8.ofNat (0xE0 + r / 4096), UInt8.ofNat (0x80 + r / 64 % 64), UInt8.ofNat (0x80 + r % 64)]
  else if r < 0x110000 then
    [UInt8.ofNat (0xF0 + r / 262144), UInt8.ofNat (0x80 + r / 4096 % 64),
      UInt8.ofNat (0x80 + r / 64 % 64), UInt8.ofNat (0x80 + r % 64)]
  else replacement

theorem isRune_encodeRune (r : Nat) : isRune (encodeRune r) := by
  unfold encodeRune
  split_ifs with one two surrogate three four
  · simp only [isRune, decide_eq_true_eq, UInt8.lt_iff_toNat_lt, UInt8.toNat_ofNat',
      UInt8.reduceToNat]
    omega
  · simp only [isRune, isContinuation, Bool.and_eq_true, decide_eq_true_eq, UInt8.le_iff_toNat_le,
      UInt8.toNat_ofNat', UInt8.reduceToNat]
    omega
  · rfl
  · simp only [isSurrogate, Bool.and_eq_true, decide_eq_true_eq] at surrogate
    simp only [isRune, isSecond, isContinuation, Bool.and_eq_true, decide_eq_true_eq,
      UInt8.le_iff_toNat_le, UInt8.toNat_ofNat', UInt8.reduceToNat, ← UInt8.toNat_inj]
    split_ifs <;> simp only [UInt8.reduceToNat] <;> omega
  · simp only [isRune, isSecond, isContinuation, Bool.and_eq_true, decide_eq_true_eq,
      UInt8.le_iff_toNat_le, UInt8.toNat_ofNat', UInt8.reduceToNat, ← UInt8.toNat_inj]
    split_ifs <;> simp only [UInt8.reduceToNat] <;> omega
  · rfl

/-! ## Valid texts -/

/-- A sequence of characters. -/
inductive Valid : Bytes → Prop where
  | nil : Valid []
  | cons {r s : Bytes} (rune : isRune r) (rest : Valid s) : Valid (r ++ s)

theorem valid_of_ascii {s : Bytes} (ascii : ∀ b ∈ s, b < 0x80) : Valid s := by
  induction s with
  | nil => exact .nil
  | cons b s ih =>
    have first : isRune [b] := decide_eq_true (ascii b List.mem_cons_self)
    exact .cons first (ih fun c member => ascii c (List.mem_cons_of_mem _ member))

/-- A valid text begins with a character. -/
theorem Valid.runeLength_pos {s : Bytes} (valid : Valid s) (nonempty : s ≠ []) :
    0 < runeLength s := by
  cases valid with
  | nil => exact absurd rfl nonempty
  | cons rune rest =>
    rw [runeLength_append rune]
    obtain ⟨b, -, rfl⟩ | ⟨other, -⟩ := isRune_cases rune
    · exact Nat.one_pos
    · exact List.length_pos_iff.mpr other

/-! ## Pieces -/

inductive Piece where
  | rune (bytes : Bytes)
  /-- A byte at which no character begins. -/
  | stray (byte : UInt8)
  deriving DecidableEq

/-- Cut a text into pieces; the fuel is its length. -/
def cut : Nat → Bytes → List Piece
  | _, [] => []
  | 0, _ :: _ => []
  | fuel + 1, b :: rest =>
    match runeLength (b :: rest) with
    | 0 => .stray b :: cut fuel rest
    | n + 1 => .rune ((b :: rest).take (n + 1)) :: cut fuel ((b :: rest).drop (n + 1))

def pieces (s : Bytes) : List Piece := cut s.length s

/-- More fuel than the length changes nothing. -/
theorem cut_congr {fuel fuel' : Nat} {s : Bytes} (enough : s.length ≤ fuel)
    (enough' : s.length ≤ fuel') : cut fuel s = cut fuel' s := by
  induction fuel generalizing fuel' s with
  | zero =>
    obtain rfl := List.length_eq_zero_iff.mp (Nat.le_zero.mp enough)
    rw [cut, cut]
  | succ fuel ih =>
    cases s with
    | nil => rw [cut, cut]
    | cons b rest =>
      obtain ⟨fuel', rfl⟩ := Nat.exists_eq_add_of_le'
        (Nat.le_trans (Nat.le_add_left 1 _) enough')
      rw [List.length_cons] at enough enough'
      have dropped (n : Nat) : ((b :: rest).drop (n + 1)).length ≤ rest.length := by
        rw [List.drop_succ_cons, List.length_drop]
        omega
      rw [cut, cut]
      split
      · exact congrArg _ (ih (by omega) (by omega))
      · rename_i n _
        have := dropped n
        exact congrArg _ (ih (by omega) (by omega))

theorem pieces_append {r : Bytes} (rune : isRune r) (s : Bytes) :
    pieces (r ++ s) = .rune r :: pieces s := by
  have length := runeLength_append rune s
  cases r with
  | nil => cases rune
  | cons b rest =>
    rw [pieces, List.cons_append, List.length_cons, cut, ← List.cons_append, length,
      List.length_cons]
    simp only
    rw [← List.length_cons (a := b), List.take_left, List.drop_left]
    exact congrArg _ (cut_congr (by rw [List.length_append]; omega) (Nat.le_refl _))

theorem isRune_of_mem_cut {fuel : Nat} {s r : Bytes} (member : .rune r ∈ cut fuel s) :
    isRune r := by
  induction fuel generalizing s with
  | zero => cases s <;> cases member
  | succ fuel ih =>
    cases s with
    | nil => cases member
    | cons b rest =>
      rw [cut] at member
      split at member
      · obtain same | later := List.mem_cons.mp member
        · cases same
        · exact ih later
      · rename_i n begins
        obtain same | later := List.mem_cons.mp member
        · obtain ⟨r', rest', whole, rune, length⟩ := runeLength_cases begins
          obtain rfl := Piece.rune.inj same
          rwa [whole, ← length, List.take_left]
        · exact ih later

theorem isRune_of_mem_pieces {s r : Bytes} (member : .rune r ∈ pieces s) : isRune r :=
  isRune_of_mem_cut member

end Utf8
