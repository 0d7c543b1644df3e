import Torium.Lib.JsonString

/-!
# The syntax of JSON

`parse` reads a JSON text into a tree. Strings and numbers stay as they are written, and the
members of an object stay in their order, equal names included: what they mean is decided by who
reads the tree. Arrays and objects may be nested to a limited depth.
-/

namespace Json

open Utf8

inductive Value where
  | null
  | bool (b : Bool)
  | number (raw : Bytes)
  | string (raw : Bytes)
  | array (elements : List Value)
  | object (members : List (Bytes × Value))

/-- How deep arrays and objects may be nested. -/
def maxNestingDepth : Nat := 10000

/-! ## Tokens -/

def isSpace (b : UInt8) : Bool := b = 32 || b = 9 || b = 10 || b = 13

def skip (s : Bytes) : Bytes := s.dropWhile isSpace

def isDigit (b : UInt8) : Bool := 48 ≤ b && b ≤ 57

def isHex (b : UInt8) : Bool := (hexValue? b).isSome

/-- The characters that may follow a backslash, `u` apart. -/
def isEscape (b : UInt8) : Bool :=
  b = 34 || b = 92 || b = 47 || b = 98 || b = 102 || b = 110 || b = 114 || b = 116

/-- A string after its opening quote: what stands before the closing one, and the rest. -/
def scanString : Bytes → Option (Bytes × Bytes)
  | [] => none
  | 34 :: rest => some ([], rest)
  | 92 :: 117 :: a :: b :: c :: d :: rest =>
    if isHex a && isHex b && isHex c && isHex d then
      (scanString rest).map fun (raw, rest) => (92 :: 117 :: a :: b :: c :: d :: raw, rest)
    else none
  | 92 :: b :: rest =>
    if isEscape b then (scanString rest).map fun (raw, rest) => (92 :: b :: raw, rest) else none
  | b :: rest =>
    if b < 32 then none else (scanString rest).map fun (raw, rest) => (b :: raw, rest)

/-- The whole part of a number; a zero stands alone. -/
def scanInteger : Bytes → Option (Bytes × Bytes)
  | [] => none
  | b :: rest =>
    if b = 48 then some ([48], rest)
    else if isDigit b then some ((b :: rest).takeWhile isDigit, (b :: rest).dropWhile isDigit)
    else none

def scanFraction : Bytes → Option (Bytes × Bytes)
  | 46 :: rest =>
    if rest.takeWhile isDigit = [] then none
    else some (46 :: rest.takeWhile isDigit, rest.dropWhile isDigit)
  | rest => some ([], rest)

def scanSign : Bytes → Bytes × Bytes
  | 43 :: rest => ([43], rest)
  | 45 :: rest => ([45], rest)
  | rest => ([], rest)

def scanExponent : Bytes → Option (Bytes × Bytes)
  | [] => some ([], [])
  | b :: rest =>
    if b = 101 ∨ b = 69 then
      let (sign, rest) := scanSign rest
      if rest.takeWhile isDigit = [] then none
      else some (b :: sign ++ rest.takeWhile isDigit, rest.dropWhile isDigit)
    else some ([], b :: rest)

def scanUnsigned (s : Bytes) : Option (Bytes × Bytes) := do
  let (whole, s) ← scanInteger s
  let (fraction, s) ← scanFraction s
  let (exponent, s) ← scanExponent s
  pure (whole ++ fraction ++ exponent, s)

def scanNumber : Bytes → Option (Bytes × Bytes)
  | 45 :: rest => (scanUnsigned rest).map fun (raw, rest) => (45 :: raw, rest)
  | rest => scanUnsigned rest

/-! ## Values -/

section Items

variable {α : Type}

/-- Items with commas between them, up to the closing character; the fuel is the length. -/
def items (item : Bytes → Option (α × Bytes)) (close : UInt8) :
    Nat → Bytes → Option (List α × Bytes)
  | 0, _ => none
  | fuel + 1, s => do
      let (first, rest) ← item s
      match skip rest with
      | [] => none
      | b :: rest =>
        if b = 44 then do
          let (others, rest) ← items item close fuel rest
          pure (first :: others, rest)
        else if b = close then pure ([first], rest)
        else none

/-- A member of an object: a name and a value. -/
def member (value : Bytes → Option (α × Bytes)) (s : Bytes) : Option ((Bytes × α) × Bytes) :=
  match skip s with
  | 34 :: rest => do
      let (name, rest) ← scanString rest
      match skip rest with
      | 58 :: rest => do
          let (v, rest) ← value rest
          pure ((name, v), rest)
      | _ => none
  | _ => none

/-- What stands between an opening character and the closing one. -/
def group (item : Bytes → Option (α × Bytes)) (close : UInt8) (s : Bytes) :
    Option (List α × Bytes) :=
  match skip s with
  | [] => none
  | b :: rest =>
    if b = close then some ([], rest) else items item close (rest.length + 1) (b :: rest)

end Items

/-- A value, by a reader for the values in it. -/
def form (nested : Nat → Bytes → Option (Value × Bytes)) (depth : Nat) (s : Bytes) :
    Option (Value × Bytes) :=
  match skip s with
  | 123 :: rest =>
    match depth with
    | 0 => none
    | depth + 1 =>
      (group (member (nested depth)) 125 rest).map fun (members, rest) =>
        (.object members, rest)
  | 91 :: rest =>
    match depth with
    | 0 => none
    | depth + 1 =>
      (group (nested depth) 93 rest).map fun (elements, rest) => (.array elements, rest)
  | 34 :: rest => (scanString rest).map fun (raw, rest) => (.string raw, rest)
  | 116 :: 114 :: 117 :: 101 :: rest => some (.bool true, rest)
  | 102 :: 97 :: 108 :: 115 :: 101 :: rest => some (.bool false, rest)
  | 110 :: 117 :: 108 :: 108 :: rest => some (.null, rest)
  | rest => (scanNumber rest).map fun (raw, rest) => (.number raw, rest)

/-- A value; the fuel is more than the length. -/
def value : Nat → Nat → Bytes → Option (Value × Bytes)
  | 0 => fun _ _ => none
  | fuel + 1 => form (value fuel)

/-- A text that is one value. -/
def parse (s : Bytes) : Option Value := do
  let (v, rest) ← value (s.length + 1) maxNestingDepth s
  if skip rest = [] then some v else none

end Json
