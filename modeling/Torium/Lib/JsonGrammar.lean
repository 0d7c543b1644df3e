import Torium.Lib.JsonTree

/-!
# The grammar of JSON texts

`Derives` relates phrases of the grammar to texts. An element is a value with white space around it,
and a whole text is an element. A phrase carries the tree that its text stands for,
with the names of members decoded and all members kept.
-/

namespace JsonTree

def unit (c : Char) : UInt16 := UInt16.ofNat c.toNat

/-! ## Tokens -/

def isWhitespace (u : UInt16) : Bool := u == 32 || u == 9 || u == 10 || u == 13

def isDigit (u : UInt16) : Bool := 48 ≤ u && u ≤ 57

def hexValue? (u : UInt16) : Option UInt16 :=
  if isDigit u then some (u - 48)
  else if 97 ≤ u ∧ u ≤ 102 then some (u - 87)
  else if 65 ≤ u ∧ u ≤ 70 then some (u - 55)
  else none

/-- The code unit that a letter after a backslash stands for. -/
def escaped? (u : UInt16) : Option UInt16 :=
  [(34, 34), (92, 92), (47, 47), (98, 8), (102, 12), (110, 10), (114, 13), (116, 9)].lookup u

/-- The four digits of an escaped code unit. -/
def codeUnit? (a b c d : UInt16) : Option UInt16 := do
  return (((← hexValue? a) * 16 + (← hexValue? b)) * 16 + (← hexValue? c)) * 16 + (← hexValue? d)

/-- What stands between the quotes of a string, decoded. -/
def decodeBody : JsString → Option JsString
  | [] => some []
  | 92 :: 117 :: a :: b :: c :: d :: rest => do return (← codeUnit? a b c d) :: (← decodeBody rest)
  | 92 :: letter :: rest => do return (← escaped? letter) :: (← decodeBody rest)
  | u :: rest => if u < 32 ∨ u = 34 ∨ u = 92 then none else do return u :: (← decodeBody rest)

/-- One or more digits. -/
def Digits (raw : JsString) : Prop := raw ≠ [] ∧ raw.all isDigit

def IsInteger (raw : JsString) : Prop :=
  raw = [48] ∨ ∃ first rest, raw = first :: rest ∧ isDigit first ∧ first ≠ 48 ∧ rest.all isDigit

def IsFraction (raw : JsString) : Prop := raw = [] ∨ ∃ digits, raw = 46 :: digits ∧ Digits digits

def IsExponent (raw : JsString) : Prop :=
  raw = [] ∨ ∃ letter sign digits, raw = letter :: (sign ++ digits) ∧ (letter = 101 ∨ letter = 69) ∧
    (sign = [] ∨ sign = [43] ∨ sign = [45]) ∧ Digits digits

/-- A number: its sign, digits, fraction and exponent. -/
def IsNumber (raw : JsString) : Prop :=
  ∃ sign integer fraction exponent, raw = sign ++ integer ++ fraction ++ exponent ∧
    (sign = [] ∨ sign = [45]) ∧ IsInteger integer ∧ IsFraction fraction ∧ IsExponent exponent

/-! ## Phrases -/

/-- Trees whose numbers are kept as they are written. -/
abbrev Tree : Type := Plain JsString

inductive Phrase where
  | value (tree : Tree)
  | element (tree : Tree)
  | elements (trees : List Tree)
  | member (entry : JsString × Tree)
  | members (entries : List (JsString × Tree))

def Space (text : JsString) : Prop := ∀ u ∈ text, isWhitespace u

def quoted (body : JsString) : JsString := unit '"' :: (body ++ [unit '"'])

inductive Derives : Phrase → JsString → Prop where
  | null : Derives (.value .null) (units "null".toList)
  | true : Derives (.value (.bool true)) (units "true".toList)
  | false : Derives (.value (.bool false)) (units "false".toList)
  | number {raw : JsString} : IsNumber raw → Derives (.value (.number raw)) raw
  | string {body decoded : JsString} : decodeBody body = some decoded →
      Derives (.value (.string decoded)) (quoted body)
  | emptyArray {space : JsString} : Space space →
      Derives (.value (.array [])) (unit '[' :: (space ++ [unit ']']))
  | array {trees : List Tree} {text : JsString} : Derives (.elements trees) text →
      Derives (.value (.array trees)) (unit '[' :: (text ++ [unit ']']))
  | emptyObject {space : JsString} : Space space →
      Derives (.value (.object [])) (unit '\x7b' :: (space ++ [unit '\x7d']))
  | object {entries : List (JsString × Tree)} {text : JsString} : Derives (.members entries) text →
      Derives (.value (.object entries)) (unit '\x7b' :: (text ++ [unit '\x7d']))
  | element {tree : Tree} {before text after : JsString} : Space before → Space after →
      Derives (.value tree) text → Derives (.element tree) (before ++ (text ++ after))
  | lastElement {tree : Tree} {text : JsString} : Derives (.element tree) text →
      Derives (.elements [tree]) text
  | nextElement {tree : Tree} {trees : List Tree} {text rest : JsString} :
      Derives (.element tree) text → Derives (.elements trees) rest →
      Derives (.elements (tree :: trees)) (text ++ unit ',' :: rest)
  | member {name body before after text : JsString} {tree : Tree} : Space before → Space after →
      decodeBody body = some name → Derives (.element tree) text →
      Derives (.member (name, tree)) (before ++ (quoted body ++ (after ++ unit ':' :: text)))
  | lastMember {entry : JsString × Tree} {text : JsString} : Derives (.member entry) text →
      Derives (.members [entry]) text
  | nextMember {entry : JsString × Tree} {entries : List (JsString × Tree)} {text rest : JsString} :
      Derives (.member entry) text → Derives (.members entries) rest →
      Derives (.members (entry :: entries)) (text ++ unit ',' :: rest)

end JsonTree
