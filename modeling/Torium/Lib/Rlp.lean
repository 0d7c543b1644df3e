import Mathlib.Data.Nat.Digits.Lemmas

/-!
# Recursive length prefixes

An item is a string of bytes or a list of items. It is encoded behind a header with its length,
which takes one byte up to a payload of 55 bytes and grows with the payload afterwards. The
lemmas bound the length of an encoding by the lengths of its parts.
-/

/-- An item of the encoding. -/
inductive Rlp where
  | bytes (content : List (BitVec 8))
  | list (items : List Rlp)

namespace Rlp

variable {n m : Nat}

/-- The bytes of a number without leading zeros, the most significant one first. -/
def natBytes (n : Nat) : List (BitVec 8) := (Nat.digits 256 n).reverse.map (BitVec.ofNat 8)

/-- The header of a payload of the given length. -/
def header (offset length : Nat) : List (BitVec 8) :=
  if length ≤ 55 then [BitVec.ofNat 8 (offset + length)]
  else BitVec.ofNat 8 (offset + 55 + (natBytes length).length) :: natBytes length

def encodeBytes (content : List (BitVec 8)) : List (BitVec 8) :=
  match content with
  | [single] => if single.toNat < 0x80 then [single] else header 0x80 1 ++ [single]
  | content => header 0x80 content.length ++ content

mutual

def encode : Rlp → List (BitVec 8)
  | .bytes content => encodeBytes content
  | .list items => header 0xc0 (encodeAll items).length ++ encodeAll items

/-- The encodings of the items, one after the other. -/
def encodeAll : List Rlp → List (BitVec 8)
  | [] => []
  | item :: items => encode item ++ encodeAll items

end

/-- A number as an item. -/
def nat (n : Nat) : Rlp := .bytes (natBytes n)

theorem length_natBytes_le (below : n < 256 ^ m) : (natBytes n).length ≤ m := by
  rw [natBytes, List.length_map, List.length_reverse]
  exact (Nat.digits_length_le_iff (by decide) n).mpr below

theorem length_natBytes_mono (smaller : n ≤ m) : (natBytes n).length ≤ (natBytes m).length := by
  rw [natBytes, natBytes, List.length_map, List.length_reverse, List.length_map,
    List.length_reverse]
  exact Nat.le_length_digits_le 256 n m smaller

/-- A longer payload has no shorter header. -/
theorem length_header_mono (offset : Nat) (smaller : n ≤ m) :
    (header offset n).length ≤ (header offset m).length := by
  rw [header, header]
  split_ifs with short short'
  · exact le_rfl
  · exact Nat.le_add_left 1 _
  · omega
  · exact Nat.succ_le_succ (length_natBytes_mono smaller)

theorem length_encodeBytes_le {content : List (BitVec 8)} (short : content.length ≤ 55) :
    (encodeBytes content).length ≤ content.length + 1 := by
  unfold encodeBytes
  split
  · split_ifs <;> simp [header]
  · rw [List.length_append, header, if_pos short, List.length_singleton, Nat.add_comm]

/-- A list of items is encoded in no more bytes than one whose items take as many bytes. -/
theorem length_encode_list_mono {items others : List Rlp}
    (smaller : (encodeAll items).length ≤ (encodeAll others).length) :
    (encode (.list items)).length ≤ (encode (.list others)).length := by
  rw [encode, encode, List.length_append, List.length_append]
  exact Nat.add_le_add (length_header_mono _ smaller) smaller

theorem encodeAll_append (items others : List Rlp) :
    encodeAll (items ++ others) = encodeAll items ++ encodeAll others := by
  induction items with
  | nil => rfl
  | cons item items ih => rw [List.cons_append, encodeAll, encodeAll, ih, List.append_assoc]

/-- A number of at most 32 bytes takes at most 33. -/
theorem length_encode_nat_le {n : Nat} (below : n < 2 ^ 256) : (encode (nat n)).length ≤ 33 := by
  have short : (natBytes n).length ≤ 32 := length_natBytes_le (below.trans_eq (by norm_num))
  rw [nat, encode]
  exact (length_encodeBytes_le (by omega)).trans (by omega)

end Rlp
