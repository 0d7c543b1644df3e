import Torium.Evm.Basic

/-!
# Static ABI encoding

All values that are hashed on chain are encoded by `abi.encode` from static
types, so an encoding is the concatenation of the 32-byte big-endian words of
its arguments. Shorter types are zero-extended to a word. The encoding of a list
of words is injective; the hash function is a parameter about which nothing is
assumed here.
-/

namespace Evm

abbrev Byte : Type := BitVec 8

abbrev Bytes : Type := List Byte

/-- The big-endian bytes of one word. -/
def wordBytes (w : Word) : List Byte :=
  (List.range 32).map fun i => w.extractLsb' (8 * (31 - i)) 8

@[simp] theorem wordBytes_length (w : Word) : (wordBytes w).length = 32 := by
  simp [wordBytes]

/-- Bit `j` of a word stands in byte `31 - j / 8` of its encoding. -/
theorem getLsbD_wordBytes (w : Word) {j : Nat} (hj : j < 256) :
    ((wordBytes w).getD (31 - j / 8) 0).getLsbD (j % 8) = w.getLsbD j := by
  have position : 31 - j / 8 < 32 := by omega
  have offset : 8 * (31 - (31 - j / 8)) + j % 8 = j := by omega
  have bit : j % 8 < 8 := by omega
  simp [wordBytes, List.getD_eq_getElem?_getD, List.getElem?_map, List.getElem?_range position,
    offset, bit]

theorem wordBytes_injective : Function.Injective wordBytes := by
  intro v w same
  apply BitVec.eq_of_getLsbD_eq
  intro j hj
  rw [← getLsbD_wordBytes v hj, same, getLsbD_wordBytes w hj]

/-- `abi.encode` of static arguments, each already widened to a word. -/
def abiEncode (words : List Word) : List Byte := words.flatMap wordBytes

@[simp] theorem abiEncode_length (words : List Word) :
    (abiEncode words).length = 32 * words.length := by
  induction words with
  | nil => rfl
  | cons w words ih =>
    simp only [abiEncode, List.flatMap_cons, List.length_append, wordBytes_length] at ih ⊢
    simp only [ih, List.length_cons]
    omega

theorem abiEncode_injective : Function.Injective abiEncode := by
  intro xs
  induction xs with
  | nil =>
    intro ys same
    have length := congrArg List.length same
    simp only [abiEncode_length, List.length_nil] at length
    exact (List.length_eq_zero_iff.mp (by omega)).symm
  | cons x xs ih =>
    intro ys same
    cases ys with
    | nil =>
      have length := congrArg List.length same
      simp at length
    | cons y ys =>
      obtain ⟨first, rest⟩ := List.append_inj same (by simp)
      rw [wordBytes_injective first, ih rest]

/-- The hash function of the chain. -/
class Keccak where
  keccak256 : List Byte → Bytes32

export Keccak (keccak256)

/-- A computable stand-in for the hash function, for concrete runs. -/
@[reducible] def Keccak.rolling : Keccak :=
  ⟨fun bytes => BitVec.ofNat 256 (bytes.foldl (fun acc b => 31 * acc + b.toNat + 1) 7)⟩

/-- No two different encodings among those listed have the same hash. -/
def CollisionFree [Keccak] (hashed : List (List Byte)) : Prop :=
  ∀ x ∈ hashed, ∀ y ∈ hashed, keccak256 x = keccak256 y → x = y

instance [Keccak] (hashed : List (List Byte)) : Decidable (CollisionFree hashed) :=
  inferInstanceAs (Decidable (∀ x ∈ hashed, ∀ y ∈ hashed, keccak256 x = keccak256 y → x = y))

theorem CollisionFree.mono [Keccak] {hashed hashed' : List (List Byte)}
    (free : CollisionFree hashed') (included : hashed ⊆ hashed') : CollisionFree hashed :=
  fun x hx y hy => free x (included hx) y (included hy)

end Evm
