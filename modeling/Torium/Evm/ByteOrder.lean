import Torium.Evm.Abi

/-!
# Byte order

Off-chain code compares hashes byte by byte, the contracts compare them as
unsigned words. Both orders are the same, because the bytes of a word come with
the most significant one first.
-/

namespace Evm

/-- The comparison of two buffers: the first different byte decides. -/
def compareBytes : List Byte → List Byte → Ordering
  | [], [] => .eq
  | [], _ :: _ => .lt
  | _ :: _, [] => .gt
  | x :: xs, y :: ys => if x < y then .lt else if y < x then .gt else compareBytes xs ys

/-- The number with the given big-endian bytes. -/
def bytesValue : List Byte → Nat
  | [] => 0
  | x :: xs => x.toNat * 256 ^ xs.length + bytesValue xs

theorem bytesValue_lt (xs : List Byte) : bytesValue xs < 256 ^ xs.length := by
  induction xs with
  | nil => exact Nat.one_pos
  | cons x xs ih =>
    have byte : x.toNat ≤ 255 := Nat.le_of_lt_succ x.isLt
    calc x.toNat * 256 ^ xs.length + bytesValue xs
      _ < x.toNat * 256 ^ xs.length + 256 ^ xs.length := Nat.add_lt_add_left ih _
      _ ≤ 255 * 256 ^ xs.length + 256 ^ xs.length :=
          Nat.add_le_add_right (Nat.mul_le_mul_right _ byte) _
      _ = 256 ^ (x :: xs).length := by rw [List.length_cons, Nat.pow_succ]; omega

/-- A smaller first byte outweighs everything after it. -/
theorem value_lt_of_first {x y : Byte} {xs ys : List Byte} (lengths : xs.length = ys.length)
    (less : x < y) : bytesValue (x :: xs) < bytesValue (y :: ys) := by
  have bound := bytesValue_lt xs
  have step : (x.toNat + 1) * 256 ^ ys.length ≤ y.toNat * 256 ^ ys.length :=
    Nat.mul_le_mul_right _ (BitVec.lt_def.mp less)
  rw [Nat.succ_mul] at step
  rw [bytesValue, bytesValue, lengths]
  rw [lengths] at bound
  omega

theorem compareBytes_eq_compare {xs ys : List Byte} (lengths : xs.length = ys.length) :
    compareBytes xs ys = compare (bytesValue xs) (bytesValue ys) := by
  induction xs generalizing ys with
  | nil =>
    obtain rfl := List.length_eq_zero_iff.mp lengths.symm
    rfl
  | cons x xs ih =>
    cases ys with
    | nil => exact absurd lengths (Nat.succ_ne_zero _)
    | cons y ys =>
      have rest : xs.length = ys.length := Nat.succ.inj lengths
      rw [compareBytes]
      split
      · rename_i less
        exact (Nat.compare_eq_lt.mpr (value_lt_of_first rest less)).symm
      · split
        · rename_i greater
          exact (Nat.compare_eq_gt.mpr (value_lt_of_first rest.symm greater)).symm
        · rename_i notLess notGreater
          obtain rfl : x = y := by
            rw [BitVec.lt_def] at notLess notGreater
            exact BitVec.eq_of_toNat_eq (by omega)
          rw [ih rest, bytesValue, bytesValue, rest]
          simp only [Nat.compare_eq_ite_lt, Nat.add_lt_add_iff_left]

/-- The low bytes of a word, most significant first. -/
theorem bytesValue_low (w : Word) (n : Nat) :
    bytesValue ((List.range n).map fun i => w.extractLsb' (8 * (n - 1 - i)) 8) =
      w.toNat % 256 ^ n := by
  induction n with
  | zero => simp [bytesValue, Nat.mod_one]
  | succ n ih =>
    rw [List.range_succ_eq_map, List.map_cons, List.map_map, bytesValue]
    have rest : (List.range n).map ((fun i => w.extractLsb' (8 * (n + 1 - 1 - i)) 8) ∘ Nat.succ) =
        (List.range n).map fun i => w.extractLsb' (8 * (n - 1 - i)) 8 := by
      refine List.map_congr_left fun i _ => ?_
      rw [Function.comp_apply, show n + 1 - 1 - i.succ = n - 1 - i by omega]
    have high : (w.extractLsb' (8 * (n + 1 - 1 - 0)) 8).toNat = w.toNat / 256 ^ n % 256 := by
      rw [BitVec.extractLsb'_toNat, Nat.shiftRight_eq_div_pow, Nat.add_sub_cancel, Nat.sub_zero,
        Nat.pow_mul]
    rw [rest, ih, high, List.length_map, List.length_range, Nat.pow_succ, Nat.mod_mul,
      Nat.mul_comm (256 ^ n)]
    omega

theorem bytesValue_wordBytes (w : Word) : bytesValue (wordBytes w) = w.toNat := by
  have low := bytesValue_low w 32
  rw [Nat.mod_eq_of_lt (show w.toNat < 256 ^ 32 from w.isLt)] at low
  exact low

/-- Comparing the bytes of two words compares the words. -/
theorem compareBytes_wordBytes (v w : Word) :
    compareBytes (wordBytes v) (wordBytes w) = compare v.toNat w.toNat := by
  rw [compareBytes_eq_compare (by simp), bytesValue_wordBytes, bytesValue_wordBytes]

end Evm
