import Mathlib.Data.Nat.Digits.Lemmas

/-!
# Groups of bits

A list of words that each hold a group of bits stands for one number. Groups are shifted into a
register and out of it; the lemmas say what the register holds after each, so that the number is
the same before and after its bits are grouped differently.
-/

namespace BitGroups

variable {w bits count : Nat} {groups others : List (BitVec w)}

/-- The number whose bits are the groups, the first group at the top. -/
def number (bits : Nat) (groups : List (BitVec w)) : Nat :=
  Nat.ofDigits (2 ^ bits) (groups.reverse.map BitVec.toNat)

/-- Every group has the given number of bits. -/
def Fits (bits : Nat) (groups : List (BitVec w)) : Prop :=
  ∀ group ∈ groups, group.toNat < 2 ^ bits

theorem fits_append : Fits bits (groups ++ others) ↔ Fits bits groups ∧ Fits bits others :=
  List.forall_mem_append

theorem fits_singleton {group : BitVec w} : Fits bits [group] ↔ group.toNat < 2 ^ bits :=
  List.forall_mem_singleton

theorem Fits.digit_lt (fits : Fits bits groups) :
    ∀ digit ∈ groups.reverse.map BitVec.toNat, digit < 2 ^ bits := by
  intro digit member
  obtain ⟨group, inside, rfl⟩ := List.mem_map.mp member
  exact fits group (List.mem_reverse.mp inside)

@[simp] theorem number_nil : number bits ([] : List (BitVec w)) = 0 := rfl

theorem number_append_singleton (group : BitVec w) :
    number bits (groups ++ [group]) = number bits groups * 2 ^ bits + group.toNat := by
  rw [number, List.reverse_append, List.reverse_singleton, List.singleton_append, List.map_cons,
    Nat.ofDigits_cons, number, Nat.mul_comm, Nat.add_comm]

theorem number_injective (positive : 0 < bits) (fits : Fits bits groups) (fits' : Fits bits others)
    (length : groups.length = others.length) (same : number bits groups = number bits others) :
    groups = others := by
  have digits := Nat.ofDigits_inj_of_len_eq (Nat.one_lt_two_pow positive.ne')
    (by simpa using length) fits.digit_lt fits'.digit_lt same
  exact List.reverse_injective
    (List.map_injective_iff.mpr (fun _ _ => BitVec.eq_of_toNat_eq) digits)

theorem number_lt (positive : 0 < bits) (fits : Fits bits groups) :
    number bits groups < 2 ^ (bits * groups.length) := by
  rw [Nat.pow_mul, number]
  exact (Nat.ofDigits_lt_base_pow_length (Nat.one_lt_two_pow positive.ne') fits.digit_lt).trans_eq
    (by rw [List.length_map, List.length_reverse])

theorem toNat_lowBits (fits : bits < w) : (1#w <<< bits - 1#w).toNat = 2 ^ bits - 1 := by
  have one : 1 < 2 ^ w := Nat.one_lt_two_pow (by omega)
  have small : 2 ^ bits < 2 ^ w := Nat.pow_lt_pow_right (by decide) fits
  have low : 1 ≤ 2 ^ bits := Nat.one_le_two_pow
  rw [BitVec.toNat_sub, BitVec.toNat_shiftLeft, BitVec.toNat_ofNat, Nat.mod_eq_of_lt one,
    Nat.shiftLeft_eq, Nat.one_mul, Nat.mod_eq_of_lt small]
  have regroup : 2 ^ w - 1 + 2 ^ bits = 2 ^ w + (2 ^ bits - 1) := by omega
  rw [regroup, Nat.add_mod_left, Nat.mod_eq_of_lt (by omega)]

/-- The low bits of a register. -/
theorem toNat_and_lowBits (register : BitVec w) (fits : bits < w) :
    (register &&& (1#w <<< bits - 1#w)).toNat = register.toNat % 2 ^ bits := by
  rw [BitVec.toNat_and, toNat_lowBits fits, Nat.and_two_pow_sub_one_eq_mod]

section Register

variable {register group : BitVec w} {kept : Nat}

/-- A register into which a group was shifted, cut to its low bits. -/
theorem toNat_shiftIn (small : group.toNat < 2 ^ bits) (room : register.toNat * 2 ^ bits < 2 ^ w)
    (fits : kept < w) :
    ((register <<< bits ||| group) &&& (1#w <<< kept - 1#w)).toNat =
      (register.toNat * 2 ^ bits + group.toNat) % 2 ^ kept := by
  rw [toNat_and_lowBits _ fits, BitVec.toNat_or, BitVec.toNat_shiftLeft, Nat.shiftLeft_eq,
    Nat.mod_eq_of_lt room, ← Nat.shiftLeft_eq, ← Nat.shiftLeft_add_eq_or_of_lt small]

/-- The bits that count after a group was shifted in. -/
theorem mod_shiftIn (small : group.toNat < 2 ^ bits) (room : register.toNat * 2 ^ bits < 2 ^ w)
    (fits : kept < w) (enough : count + bits ≤ kept) :
    ((register <<< bits ||| group) &&& (1#w <<< kept - 1#w)).toNat % 2 ^ (count + bits) =
      register.toNat % 2 ^ count * 2 ^ bits + group.toNat := by
  rw [toNat_shiftIn small room fits, Nat.mod_mod_of_dvd _ (Nat.pow_dvd_pow 2 enough),
    Nat.add_comm count, Nat.pow_add, Nat.mod_mul, Nat.add_comm (register.toNat * 2 ^ bits),
    Nat.add_mul_mod_self_right, Nat.mod_eq_of_lt small,
    Nat.add_mul_div_right _ _ (Nat.two_pow_pos bits), Nat.div_eq_of_lt small, Nat.zero_add,
      Nat.add_comm, Nat.mul_comm]

/-- The bits that count before a group is taken out, by the group and the bits that stay. -/
theorem mod_shiftOut (register : BitVec w) (fits : bits < w) :
    register.toNat % 2 ^ (count + bits) =
      (register >>> count &&& (1#w <<< bits - 1#w)).toNat * 2 ^ count +
        register.toNat % 2 ^ count := by
  rw [toNat_and_lowBits _ fits, BitVec.toNat_ushiftRight, Nat.shiftRight_eq_div_pow, Nat.pow_add,
    Nat.mod_mul, Nat.add_comm, Nat.mul_comm]

end Register

end BitGroups
