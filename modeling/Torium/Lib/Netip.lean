import Mathlib.Data.BitVec

/-!
# Network addresses

The addresses and address ranges of the standard library's package `netip`. An address of version
6 may name a zone. An address of version 4 can also be written as an address of version 6, and is
then a different value until it is unmapped.
-/

namespace Netip

inductive Addr where
  | zero
  | v4 (bits : BitVec 32)
  | v6 (bits : BitVec 128) (zone : List UInt8)
  deriving DecidableEq

namespace Addr

def is6 : Addr → Bool
  | v6 _ _ => true
  | _ => false

def is4In6 : Addr → Bool
  | v6 bits _ => bits.extractLsb' 32 96 == 0xffff#96
  | _ => false

/-- The version 4 address that a version 6 address stands for; any other address is unchanged. -/
def unmap (address : Addr) : Addr :=
  match address with
  | v6 bits _ => if address.is4In6 then v4 (bits.extractLsb' 0 32) else address
  | _ => address

def bitLen : Addr → Nat
  | zero => 0
  | v4 _ => 32
  | v6 _ _ => 128

def withoutZone : Addr → Addr
  | v6 bits _ => v6 bits []
  | address => address

/-- The version 6 form of a version 4 address. -/
def mapped (bits : BitVec 32) (zone : List UInt8) : Addr :=
  v6 (0xffff#96 ++ bits) zone

@[simp] theorem unmap_v4 (bits : BitVec 32) : (v4 bits).unmap = v4 bits := rfl

@[simp] theorem unmap_mapped (bits : BitVec 32) (zone : List UInt8) :
    (mapped bits zone).unmap = v4 bits := by
  have high : (mapped bits zone).is4In6 = true :=
    beq_iff_eq.mpr BitVec.extractLsb'_append_eq_left
  rw [mapped, unmap, ← mapped, if_pos high, BitVec.extractLsb'_append_eq_right]

end Addr

/-- The bits of a number of a given width from the highest on, the others cleared. -/
def keepHigh {w : Nat} (bits : BitVec w) (n : Nat) : BitVec w :=
  (bits >>> (w - n)) <<< (w - n)

/-- A range of addresses. The number of leading bits is missing in a range that is not valid. -/
structure Prefix where
  addr : Addr
  bits : Option Nat
  deriving DecidableEq

def Prefix.from (address : Addr) (bits : Nat) : Prefix where
  addr := address.withoutZone
  bits := if address ≠ .zero ∧ bits ≤ address.bitLen then some bits else none

/-- The range of the addresses that share the leading bits. -/
def Addr.range (address : Addr) (bits : Nat) : Option Prefix :=
  match address with
  | .zero => some ⟨.zero, none⟩
  | .v4 value => if 32 < bits then none else some (.from (.v4 (keepHigh value bits)) bits)
  | .v6 value zone =>
    if 128 < bits then none else some (.from (.v6 (keepHigh value bits) zone) bits)

def Prefix.contains (range : Prefix) (address : Addr) : Bool :=
  match range.bits, range.addr, address with
  | some bits, .v4 network, .v4 value => keepHigh network bits == keepHigh value bits
  | some bits, .v6 network _, .v6 value zone =>
    zone.isEmpty && keepHigh network bits == keepHigh value bits
  | _, _, _ => false

end Netip
