import Mathlib.Algebra.Order.Ring.Nat
import Mathlib.Data.Fintype.EquivFin

/-!
# Words, addresses and reverting computations

Storage words and hashes are 256-bit vectors and addresses are 160-bit vectors.
Arithmetic on words is the checked arithmetic of Solidity 0.8: an operation that
leaves the range has no result, it does not wrap. A contract call is an `Except`
computation over the storage; an error means that the call reverted.
-/

namespace Evm

abbrev Word : Type := BitVec 256
abbrev Bytes32 : Type := BitVec 256
abbrev Address : Type := BitVec 160
abbrev Uint64 : Type := BitVec 64

instance : LawfulBEq Address := inferInstance

instance instFintypeBitVec (w : Nat) : Fintype (BitVec w) :=
  .ofEquiv (Fin (2 ^ w)) ⟨BitVec.ofFin, BitVec.toFin, fun _ => rfl, fun _ => rfl⟩

theorem toNat_widen (x : Uint64) : (x.setWidth 256 : Word).toNat = x.toNat :=
  BitVec.toNat_setWidth_of_le (by decide)

/-- Checked addition; `none` is the arithmetic panic. -/
def checkedAdd (a b : Word) : Option Word :=
  if a.toNat + b.toNat < 2 ^ 256 then some (a + b) else none

/-- Checked subtraction; `none` is the arithmetic panic. -/
def checkedSub (a b : Word) : Option Word :=
  if b.toNat ≤ a.toNat then some (a - b) else none

theorem checkedAdd_eq_some {a b c : Word} :
    checkedAdd a b = some c ↔ a.toNat + b.toNat = c.toNat := by
  rw [checkedAdd]
  split
  · rename_i fits
    rw [Option.some_inj, ← BitVec.toNat_inj, BitVec.toNat_add_of_lt fits]
  · have := c.isLt
    simp only [reduceCtorEq, false_iff]
    omega

theorem checkedSub_eq_some {a b c : Word} :
    checkedSub a b = some c ↔ c.toNat + b.toNat = a.toNat := by
  rw [checkedSub]
  split
  · rename_i le
    rw [Option.some_inj, ← BitVec.toNat_inj, BitVec.toNat_sub_of_le (by simpa [BitVec.le_def])]
    omega
  · simp only [reduceCtorEq, false_iff]
    omega

theorem checkedSub_isSome {a b : Word} (le : b.toNat ≤ a.toNat) :
    ∃ c, checkedSub a b = some c ∧ c.toNat + b.toNat = a.toNat :=
  ⟨a - b, if_pos le, checkedSub_eq_some.mp (if_pos le)⟩

section Revert

variable {ε α β : Type}

/-- The statement `if (condition) revert error;`. -/
def revertIf (condition : Prop) [Decidable condition] (error : ε) : Except ε Unit :=
  if condition then .error error else .ok ()

/-- The result of an operation that may panic. -/
def orRevert (error : ε) : Option α → Except ε α
  | some a => .ok a
  | none => .error error

@[simp] theorem revertIf_eq_ok {condition : Prop} [Decidable condition] {error : ε} {u : Unit} :
    revertIf condition error = .ok u ↔ ¬condition := by
  rw [revertIf]
  split <;> simp_all

@[simp] theorem orRevert_eq_ok {error : ε} {o : Option α} {a : α} :
    orRevert error o = .ok a ↔ o = some a := by
  cases o <;> simp [orRevert]

theorem bind_eq_ok {x : Except ε α} {f : α → Except ε β} {b : β} :
    (x >>= f) = .ok b ↔ ∃ a, x = .ok a ∧ f a = .ok b := by
  cases x with
  | error e => simp [bind, Except.bind]
  | ok a => simp [bind, Except.bind]

@[simp] theorem pure_eq_ok {a b : α} : (pure a : Except ε α) = .ok b ↔ a = b :=
  ⟨Except.ok.inj, congrArg _⟩

end Revert

end Evm
