import Mathlib.Logic.Function.Iterate

/-!
# Linear shift registers

A register is fed with one word after another. Between two words it goes through a map that is
linear in exclusive or, so two states move on independently of the words: what is fed later
cannot cancel a difference that the map never sends to zero.
-/

/-- The map of a register between two words. -/
structure ShiftRegister (w : Nat) where
  next : BitVec w → BitVec w
  linear : ∀ x y, next (x ^^^ y) = next x ^^^ next y

namespace ShiftRegister

variable {w : Nat} (register : ShiftRegister w)
variable {state difference : BitVec w} {words : List (BitVec w)}

/-- The state after the words. -/
def feed (state : BitVec w) (words : List (BitVec w)) : BitVec w :=
  words.foldl (fun state word => register.next state ^^^ word) state

@[simp] theorem feed_cons (word : BitVec w) :
    register.feed state (word :: words) = register.feed (register.next state ^^^ word) words := rfl

theorem feed_append (others : List (BitVec w)) :
    register.feed state (words ++ others) = register.feed (register.feed state words) others :=
  List.foldl_append

/-- A difference between two states goes through the map once for each word. -/
theorem feed_xor : register.feed (state ^^^ difference) words =
    register.feed state words ^^^ register.next^[words.length] difference := by
  induction words generalizing state difference with
  | nil => rfl
  | cons word words ih =>
    have moved : register.next (state ^^^ difference) ^^^ word =
        register.next state ^^^ word ^^^ register.next difference := by
      rw [register.linear, BitVec.xor_assoc, BitVec.xor_comm _ word, ← BitVec.xor_assoc]
    rw [feed_cons, moved, ih, feed_cons, List.length_cons, Function.iterate_succ_apply]

theorem feed_zeros (count : Nat) :
    register.feed state (List.replicate count 0#w) = register.next^[count] state := by
  induction count generalizing state with
  | zero => rfl
  | succ count ih =>
    rw [List.replicate_succ, feed_cons, BitVec.xor_zero, ih, Function.iterate_succ_apply]

/-- Words and the state they are fed to contribute independently. -/
theorem feed_eq_xor : register.feed state words =
    register.feed state (List.replicate words.length 0#w) ^^^ register.feed 0#w words := by
  have moved : register.feed (0#w ^^^ state) words =
      register.feed 0#w words ^^^ register.next^[words.length] state := register.feed_xor
  rwa [BitVec.zero_xor, BitVec.xor_comm, ← feed_zeros] at moved

section Detection

variable {valid : BitVec w → Prop}
  (closed : ∀ x, valid x → valid (register.next x))
  (kernel : ∀ x, valid x → register.next x = 0#w → x = 0#w)

include closed kernel in
theorem iterate_ne_zero (holds : valid difference) (nonzero : difference ≠ 0#w) (count : Nat) :
    register.next^[count] difference ≠ 0#w := by
  induction count generalizing difference with
  | zero => exact nonzero
  | succ count ih =>
    rw [Function.iterate_succ_apply]
    exact ih (closed _ holds) fun zero => nonzero (kernel _ holds zero)

include closed kernel in
/-- A difference between two states is seen after any words. -/
theorem feed_ne (holds : valid difference) (nonzero : difference ≠ 0#w) :
    register.feed (state ^^^ difference) words ≠ register.feed state words := by
  rw [feed_xor]
  intro same
  refine register.iterate_ne_zero closed kernel holds nonzero words.length ?_
  exact (BitVec.xor_right_inj _).mp (same.trans BitVec.xor_zero.symm)

variable {before after : List (BitVec w)} {word other : BitVec w}

include closed kernel in
/-- Another word in one place is seen. -/
theorem feed_substitute_ne (holds : valid (word ^^^ other)) (differ : word ≠ other) :
    register.feed state (before ++ other :: after) ≠
      register.feed state (before ++ word :: after) := by
  rw [feed_append, feed_append, feed_cons, feed_cons]
  have moved : register.next (register.feed state before) ^^^ other =
      register.next (register.feed state before) ^^^ word ^^^ (word ^^^ other) := by
    rw [BitVec.xor_assoc, ← BitVec.xor_assoc word, BitVec.xor_self, BitVec.zero_xor]
  rw [moved]
  exact register.feed_ne closed kernel holds fun zero => differ (BitVec.xor_eq_zero_iff.mp zero)

include closed kernel in
/-- Two neighbouring words in the other order are seen, if the map does not fix their
difference. -/
theorem feed_swap_ne (holds : valid (register.next (word ^^^ other) ^^^ (word ^^^ other)))
    (moves : register.next (word ^^^ other) ≠ word ^^^ other) :
    register.feed state (before ++ other :: word :: after) ≠
      register.feed state (before ++ word :: other :: after) := by
  rw [feed_append, feed_append, feed_cons, feed_cons, feed_cons, feed_cons]
  have moved : register.next (register.next (register.feed state before) ^^^ other) ^^^ word =
      register.next (register.next (register.feed state before) ^^^ word) ^^^ other ^^^
        (register.next (word ^^^ other) ^^^ (word ^^^ other)) := by
    simp only [register.linear]
    generalize register.next (register.next (register.feed state before)) = carried
    generalize register.next word = moved
    generalize register.next other = moved'
    have cancel : moved ^^^ moved = 0#w := BitVec.xor_self
    have cancel' : other ^^^ other = 0#w := BitVec.xor_self
    calc carried ^^^ moved' ^^^ word
        = carried ^^^ moved' ^^^ word ^^^ (moved ^^^ moved) ^^^ (other ^^^ other) := by
          rw [cancel, cancel', BitVec.xor_zero, BitVec.xor_zero]
      _ = _ := by ac_rfl
  rw [moved]
  exact register.feed_ne closed kernel holds fun zero => moves (BitVec.xor_eq_zero_iff.mp zero)

end Detection

end ShiftRegister
