import Mathlib.Algebra.Order.Field.Basic
import Mathlib.Tactic.FieldSimp
import Mathlib.Tactic.Linarith

/-!
# Token buckets

A bucket holds tokens up to a capacity and gains one token in each interval. It is filled when it
is looked at, up to the reading of the clock, and not at all if the clock has stepped back.

While all readings lie in a window, what has been taken and what is left never exceed the
capacity and what the part of the window up to the last filling is worth.
-/

namespace TokenBucket

variable {α : Type*} [Field α] [LinearOrder α] [IsStrictOrderedRing α]

/-- A window of readings, and the parameters of a bucket. -/
structure Window (α : Type*) where
  start : α
  length : α
  capacity : α
  interval : α

namespace Window

/-- The part of the window that lies before an instant. -/
def elapsed (w : Window α) (instant : α) : α := max 0 (min w.length (instant - w.start))

def Contains (w : Window α) (instant : α) : Prop :=
  w.start ≤ instant ∧ instant ≤ w.start + w.length

/-- What `count` tokens taken since the window began leave for the bucket. -/
structure Charged (w : Window α) (count : Nat) (tokens lastFill : α) : Prop where
  tokens_le : tokens ≤ w.capacity
  unused : lastFill < w.start → count = 0
  paid : count + tokens ≤ w.capacity + w.elapsed lastFill / w.interval

variable {w : Window α} {count : Nat} {tokens tokens' lastFill now : α}

omit [IsStrictOrderedRing α] in
theorem elapsed_nonneg : 0 ≤ w.elapsed lastFill := le_max_left _ _

omit [IsStrictOrderedRing α] in
theorem elapsed_le (nonneg : 0 ≤ w.length) : w.elapsed lastFill ≤ w.length :=
  max_le nonneg (min_le_left _ _)

theorem elapsed_of_contains (contains : w.Contains now) : w.elapsed now = now - w.start := by
  rw [elapsed, min_eq_right (sub_le_iff_le_add'.mpr contains.2),
    max_eq_right (sub_nonneg.mpr contains.1)]

namespace Charged

theorem of_unused (interval : 0 < w.interval) (tokens_le : tokens ≤ w.capacity) :
    w.Charged 0 tokens lastFill where
  tokens_le := tokens_le
  unused _ := rfl
  paid := by
    rw [Nat.cast_zero, zero_add]
    exact le_add_of_le_of_nonneg tokens_le (div_nonneg elapsed_nonneg interval.le)

/-- Filling up to a reading in the window. -/
theorem fill (charged : w.Charged count tokens lastFill) (interval : 0 < w.interval)
    (contains : w.Contains now) (later : lastFill < now) (capped : tokens' ≤ w.capacity)
    (gained : tokens' ≤ tokens + (now - lastFill) / w.interval) :
    w.Charged count tokens' now := by
  obtain early | inside := lt_or_ge lastFill w.start
  · -- nothing was taken before the first filling in the window
    rw [charged.unused early]
    exact of_unused interval capped
  · refine ⟨capped, fun before => absurd contains.1 (not_le.mpr before), ?_⟩
    have paid := charged.paid
    rw [elapsed_of_contains ⟨inside, later.le.trans contains.2⟩] at paid
    rw [elapsed_of_contains contains]
    have split : (now - w.start) / w.interval =
        (lastFill - w.start) / w.interval + (now - lastFill) / w.interval := by
      rw [← add_div, sub_add_sub_cancel']
    linarith

/-- A token is taken behind a filling that the window contains or precedes. -/
theorem take (charged : w.Charged count tokens lastFill) (inside : w.start ≤ lastFill) :
    w.Charged (count + 1) (tokens - 1) lastFill := by
  refine ⟨(sub_le_self _ zero_le_one).trans charged.tokens_le,
    fun before => absurd inside (not_le.mpr before), ?_⟩
  have paid := charged.paid
  push_cast
  linarith

theorem count_le (charged : w.Charged count tokens lastFill) (interval : 0 < w.interval)
    (nonneg : 0 ≤ w.length) (left : 0 ≤ tokens) :
    (count : α) ≤ w.capacity + w.length / w.interval :=
  calc (count : α) ≤ count + tokens := le_add_of_nonneg_right left
    _ ≤ w.capacity + w.elapsed lastFill / w.interval := charged.paid
    _ ≤ w.capacity + w.length / w.interval := by
      have : w.elapsed lastFill / w.interval ≤ w.length / w.interval :=
        div_le_div_of_nonneg_right (elapsed_le nonneg) interval.le
      linarith

end Charged

end Window

end TokenBucket
