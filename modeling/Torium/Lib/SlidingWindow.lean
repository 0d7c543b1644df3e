import Mathlib.Algebra.Order.BigOperators.Group.List
import Mathlib.Algebra.Order.Group.Defs
import Mathlib.Data.List.Basic

/-!
# Quotas over sliding windows

Entries of a log have a time and an amount. A log is paced if each entry was appended at a time
when the last entry of the window before it lay a cooldown back, and when the amounts of the
window left enough of the quota.

In a paced log all entries are a cooldown apart, and no window of the given length, wherever it
begins, has more than the quota.
-/

namespace SlidingWindow

structure Entry (τ α : Type*) where
  at_ : τ
  amount : α
  deriving DecidableEq

section Definitions

variable {τ α : Type*} [AddCommGroup τ] [LinearOrder τ]

/-- The entries of the window that ends at an instant. -/
def recent (length now : τ) (log : List (Entry τ α)) : List (Entry τ α) :=
  log.filter fun entry => now - length < entry.at_

def total [AddCommMonoid α] (log : List (Entry τ α)) : α := (log.map Entry.amount).sum

/-- Each entry was appended when the entries before it allowed it. -/
inductive Paced [AddCommMonoid α] [LE α] (length cooldown : τ) (quota : α) :
    List (Entry τ α) → Prop
  | nil : Paced length cooldown quota []
  | snoc {log : List (Entry τ α)} {entry : Entry τ α} (paced : Paced length cooldown quota log)
      (apart : ∀ last ∈ (recent length entry.at_ log).getLast?, last.at_ + cooldown ≤ entry.at_)
      (left : total (recent length entry.at_ log) + entry.amount ≤ quota) :
      Paced length cooldown quota (log ++ [entry])

end Definitions

variable {τ α : Type*} [AddCommGroup τ] [LinearOrder τ] [IsOrderedAddMonoid τ]
variable {length cooldown now later : τ} {log : List (Entry τ α)}

omit [IsOrderedAddMonoid τ] in
theorem mem_recent {entry : Entry τ α} :
    entry ∈ recent length now log ↔ entry ∈ log ∧ now - length < entry.at_ := by
  rw [recent, List.mem_filter, decide_eq_true_iff]

/-- What is left of a window at a later time. -/
theorem recent_recent (order : now ≤ later) :
    recent length later (recent length now log) = recent length later log := by
  unfold recent
  rw [List.filter_filter]
  refine List.filter_congr fun entry _ => ?_
  rw [Bool.and_eq_left_iff_imp]
  simp only [decide_eq_true_iff]
  exact (sub_le_sub_right order length).trans_lt

section Amounts

variable [AddCommMonoid α] [PartialOrder α] [IsOrderedAddMonoid α] {quota : α}

omit [AddCommGroup τ] [LinearOrder τ] [IsOrderedAddMonoid τ] [PartialOrder α]
  [IsOrderedAddMonoid α] in
theorem total_append (log log' : List (Entry τ α)) :
    total (log ++ log') = total log + total log' := by
  rw [total, List.map_append, List.sum_append, total, total]

omit [AddCommGroup τ] [LinearOrder τ] [IsOrderedAddMonoid τ] in
theorem total_le_of_sublist {log' : List (Entry τ α)} (sub : log.Sublist log')
    (nonneg : ∀ entry ∈ log', 0 ≤ entry.amount) : total log ≤ total log' := by
  refine List.Sublist.sum_le_sum (sub.map Entry.amount) fun amount present => ?_
  obtain ⟨entry, member, rfl⟩ := List.mem_map.mp present
  exact nonneg entry member

omit [IsOrderedAddMonoid α] in
/-- Entries of a paced log are a cooldown apart. -/
theorem Paced.pairwise (paced : Paced length cooldown quota log) (positive : 0 < cooldown)
    (shorter : cooldown ≤ length) :
    log.Pairwise fun earlier later => earlier.at_ + cooldown ≤ later.at_ := by
  induction paced with
  | nil => exact .nil
  | @snoc log entry _ apart _ ih =>
    rw [List.pairwise_append]
    refine ⟨ih, List.pairwise_singleton _ _, fun earlier before last member => ?_⟩
    rw [List.mem_singleton] at member
    subst member
    obtain old | young := le_or_gt earlier.at_ (last.at_ - length)
    · exact (add_le_add old shorter).trans_eq (sub_add_cancel _ _)
    · -- the last entry of the window is not younger than the others in it
      have inside : earlier ∈ recent length last.at_ log := mem_recent.mpr ⟨before, young⟩
      obtain ⟨front, final, split⟩ :=
        (List.eq_nil_or_concat (recent length last.at_ log)).resolve_left
          (List.ne_nil_of_mem inside)
      have ends : final.at_ + cooldown ≤ last.at_ := apart final (by simp [split])
      have sorted := ih.sublist (List.filter_sublist (p := fun entry =>
        decide (last.at_ - length < entry.at_)))
      change (recent length last.at_ log).Pairwise _ at sorted
      rw [split, List.concat_eq_append] at sorted inside
      obtain early | same := List.mem_append.mp inside
      · have gap := (List.pairwise_append.mp sorted).2.2 earlier early final (by simp)
        exact gap.trans ((le_add_of_nonneg_right positive.le).trans ends)
      · rw [List.mem_singleton] at same
        exact same ▸ ends

/-- No choice of entries that lie less than the length of the window apart exceeds the quota. -/
theorem Paced.total_filter_le (paced : Paced length cooldown quota log)
    (nonneg : ∀ entry ∈ log, 0 ≤ entry.amount) (quota_nonneg : 0 ≤ quota)
    {chosen : Entry τ α → Bool}
    (narrow : ∀ a b, chosen a = true → chosen b = true → b.at_ - a.at_ < length) :
    total (log.filter chosen) ≤ quota := by
  induction paced with
  | nil => exact quota_nonneg
  | @snoc log entry _ _ left ih =>
    have nonneg' := fun other member => nonneg other (List.mem_append_left _ member)
    rw [List.filter_append]
    cases taken : chosen entry with
    | false =>
      rw [List.filter_cons_of_neg (by simp [taken]), List.filter_nil, List.append_nil]
      exact ih nonneg'
    | true =>
      rw [List.filter_cons_of_pos taken, List.filter_nil, total_append]
      have sub : (log.filter chosen).Sublist (recent length entry.at_ log) := by
        refine List.monotone_filter_right log fun other also => ?_
        rw [decide_eq_true_iff, sub_lt_comm]
        exact narrow other entry also taken
      have less := total_le_of_sublist sub fun other member =>
        nonneg' other (mem_recent.mp member).1
      calc total (log.filter chosen) + total [entry]
          ≤ total (recent length entry.at_ log) + total [entry] :=
            add_le_add less le_rfl
        _ = total (recent length entry.at_ log) + entry.amount := by simp [total]
        _ ≤ quota := left

end Amounts

end SlidingWindow
