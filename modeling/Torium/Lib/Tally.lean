import Mathlib.Data.List.Basic
import Mathlib.Logic.Function.Basic

/-!
# Counting records

Records are kept under keys, and a list says which keys there are. The tally of a
property is the number of listed keys whose record has it. A new record adds to the
tally, and rewriting a record moves it by what the record gains or loses.
-/

namespace Tally

variable {κ ρ : Type} [DecidableEq κ]

/-- How many of the listed keys have a record with the property. -/
def count (records : κ → Option ρ) (p : ρ → Bool) (keys : List κ) : Nat :=
  keys.countP fun key => (records key).any p

variable {records : κ → Option ρ} {p : ρ → Bool} {keys : List κ} {key : κ} {old new : ρ}

/-- A record under a key that is not listed is not counted. -/
theorem count_update_of_not_mem (records : κ → Option ρ) (p : ρ → Bool) (new : ρ)
    (unlisted : key ∉ keys) :
    count (Function.update records key (some new)) p keys = count records p keys := by
  refine List.countP_congr fun other member => ?_
  have other_ne : other ≠ key := fun same => unlisted (same ▸ member)
  rw [Function.update_of_ne other_ne]

theorem count_add (unlisted : key ∉ keys) :
    count (Function.update records key (some new)) p (keys ++ [key]) =
      count records p keys + (p new).toNat := by
  have same := count_update_of_not_mem records p new unlisted
  rw [count] at same ⊢
  rw [List.countP_append, same]
  cases holds : p new <;> simp [holds, count]

/-- What the record had is given up, and what it has now is counted. -/
theorem count_update (p : ρ → Bool) (new : ρ) (nodup : keys.Nodup) (listed : key ∈ keys)
    (known : records key = some old) :
    count (Function.update records key (some new)) p keys + (p old).toNat =
      count records p keys + (p new).toNat := by
  induction keys with
  | nil => cases listed
  | cons first rest ih =>
    obtain ⟨unlisted, nodup'⟩ := List.nodup_cons.mp nodup
    simp only [count, List.countP_cons] at ih ⊢
    by_cases here : key = first
    · subst here
      have same := count_update_of_not_mem records p new unlisted
      rw [count, count] at same
      rw [same, Function.update_self, known]
      cases before : p old <;> cases after : p new <;> simp [before, after]
    · have later := ih nodup' ((List.mem_cons.mp listed).resolve_left here)
      rw [Function.update_of_ne (Ne.symm here)]
      omega

end Tally
