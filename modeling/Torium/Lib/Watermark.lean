import Mathlib.Order.Lattice

/-!
# Marks of a signer

A signer keeps a mark: the last position at which it signed, and what it signed there. As
long as the mark never steps back, no two different messages are signed at one position.
-/

namespace Watermark

variable {π μ : Type}

/-- A position, and what was signed there, if anything was. -/
structure Mark (π μ : Type) where
  position : π
  message : Option μ

/-- The message of a mark, signed at its position. -/
def Mark.entry (mark : Mark π μ) : List (π × μ) :=
  (mark.message.map fun message => (mark.position, message)).toList

theorem Mark.mem_entry {mark : Mark π μ} {entry : π × μ} :
    entry ∈ mark.entry ↔ entry.1 = mark.position ∧ mark.message = some entry.2 := by
  obtain ⟨position, message⟩ := entry
  rw [Mark.entry, Option.mem_toList, Option.map_eq_some_iff]
  constructor
  · rintro ⟨value, found, same⟩
    cases same
    exact ⟨rfl, found⟩
  · rintro ⟨rfl, found⟩
    exact ⟨message, found, rfl⟩

section Order

variable [LinearOrder π]

/-- A later mark: at a later position, or at the same one with the same message. -/
def Mark.Precedes (mark next : Mark π μ) : Prop :=
  mark.position < next.position ∨ mark.position = next.position ∧ mark.message = next.message

theorem Mark.Precedes.le {mark next : Mark π μ} (precedes : mark.Precedes next) :
    mark.position ≤ next.position := by
  obtain later | ⟨same, -⟩ := precedes
  · exact later.le
  · exact same.le

/-- The mark stands at the last of the signed messages, and no position has two of them. -/
structure Mark.Covers (mark : Mark π μ) (signed : List (π × μ)) : Prop where
  bounded : ∀ entry ∈ signed, entry.1 ≤ mark.position
  latest : ∀ entry ∈ signed, entry.1 = mark.position → mark.message = some entry.2
  unique : ∀ first ∈ signed, ∀ second ∈ signed, first.1 = second.1 → first.2 = second.2

theorem Mark.covers_entry (mark : Mark π μ) : mark.Covers mark.entry where
  bounded _ member := (mem_entry.mp member).1.le
  latest _ member _ := (mem_entry.mp member).2
  unique _ first _ second _ :=
    Option.some.inj ((mem_entry.mp first).2.symm.trans (mem_entry.mp second).2)

/-- Nothing that was signed before contradicts a later mark. -/
theorem Mark.Covers.agrees {mark next : Mark π μ} {signed : List (π × μ)}
    (covers : mark.Covers signed) (precedes : mark.Precedes next) :
    ∀ entry ∈ signed, entry.1 = next.position → next.message = some entry.2 := by
  intro entry member here
  obtain later | ⟨same, message⟩ := precedes
  · exact absurd (here ▸ covers.bounded entry member) (not_le.mpr later)
  · rw [← message]
    exact covers.latest entry member (here.trans same.symm)

/-- What is signed with a later mark keeps to one message for a position. -/
theorem Mark.Covers.advance {mark next : Mark π μ} {signed : List (π × μ)}
    (covers : mark.Covers signed) (precedes : mark.Precedes next) :
    next.Covers (signed ++ next.entry) where
  bounded entry member := by
    obtain old | new := List.mem_append.mp member
    · exact (covers.bounded entry old).trans precedes.le
    · exact (mem_entry.mp new).1.le
  latest entry member here := by
    obtain old | new := List.mem_append.mp member
    · exact covers.agrees precedes entry old here
    · exact (mem_entry.mp new).2
  unique first here second there same := by
    obtain old | new := List.mem_append.mp here <;> obtain old' | new' := List.mem_append.mp there
    · exact covers.unique first old second old' same
    · obtain ⟨position, message⟩ := mem_entry.mp new'
      have agrees := covers.agrees precedes first old (same.trans position)
      exact Option.some.inj (agrees.symm.trans message)
    · obtain ⟨position, message⟩ := mem_entry.mp new
      have agrees := covers.agrees precedes second old' (same.symm.trans position)
      exact Option.some.inj (message.symm.trans agrees)
    · exact Option.some.inj ((mem_entry.mp new).2.symm.trans (mem_entry.mp new').2)

end Order

end Watermark
