import Mathlib.Data.List.Basic
import Mathlib.Data.List.Induction

/-!
# Hash chains

Every entry of a chain names the hash of the one before it. The last hash of a chain stands for
the whole of it: if two chains of one length end in the same hash, they are the same, or there are
two different contents with the same digest.
-/

namespace HashChain

universe u v w

section Linked

variable {α : Type u} {η : Type v} (prev hash : α → η) (fits : Nat → α → Prop)

/-- A chain that follows the hash `start` and `n` entries; `fits` is what an entry has to be at
its place. -/
def Linked (start : η) (n : Nat) : List α → Prop
  | [] => True
  | entry :: entries =>
    prev entry = start ∧ fits (n + 1) entry ∧ Linked (hash entry) (n + 1) entries

/-- The hash of the last entry. -/
def head (start : η) : List α → η
  | [] => start
  | entry :: entries => head (hash entry) entries

variable {prev hash fits}

theorem head_append (start : η) (first second : List α) :
    head hash start (first ++ second) = head hash (head hash start first) second := by
  induction first generalizing start with
  | nil => rfl
  | cons entry entries ih => exact ih (hash entry)

theorem linked_append {start : η} {n : Nat} {first second : List α} :
    Linked prev hash fits start n (first ++ second) ↔
      Linked prev hash fits start n first ∧
        Linked prev hash fits (head hash start first) (n + first.length) second := by
  induction first generalizing start n with
  | nil => simp [Linked, head]
  | cons entry entries ih =>
    rw [List.cons_append, Linked, ih, Linked, head, List.length_cons, and_assoc, and_assoc,
      Nat.add_right_comm n 1, Nat.add_assoc]

/-- The last link of a chain. -/
theorem linked_concat {start : η} {n : Nat} {entries : List α} {last : α} :
    Linked prev hash fits start n (entries ++ [last]) ↔
      Linked prev hash fits start n entries ∧ prev last = head hash start entries ∧
        fits (n + entries.length + 1) last := by
  rw [linked_append]
  simp [Linked]

theorem head_concat (start : η) (entries : List α) (last : α) :
    head hash start (entries ++ [last]) = hash last := by
  rw [head_append]
  rfl

theorem Linked.fits_of_mem {start : η} {n : Nat} {entries : List α}
    (linked : Linked prev hash fits start n entries) {entry : α} (member : entry ∈ entries) :
    ∃ m, fits m entry := by
  induction entries generalizing start n with
  | nil => cases member
  | cons first others ih =>
    obtain ⟨-, fit, rest⟩ := linked
    obtain rfl | later := List.mem_cons.mp member
    · exact ⟨_, fit⟩
    · exact ih rest later

end Linked

section Commitment

variable {α : Type u} {η : Type v} {β : Type w} {prev hash : α → η} {fits : Nat → α → Prop}
variable (content : α → β) (digest : β → η)

/-- Walk two chains of one length back from a common head. -/
theorem eq_or_collision {start : η} {n : Nat} {first second : List α}
    (hashes : ∀ entry, entry ∈ first ∨ entry ∈ second → hash entry = digest (content entry))
    (determines : ∀ a ∈ first, ∀ b ∈ second, content a = content b → a = b)
    (linked : Linked prev hash fits start n first)
    (linked' : Linked prev hash fits start n second) (lengths : first.length = second.length)
    (heads : head hash start first = head hash start second) :
    first = second ∨ ∃ a ∈ first, ∃ b ∈ second,
      content a ≠ content b ∧ digest (content a) = digest (content b) := by
  induction first using List.reverseRecOn generalizing second with
  | nil =>
    rw [List.length_nil] at lengths
    exact .inl (List.length_eq_zero_iff.mp lengths.symm).symm
  | append_singleton first a ih =>
    obtain rfl | ⟨second, b, rfl⟩ := List.eq_nil_or_concat' second
    · simp at lengths
    · rw [head_concat, head_concat] at heads
      by_cases same : content a = content b
      · obtain rfl := determines a (by simp) b (by simp) same
        obtain ⟨rest, back, -⟩ := linked_concat.mp linked
        obtain ⟨rest', back', -⟩ := linked_concat.mp linked'
        have smaller := ih
          (fun entry among => hashes entry (among.imp (List.mem_append_left _)
            (List.mem_append_left _)))
          (fun x left y right => determines x (List.mem_append_left _ left) y
            (List.mem_append_left _ right))
          rest rest' (by simpa using lengths) (back.symm.trans back')
        obtain rfl | ⟨x, left, y, right, different⟩ := smaller
        · exact .inl rfl
        · exact .inr ⟨x, List.mem_append_left _ left, y, List.mem_append_left _ right, different⟩
      · refine .inr ⟨a, by simp, b, by simp, same, ?_⟩
        rw [← hashes a (.inl (by simp)), ← hashes b (.inr (by simp)), heads]

end Commitment

end HashChain
