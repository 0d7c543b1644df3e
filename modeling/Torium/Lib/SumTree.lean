import Mathlib.Algebra.Order.BigOperators.Group.List
import Mathlib.Algebra.Order.Ring.Nat

/-!
# Sound totals of hash trees that commit sums

A code is what gets hashed. It can be read in two ways: as an inner node, with
two children that are a hash and a sum each, or as a leaf with an amount. The
reading is not tagged, so one code may be read as a node on one path and as a
leaf on another; nothing says that there is a tree behind a root hash at all.

A path opens a pair of hash and sum from the top: each code on it hashes to the
hash above, and the sums of its two children add up to the sum above. The one
condition that excludes confusion is that a code read as a node never has the
amount it would have as a leaf. Then distinct leaf codes opened below one pair
have amounts that add up to at most its sum, unless two codes collide.
-/

namespace SumTree

universe u v

/-- The hash of a code and its two untagged readings. -/
structure Reading (H : Type u) (E : Type v) where
  hash : E → H
  first : E → H × Nat
  second : E → H × Nat
  amount : E → Nat

/-- The codes from a root down to a leaf, with the child taken at each node. -/
inductive Path (E : Type v) where
  | leaf (e : E)
  | first (e : E) (below : Path E)
  | second (e : E) (below : Path E)

namespace Path

variable {E : Type v}

def top : Path E → E
  | leaf e | first e _ | second e _ => e

def bottom : Path E → E
  | leaf e => e
  | first _ below | second _ below => below.bottom

/-- All codes on the path. -/
def codes : Path E → List E
  | leaf e => [e]
  | first e below | second e below => e :: below.codes

def depth : Path E → Nat
  | leaf _ => 0
  | first _ below | second _ below => below.depth + 1

/-- The rest of the path below its top node; a leaf has no rest. -/
def rest : Path E → Path E
  | leaf e => leaf e
  | first _ below | second _ below => below

def takesFirst : Path E → Bool
  | first _ _ => true
  | _ => false

def isLeaf : Path E → Bool
  | leaf _ => true
  | _ => false

@[simp] theorem bottom_rest (p : Path E) : p.rest.bottom = p.bottom := by
  cases p <;> rfl

theorem top_mem_codes (p : Path E) : p.top ∈ p.codes := by
  cases p <;> simp [top, codes]

theorem codes_rest_subset (p : Path E) : p.rest.codes ⊆ p.codes := by
  cases p <;> simp [rest, codes]

theorem depth_rest_lt {p : Path E} (node : p.isLeaf = false) : p.rest.depth < p.depth := by
  cases p <;> simp_all [rest, depth, isLeaf]

end Path

variable {H : Type u} {E : Type v} {paths : List (Path E)} {r : Reading H E}

/-- The path leads from the given hash and sum down to its leaf. -/
def Opens (r : Reading H E) : Path E → H → Nat → Prop
  | .leaf e, h, s => r.hash e = h ∧ r.amount e = s
  | .first e below, h, s =>
    r.hash e = h ∧ (r.first e).2 + (r.second e).2 = s ∧ r.amount e ≠ s ∧
      Opens r below (r.first e).1 (r.first e).2
  | .second e below, h, s =>
    r.hash e = h ∧ (r.first e).2 + (r.second e).2 = s ∧ r.amount e ≠ s ∧
      Opens r below (r.second e).1 (r.second e).2

namespace Opens

variable {p : Path E} {h : H} {s : Nat}
variable (opens : Opens r p h s)

include opens

theorem hash_top : r.hash p.top = h := by
  cases p <;> exact opens.1

/-- Whether a path ends at its top is decided by the code and the sum alone. -/
theorem isLeaf_iff : p.isLeaf = true ↔ r.amount p.top = s := by
  cases p with
  | leaf e => exact ⟨fun _ => opens.2, fun _ => rfl⟩
  | first e below => exact ⟨nofun, fun same => absurd same opens.2.2.1⟩
  | second e below => exact ⟨nofun, fun same => absurd same opens.2.2.1⟩

theorem sum_eq (node : p.isLeaf = false) :
    (r.first p.top).2 + (r.second p.top).2 = s := by
  cases p with
  | leaf e => exact absurd node nofun
  | first e below => exact opens.2.1
  | second e below => exact opens.2.1

theorem rest_first (taken : p.takesFirst = true) :
    Opens r p.rest (r.first p.top).1 (r.first p.top).2 := by
  cases p with
  | first e below => exact opens.2.2.2
  | leaf e => exact absurd taken nofun
  | second e below => exact absurd taken nofun

theorem rest_second (node : p.isLeaf = false) (taken : p.takesFirst = false) :
    Opens r p.rest (r.second p.top).1 (r.second p.top).2 := by
  cases p with
  | second e below => exact opens.2.2.2
  | leaf e => exact absurd node nofun
  | first e below => exact absurd taken nofun

end Opens

/-- No two different codes on the given paths have one hash. -/
def Distinguishes (r : Reading H E) (paths : List (Path E)) : Prop :=
  ∀ p ∈ paths, ∀ q ∈ paths, ∀ x ∈ p.codes, ∀ y ∈ q.codes, r.hash x = r.hash y → x = y

theorem Distinguishes.rest {part : List (Path E)} (free : Distinguishes r paths)
    (included : part ⊆ paths) :
    Distinguishes r (part.map Path.rest) := by
  intro p hp q hq x hx y hy
  obtain ⟨p', inPart, rfl⟩ := List.mem_map.mp hp
  obtain ⟨q', inPart', rfl⟩ := List.mem_map.mp hq
  exact free p' (included inPart) q' (included inPart') x (p'.codes_rest_subset hx) y
    (q'.codes_rest_subset hy)

/-- A total over a list is the total over each part of a split. -/
theorem sum_map_filter {α : Type v} (f : α → Nat) (P : α → Bool) (l : List α) :
    (l.map f).sum = ((l.filter P).map f).sum + ((l.filter fun a => !P a).map f).sum := by
  induction l with
  | nil => rfl
  | cons a l ih =>
    cases h : P a <;> simp [h, ih] <;> omega

/-- Leaves opened at one pair of hash and sum share their code. -/
theorem bottom_eq_of_isLeaf {p q : Path E} {h : H} {s : Nat} (hp : Opens r p h s)
    (hq : Opens r q h s) (top : q.top = p.top) (leaf : p.isLeaf = true) :
    q.bottom = p.bottom := by
  have leaf' : q.isLeaf = true := by
    rw [hq.isLeaf_iff, top]
    exact hp.isLeaf_iff.mp leaf
  cases p with
  | leaf e =>
    cases q with
    | leaf e' => exact top
    | first e' below => exact absurd leaf' nofun
    | second e' below => exact absurd leaf' nofun
  | first e below => exact absurd leaf nofun
  | second e below => exact absurd leaf nofun

/-- What the induction needs of paths below one pair of hash and sum: they have different
ends, and codes with one hash are one code. -/
structure Opened (r : Reading H E) (n : Nat) (paths : List (Path E)) (h : H) (s : Nat) : Prop where
  bounded : ∀ p ∈ paths, p.depth < n
  opens : ∀ p ∈ paths, Opens r p h s
  distinct : (paths.map Path.bottom).Nodup
  free : Distinguishes r paths

section Opened

variable {n : Nat} {p : Path E} {ps : List (Path E)} {h h' : H}
variable {s s' : Nat}

/-- All paths start with one code. -/
theorem Opened.common (opened : Opened r n (p :: ps) h s) : ∀ q ∈ p :: ps, q.top = p.top :=
  fun q member => opened.free q member p List.mem_cons_self _ q.top_mem_codes _ p.top_mem_codes
    ((opened.opens q member).hash_top.trans (opened.opens p List.mem_cons_self).hash_top.symm)

/-- Paths that end at once with one code are one path. -/
theorem Opened.alone (opened : Opened r n (p :: ps) h s) (leaf : p.isLeaf = true) : ps = [] := by
  refine List.eq_nil_iff_forall_not_mem.mpr fun q member => ?_
  have later := List.mem_cons_of_mem p member
  have same := bottom_eq_of_isLeaf (opened.opens p List.mem_cons_self) (opened.opens q later)
    (opened.common q later) leaf
  refine (List.nodup_cons.mp opened.distinct).1 ?_
  exact same ▸ List.mem_map_of_mem member

theorem Opened.node (opened : Opened r n (p :: ps) h s) (node : p.isLeaf = false) :
    ∀ q ∈ p :: ps, q.isLeaf = false := by
  intro q member
  rw [Bool.eq_false_iff, ne_eq, (opened.opens q member).isLeaf_iff, opened.common q member,
    ← (opened.opens p List.mem_cons_self).isLeaf_iff, node]
  exact Bool.false_ne_true

/-- The paths that go to one child lie one level deeper, below that child. -/
theorem Opened.below (opened : Opened r (n + 1) paths h s)
    (node : ∀ q ∈ paths, q.isLeaf = false) (P : Path E → Bool)
    (child : ∀ q ∈ paths, P q → Opens r q.rest h' s') :
    Opened r n ((paths.filter P).map Path.rest) h' s' := by
  have included : paths.filter P ⊆ paths := List.filter_sublist.subset
  constructor
  · intro q' member'
    obtain ⟨q, member, rfl⟩ := List.mem_map.mp member'
    have less := Path.depth_rest_lt (node q (included member))
    have deep := opened.bounded q (included member)
    omega
  · intro q' member'
    obtain ⟨q, member, rfl⟩ := List.mem_map.mp member'
    exact child q (included member) (List.mem_filter.mp member).2
  · have sublist := (List.filter_sublist (p := P) (l := paths)).map Path.bottom
    simpa [Function.comp_def] using opened.distinct.sublist sublist
  · exact opened.free.rest included

end Opened

theorem Opened.sum_le {n : Nat} {h : H} {s : Nat} (opened : Opened r n paths h s) :
    (paths.map fun p => r.amount p.bottom).sum ≤ s := by
  induction n generalizing paths h s with
  | zero =>
    have empty : paths = [] := List.eq_nil_iff_forall_not_mem.mpr
      fun p member => Nat.not_lt_zero _ (opened.bounded p member)
    simp [empty]
  | succ n ih =>
    cases paths with
    | nil => simp
    | cons p ps =>
      have hp := opened.opens p List.mem_cons_self
      cases leaf : p.isLeaf with
      | true =>
        have amount : r.amount p.bottom = s := by
          cases p with
          | leaf e => exact hp.2
          | first e below => exact absurd leaf nofun
          | second e below => exact absurd leaf nofun
        simp [opened.alone leaf, amount]
      | false =>
        have node := opened.node leaf
        have part (P : Path E → Bool) (h' : H) (s' : Nat)
            (child : ∀ q ∈ p :: ps, P q → Opens r q.rest h' s') :
            (((p :: ps).filter P).map fun q => r.amount q.bottom).sum ≤ s' := by
          simpa [Function.comp_def] using ih (opened.below node P child)
        have left := part Path.takesFirst (r.first p.top).1 (r.first p.top).2
          fun q member taken =>
            opened.common q member ▸ (opened.opens q member).rest_first taken
        have right := part (fun q => !q.takesFirst) (r.second p.top).1 (r.second p.top).2
          fun q member taken => opened.common q member ▸
            (opened.opens q member).rest_second (node q member) (by simpa using taken)
        have total := hp.sum_eq leaf
        rw [sum_map_filter _ Path.takesFirst]
        omega

/-- Distinct leaves opened below one pair of hash and sum have amounts that add
up to at most the sum. -/
theorem sum_le {h : H} {s : Nat} (opens : ∀ p ∈ paths, Opens r p h s)
    (distinct : (paths.map Path.bottom).Nodup) (free : Distinguishes r paths) :
    (paths.map fun p => r.amount p.bottom).sum ≤ s := by
  have bounded : ∀ p ∈ paths, p.depth < (paths.map Path.depth).sum + 1 := fun _ member =>
    Nat.lt_succ_of_le (List.single_le_sum (by simp) _ (List.mem_map_of_mem member))
  exact Opened.sum_le ⟨bounded, opens, distinct, free⟩

end SumTree
