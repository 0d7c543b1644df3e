import Mathlib.Data.List.Basic

/-!
# Maps with sorted keys

A map is the list of its pairs, sorted by their keys, so maps with the same pairs are equal.
-/

universe u v

/-- A finite map. -/
structure SortedMap (κ : Type u) (ν : Type v) [LT κ] where
  pairs : List (κ × ν)
  sorted : pairs.Pairwise fun first second => first.1 < second.1
  deriving DecidableEq

namespace SortedMap

variable {κ : Type u} {ν : Type v} [DecidableEq κ]

theorem list_lookup_cons [BEq κ] [LawfulBEq κ] (pair : κ × ν) (pairs : List (κ × ν)) (key : κ) :
    (pair :: pairs).lookup key = if key = pair.1 then some pair.2 else pairs.lookup key := by
  obtain ⟨k, v⟩ := pair
  split_ifs with same
  · rw [same, List.lookup_cons_self]
  · rw [List.lookup_cons, beq_false_of_ne same]

variable [LT κ] [DecidableLT κ] {key : κ} {pairs : List (κ × ν)} {value : ν}

/-- Put a pair in its place; one with the same key is replaced. -/
def insertPair (key : κ) (value : ν) : List (κ × ν) → List (κ × ν)
  | [] => [(key, value)]
  | first :: others =>
    if key < first.1 then (key, value) :: first :: others
    else if key = first.1 then (key, value) :: others
    else first :: insertPair key value others

theorem mem_insertPair {pair : κ × ν} (member : pair ∈ insertPair key value pairs) :
    pair = (key, value) ∨ pair ∈ pairs := by
  fun_induction insertPair key value pairs with
  | case1 => exact .inl (List.mem_singleton.mp member)
  | case2 first others => exact List.mem_cons.mp member
  | case3 first others =>
    exact (List.mem_cons.mp member).imp_right (List.mem_cons_of_mem _)
  | case4 first others _ _ ih =>
    obtain rfl | later := List.mem_cons.mp member
    · exact .inr List.mem_cons_self
    · exact (ih later).imp_right (List.mem_cons_of_mem _)

theorem lookup_insertPair [BEq κ] [LawfulBEq κ] (key : κ) (value : ν) (pairs : List (κ × ν))
    (other : κ) :
    (insertPair key value pairs).lookup other =
      if other = key then some value else pairs.lookup other := by
  fun_induction insertPair key value pairs with
  | case1 => exact list_lookup_cons _ _ _
  | case2 first others => exact list_lookup_cons _ _ _
  | case3 first others _ same =>
    rw [list_lookup_cons, list_lookup_cons, same]
    split_ifs <;> rfl
  | case4 first others _ different ih =>
    rw [list_lookup_cons, list_lookup_cons, ih]
    split_ifs with here there
    · exact absurd (there.symm.trans here) different
    · rfl
    · rfl
    · rfl

/-- A key before all others is put in front. -/
theorem insertPair_first (first : ∀ pair ∈ pairs, key < pair.1) :
    insertPair key value pairs = (key, value) :: pairs := by
  cases pairs with
  | nil => rfl
  | cons pair pairs => rw [insertPair, if_pos (first pair List.mem_cons_self)]

variable [LE κ] [Std.IsLinearOrder κ] [Std.LawfulOrderLT κ]

theorem sorted_insertPair (sorted : pairs.Pairwise fun first second => first.1 < second.1) :
    (insertPair key value pairs).Pairwise fun first second => first.1 < second.1 := by
  fun_induction insertPair key value pairs with
  | case1 => exact List.pairwise_singleton _ _
  | case2 first others before =>
    refine List.pairwise_cons.mpr ⟨?_, sorted⟩
    intro pair member
    obtain rfl | later := List.mem_cons.mp member
    · exact before
    · exact Std.lt_trans before ((List.pairwise_cons.mp sorted).1 pair later)
  | case3 first others _ same =>
    obtain ⟨above, rest⟩ := List.pairwise_cons.mp sorted
    exact List.pairwise_cons.mpr ⟨fun pair member => same ▸ above pair member, rest⟩
  | case4 first others notBefore different ih =>
    obtain ⟨above, rest⟩ := List.pairwise_cons.mp sorted
    refine List.pairwise_cons.mpr ⟨fun pair member => ?_, ih rest⟩
    obtain rfl | old := mem_insertPair member
    · exact Std.lt_of_le_of_ne (Std.not_lt.mp notBefore) (Ne.symm different)
    · exact above pair old

/-- A key behind all others is put at the end. -/
theorem insertPair_last (last : ∀ pair ∈ pairs, pair.1 < key) :
    insertPair key value pairs = pairs ++ [(key, value)] := by
  induction pairs with
  | nil => rfl
  | cons first others ih =>
    have before := last first List.mem_cons_self
    have different : key ≠ first.1 := by
      rintro rfl
      exact Std.lt_irrefl before
    rw [insertPair, if_neg (Std.not_lt.mpr (Std.le_of_lt before)), if_neg different,
      ih fun pair member => last pair (List.mem_cons_of_mem _ member), List.cons_append]

/-! ## Maps -/

def empty : SortedMap κ ν := ⟨[], .nil⟩

/-- Set the value of a key. -/
def insert (key : κ) (value : ν) (map : SortedMap κ ν) : SortedMap κ ν :=
  ⟨insertPair key value map.pairs, sorted_insertPair map.sorted⟩

/-- The map of a list of pairs; of pairs with one key the first counts. -/
def ofList (pairs : List (κ × ν)) : SortedMap κ ν :=
  pairs.foldr (fun pair map => map.insert pair.1 pair.2) empty

theorem lookup_ofList [BEq κ] [LawfulBEq κ] (pairs : List (κ × ν)) (key : κ) :
    (ofList pairs).pairs.lookup key = pairs.lookup key := by
  induction pairs with
  | nil => rfl
  | cons pair pairs ih =>
    rw [list_lookup_cons, ← ih]
    exact lookup_insertPair _ _ _ _

theorem ofList_pairs (map : SortedMap κ ν) : ofList map.pairs = map := by
  obtain ⟨pairs, sorted⟩ := map
  induction pairs with
  | nil => rfl
  | cons pair pairs ih =>
    obtain ⟨first, rest⟩ := List.pairwise_cons.mp sorted
    have inner := ih rest
    change insert pair.1 pair.2 (ofList pairs) = _
    change ofList pairs = _ at inner
    rw [inner]
    simp only [insert, insertPair_first first]

theorem mem_ofList {pair : κ × ν} (member : pair ∈ (ofList pairs).pairs) :
    pair ∈ pairs := by
  induction pairs with
  | nil => cases member
  | cons first others ih =>
    obtain rfl | later := mem_insertPair member
    · exact List.mem_cons_self
    · exact List.mem_cons_of_mem _ (ih later)

end SortedMap
