import Torium.Generator.Fixture

/-!
# Normalized claims

What the generator may rely on after `normalizeClaims`: every element of the input
was read as one claim, indexes and accounts are distinct, and amounts are positive
and fit a word.
-/

namespace Torium.Generator

open Evm

/-- A loop over a list whose body may fail. -/
theorem forall₂_of_mapM {ε α β : Type} {f : α → Except ε β} {l : List α} {l' : List β}
    (mapped : l.mapM f = .ok l') : List.Forall₂ (fun a b => f a = .ok b) l l' := by
  induction l generalizing l' with
  | nil =>
    obtain rfl := pure_eq_ok.mp mapped
    exact .nil
  | cons a l ih =>
    simp only [List.mapM_cons, bind_eq_ok, pure_eq_ok] at mapped
    obtain ⟨b, first, rest, later, rfl⟩ := mapped
    exact .cons first (ih later)

theorem exists_of_mem_right {α β : Type} {R : α → β → Prop} {l : List α} {l' : List β} {b : β}
    (related : List.Forall₂ R l l') (member : b ∈ l') : ∃ a ∈ l, R a b := by
  induction related with
  | nil => exact absurd member List.not_mem_nil
  | cons first _ ih =>
    rcases List.mem_cons.mp member with rfl | later
    · exact ⟨_, List.mem_cons_self, first⟩
    · obtain ⟨a, present, holds⟩ := ih later
      exact ⟨a, List.mem_cons_of_mem _ present, holds⟩

/-- Indexes and amounts in the range of a word, and something to pay. -/
structure Claim.Valid (claim : Claim) : Prop where
  index_le : claim.index ≤ UINT256_MAX
  amount_le : claim.amount ≤ UINT256_MAX
  amount_pos : 0 < claim.amount

theorem parseUint256_le {value : Value} {label : String} {positive : Bool} {n : Nat}
    (parsed : parseUint256 value label positive = .ok n) :
    n ≤ UINT256_MAX ∧ (positive = true → 0 < n) := by
  simp only [parseUint256, bind_eq_ok, revertIf_eq_ok, pure_eq_ok, Nat.not_lt] at parsed
  obtain ⟨_, -, -, bounded, -, nonzero, rfl⟩ := parsed
  exact ⟨bounded, fun positive => Nat.pos_of_ne_zero fun zero => nonzero ⟨positive, zero⟩⟩

theorem parseClaim_valid {lib : AddressLibrary} {label : String} {value : Value} {claim : Claim}
    (parsed : parseClaim lib label value = .ok claim) : claim.Valid := by
  cases value with
  | object members =>
    simp only [parseClaim, bind_eq_ok, pure_eq_ok] at parsed
    obtain ⟨-, -, index, indexParsed, account, -, amount, amountParsed, rfl⟩ := parsed
    have index := parseUint256_le indexParsed
    have amount := parseUint256_le amountParsed
    exact ⟨index.1, amount.1, amount.2 rfl⟩
  | _ => cases parsed

variable {lib : AddressLibrary}

/-- The loop reads one claim from each element and never repeats a key. -/
theorem collectClaims_spec {indexes accounts : List Text} {position : Nat} {values : List Value}
    {claims : List Claim}
    (collected : collectClaims lib indexes accounts position values = .ok claims) :
    List.Forall₂ (fun value claim => ∃ label, parseClaim lib label value = .ok claim)
      values claims ∧
    (claims.map Claim.indexKey).Nodup ∧ (∀ claim ∈ claims, claim.indexKey ∉ indexes) ∧
    (claims.map Claim.accountKey).Nodup ∧ ∀ claim ∈ claims, claim.accountKey ∉ accounts := by
  induction values generalizing indexes accounts position claims with
  | nil =>
    obtain rfl := pure_eq_ok.mp collected
    exact ⟨.nil, .nil, nofun, .nil, nofun⟩
  | cons value values ih =>
    simp only [collectClaims, bind_eq_ok, revertIf_eq_ok, pure_eq_ok] at collected
    obtain ⟨claim, parsed, -, newIndex, -, newAccount, rest, later, rfl⟩ := collected
    obtain ⟨read, distinct, unseen, distinct', unseen'⟩ := ih later
    simp only [List.mem_cons, not_or] at unseen unseen'
    refine ⟨.cons ⟨_, parsed⟩ read, ?_, ?_, ?_, ?_⟩
    · refine List.nodup_cons.mpr ⟨fun repeated => ?_, distinct⟩
      obtain ⟨other, member, same⟩ := List.mem_map.mp repeated
      exact (unseen other member).1 same
    · exact List.forall_mem_cons.mpr ⟨newIndex, fun other member => (unseen other member).2⟩
    · refine List.nodup_cons.mpr ⟨fun repeated => ?_, distinct'⟩
      obtain ⟨other, member, same⟩ := List.mem_map.mp repeated
      exact (unseen' other member).1 same
    · exact List.forall_mem_cons.mpr ⟨newAccount, fun other member => (unseen' other member).2⟩

/-- What `normalizeClaims` guarantees. -/
structure Normalized (lib : AddressLibrary) (values : List Value) (claims : List Claim) :
    Prop where
  nonempty : claims ≠ []
  read : ∃ collected, claims.Perm collected ∧
    List.Forall₂ (fun value claim => ∃ label, parseClaim lib label value = .ok claim)
      values collected
  indexes : (claims.map Claim.indexKey).Nodup
  accounts : (claims.map Claim.accountKey).Nodup
  valid : ∀ claim ∈ claims, claim.Valid

theorem normalizeClaims_spec {values : List Value} {claims : List Claim}
    (accepted : normalizeClaims lib values = .ok claims) : Normalized lib values claims := by
  simp only [normalizeClaims, bind_eq_ok, revertIf_eq_ok, pure_eq_ok] at accepted
  obtain ⟨-, nonempty, collected, loop, rfl⟩ := accepted
  obtain ⟨read, indexes, -, accounts, -⟩ := collectClaims_spec loop
  have perm :=
    List.perm_insertionSort (fun left right : Claim => left.index ≤ right.index) collected
  refine ⟨fun empty => nonempty ?_, ⟨collected, perm, read⟩, ?_, ?_, fun claim member => ?_⟩
  · rw [empty] at perm
    rw [perm.nil_eq.symm] at read
    simpa using read.length_eq
  · exact (perm.map _).nodup_iff.mpr indexes
  · exact (perm.map _).nodup_iff.mpr accounts
  · obtain ⟨value, -, label, parsed⟩ := exists_of_mem_right read (perm.subset member)
    exact parseClaim_valid parsed

end Torium.Generator
