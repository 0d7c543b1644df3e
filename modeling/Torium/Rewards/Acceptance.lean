import Mathlib.Algebra.BigOperators.Group.Finset.Piecewise
import Torium.Rewards.Accounting

/-!
# When a claim or a clawback is accepted

`claim` checks its arguments, the window, the bitmap and the proof, and after that several
additions, subtractions and the payout could still fail. In a reachable state none of them does:
the amount of a proved and unclaimed leaf fits into what is left of its epoch, nothing of an
epoch is clawed back before its window has closed, and the balance covers what is left. The same
holds of `clawback`, whose success can be read off the views of the contract.
-/

namespace Torium.Rewards

open Evm CallStack Transition

variable [Keccak]

/-- The checks of `claim` that depend on the state. -/
structure Eligible (w : World) (epochId : Word) (claim : Claim) : Prop where
  unpaused : w.storage.paused = false
  published : Published w.storage epochId
  started : (w.storage.epochs epochId).claimStart.toNat ≤ w.now.toNat
  unfinished : w.now.toNat < (w.storage.epochs epochId).claimEnd.toNat
  unclaimed : isClaimed w.storage epochId claim.index = false
  proof : processProof epochId claim.index claim.account claim.amount claim.proof =
    .ok ((w.storage.epochs epochId).rootHash, (w.storage.epochs epochId).funded)

/-- The paid claims of an epoch and one more that is proved for it fit into its funding. -/
theorem Ledger.claimed_add_le_funded {w : World} (ledger : Ledger w) {epochId : Word}
    {claim : Claim} (eligible : Eligible w epochId claim) (positive : claim.amount ≠ 0)
    (free : CollisionFree (paidEncodings w ++ proofEncodings epochId claim)) :
    (w.storage.epochs epochId).claimed.toNat + claim.amount.toNat ≤
      (w.storage.epochs epochId).funded.toNat := by
  -- The bitmap has no mark for the index, so no paid claim of the epoch has it.
  have new : claim.index ∉ (paidFor w epochId).map Claim.index := by
    intro before
    obtain ⟨earlier, paid, same⟩ := List.mem_map.mp before
    have marked := (ledger.claimed_iff epochId earlier.index).mpr
      (List.mem_map_of_mem (mem_paidFor.mp paid))
    rw [same, eligible.unclaimed] at marked
    cases marked
  have distinct : ((paidFor w epochId ++ [claim]).map Claim.index).Nodup := by
    rw [List.map_append, List.map_singleton, List.nodup_append_comm]
    exact List.nodup_cons.mpr ⟨new, ledger.distinct_paidFor epochId⟩
  have holds {property : Claim → Prop} (before : ∀ other ∈ paidFor w epochId, property other)
      (last : property claim) : ∀ other ∈ paidFor w epochId ++ [claim], property other := by
    intro other member
    obtain paid | same := List.mem_append.mp member
    · exact before other paid
    · rwa [List.mem_singleton.mp same]
  have bound := sum_amounts_le distinct
    (holds (fun _ paid => (ledger.accepted _ (mem_paidFor.mp paid)).2.1) positive)
    (holds (fun _ paid => (ledger.accepted _ (mem_paidFor.mp paid)).2.2) eligible.proof)
    (free.mono (by
      rw [List.flatMap_append, List.flatMap_singleton]
      exact List.append_subset.mpr ⟨fun _ member => List.mem_append_left _
        (proofEncodings_subset w epochId member), List.subset_append_right _ _⟩))
  rwa [List.map_append, List.sum_append, ← ledger.total_paidFor, List.map_singleton,
    List.sum_singleton] at bound

omit [Keccak] in
/-- What is left of all epochs covers what is left of one. -/
theorem Solvent.totals_add_le {w : World} (solvent : Solvent w) {e : Word} {extra : Nat}
    (own : (w.storage.epochs e).claimed.toNat + (w.storage.epochs e).clawed.toNat + extra ≤
      (w.storage.epochs e).funded.toNat) :
    w.storage.totalClaimed.toNat + w.storage.totalClawed.toNat + extra ≤
      w.storage.totalFunded.toNat := by
  have single : extra = ∑ e' : Word, if e' = e then extra else 0 := by
    rw [Finset.sum_ite_eq' Finset.univ, if_pos (Finset.mem_univ _)]
  rw [solvent.funded, solvent.claimed, solvent.clawed, single, ← Finset.sum_add_distrib,
    ← Finset.sum_add_distrib]
  refine Finset.sum_le_sum fun e' _ => ?_
  split_ifs with same
  · rw [same]
    exact own
  · exact solvent.covered e'

omit [Keccak] in
theorem sendValue_ok {cfg : Config} {w : World} {recipient : Address} {a : Word}
    (elsewhere : recipient ≠ cfg.self) (covered : a.toNat ≤ w.balance.toNat) :
    sendValue cfg w recipient a = .ok (w.balance - a) := by
  rw [sendValue, revertIf, if_neg]
  · rfl
  · rw [BitVec.lt_def, not_or]
    exact ⟨elsewhere, by omega⟩

/-- Between transactions the reentrancy guard is free. -/
theorem Reachable.unguarded {cfg : Config} {m : Machine} (reached : Reachable cfg m)
    (idle : m.stack = []) : m.current.storage.entered = false := by
  have guard := reached.calls.top.guard
  rw [idle, List.countP_nil] at guard
  exact Bool.toNat_eq_zero.mp guard.symm

section Claiming

variable {cfg : Config} {m : Machine} {epochId : Word} {claim : Claim}

/-- Nothing was clawed back from an epoch whose window is open. -/
theorem Reachable.clawed_eq_zero (reached : Reachable cfg m)
    (eligible : Eligible m.current epochId claim) :
    (m.current.storage.epochs epochId).clawed = 0 := by
  by_contra clawed
  have past := (reached.settled.top epochId clawed).1
  have := eligible.unfinished
  omega

/-- What is left of all epochs covers a claim that passes the checks. -/
theorem Reachable.totals_add_le (reached : Reachable cfg m)
    (eligible : Eligible m.current epochId claim) (positive : claim.amount ≠ 0)
    (free : CollisionFree (paidEncodings m.current ++ proofEncodings epochId claim)) :
    m.current.storage.totalClaimed.toNat + m.current.storage.totalClawed.toNat +
      claim.amount.toNat ≤ m.current.storage.totalFunded.toNat := by
  have solvent := reached.solvent (free.mono (List.subset_append_left _ _))
  refine solvent.totals_add_le (e := epochId) ?_
  rw [reached.clawed_eq_zero eligible]
  exact reached.ledger.top.claimed_add_le_funded eligible positive free

/-- In a reachable state between transactions, a claim that passes the checks is paid. -/
theorem Reachable.beginClaim_iff (reached : Reachable cfg m) (idle : m.stack = [])
    (accepts : claim.account ≠ cfg.self)
    (free : CollisionFree (paidEncodings m.current ++ proofEncodings epochId claim)) :
    (∃ w, beginClaim cfg epochId claim m.current = .ok w) ↔
      Eligible m.current epochId claim ∧ claim.account ≠ 0 ∧ claim.amount ≠ 0 := by
  simp only [beginClaim, nonReentrant, whenNotPaused, bind_eq_ok, revertIf_eq_ok, orRevert_eq_ok,
    checkedAdd_eq_some, pure_eq_ok, not_or, not_not, Nat.not_lt, Nat.not_le, BitVec.le_def,
    BitVec.lt_def, toNat_widen]
  constructor
  · rintro ⟨-, -, -, -, unpaused, epoch, found, -, account, -, positive, -, started, -,
      unfinished, -, unclaimed, ⟨rootHash, rootSum⟩, proof, -, ⟨rfl, rfl⟩, -⟩
    obtain ⟨rfl, published⟩ := requireEpoch_effect found
    exact ⟨⟨by simpa using unpaused, published, started, unfinished, by simpa using unclaimed,
      proof⟩, account, positive⟩
  · rintro ⟨eligible, account, positive⟩
    have covered := reached.ledger.top.claimed_add_le_funded eligible positive free
    have totals := reached.totals_add_le eligible positive free
    have conserved := reached.accounts.top.conserved
    have fits := (m.current.storage.epochs epochId).funded.isLt
    have fits' := m.current.storage.totalFunded.isLt
    have entered := reached.unguarded idle
    have found : requireEpoch m.current.storage epochId =
        .ok (m.current.storage.epochs epochId) := by
      rw [requireEpoch, revertIf, if_neg (by exact eligible.published)]
      rfl
    have sent := sendValue_ok (w := m.current) (a := claim.amount) accepts (by omega)
    exact ⟨_, (), by simp [entered], (), by simp [eligible.unpaused], _, found, (), account, (),
      positive, (), eligible.started, (), eligible.unfinished, (), by simp [eligible.unclaimed], _,
      eligible.proof, (), ⟨rfl, rfl⟩, _, (BitVec.toNat_add_of_lt (by omega)).symm, _,
      (BitVec.toNat_add_of_lt (by omega)).symm, _, sent, rfl⟩

/-- A claim does not revert, whatever its recipient does before it accepts the payment, as long
as nothing that is hashed meanwhile collides. -/
def ClaimSucceeds (cfg : Config) (m : Machine) (epochId : Word) (claim : Claim) : Prop :=
  ∃ w, beginClaim cfg epochId claim m.current = .ok w ∧
    ∀ labels m', Run (step cfg) Free labels ⟨w, ⟨.claim epochId claim, m.current⟩ :: m.stack⟩ m' →
      m'.stack = ⟨.claim epochId claim, m.current⟩ :: m.stack →
      CollisionFree (paidEncodings m'.current) →
      ∃ w', endClaim epochId claim m'.current = .ok w'

theorem Reachable.claimSucceeds_iff (reached : Reachable cfg m) (idle : m.stack = [])
    (accepts : claim.account ≠ cfg.self)
    (free : CollisionFree (paidEncodings m.current ++ proofEncodings epochId claim)) :
    ClaimSucceeds cfg m epochId claim ↔
      Eligible m.current epochId claim ∧ claim.account ≠ 0 ∧ claim.amount ≠ 0 := by
  rw [← reached.beginClaim_iff idle accepts free]
  constructor
  · rintro ⟨w, begun, -⟩
    exact ⟨w, begun⟩
  · rintro ⟨w, begun⟩
    refine ⟨w, begun, fun labels m' run _ free' => ?_⟩
    have opened : step cfg m (.claim epochId claim) =
        some ⟨w, ⟨.claim epochId claim, m.current⟩ :: m.stack⟩ := by
      simp only [step, Machine.begin, begun]
    have reached' : Reachable cfg m' :=
      Transition.Reachable.run (Transition.Reachable.next reached opened) run
    exact @Solvent.resume_ok cfg m'.current (reached'.solvent free') (.claim epochId claim)

end Claiming

section Clawing

variable {cfg : Config} {m : Machine} {sender : Address} {epochId amount : Word}

/-- A clawback of the amount does not revert, whatever the treasury does before it accepts the
payment, as long as nothing that is hashed meanwhile collides. -/
def ClawbackSucceeds (cfg : Config) (m : Machine) (sender : Address) (epochId amount : Word) :
    Prop :=
  ∃ w, beginClawback cfg sender epochId m.current = .ok (amount, w) ∧
    ∀ labels m', Run (step cfg) Free labels
        ⟨w, ⟨.clawback sender epochId amount, m.current⟩ :: m.stack⟩ m' →
      m'.stack = ⟨.clawback sender epochId amount, m.current⟩ :: m.stack →
      CollisionFree (paidEncodings m'.current) →
      ∃ w', endClawback cfg sender epochId amount m'.current = .ok w'

omit [Keccak] in
/-- What is left of an epoch can be added to what was clawed back, and the balance covers it. -/
theorem Solvent.beginClawback_iff {w : World} (solvent : Solvent w)
    (unguarded : w.storage.entered = false) (elsewhere : cfg.treasury ≠ cfg.self) :
    (∃ w', beginClawback cfg sender epochId w = .ok (amount, w')) ↔
      w.storage.hasRole .clawback sender = true ∧ w.storage.paused = false ∧
      (∃ available, clawbackAvailableAt cfg w.storage epochId = .ok available ∧
        available ≤ w.now) ∧
      remainingForEpoch w.storage epochId = .ok amount ∧ amount ≠ 0 := by
  simp only [beginClawback, onlyRole, nonReentrant, whenNotPaused, clawbackAvailableAt,
    remainingForEpoch, bind_eq_ok, revertIf_eq_ok, orRevert_eq_ok, pure_eq_ok, BitVec.not_lt,
    Bool.not_eq_false, Bool.not_eq_true, Prod.mk.injEq]
  constructor
  · rintro ⟨_, -, role, -, -, -, unpaused, epoch, found, available, sum, -, ready, _, left, -,
      positive, -, -, -, -, -, -, rfl, -⟩
    exact ⟨role, unpaused, ⟨available, ⟨epoch, found, sum⟩, ready⟩, ⟨epoch, found, left⟩, positive⟩
  · rintro ⟨role, unpaused, ⟨available, ⟨epoch, found, sum⟩, ready⟩, ⟨_, found', left⟩, positive⟩
    cases found.symm.trans found'
    obtain ⟨rfl, -⟩ := requireEpoch_effect found
    obtain ⟨_, left', total⟩ := solvent.remaining_ok epochId
    cases left.symm.trans left'
    have totals := solvent.totals_add_le (e := epochId) total.le
    have conserved := solvent.conserved
    have fits := (w.storage.epochs epochId).funded.isLt
    have fits' := w.storage.totalFunded.isLt
    have sent := sendValue_ok (w := w) (a := amount) elsewhere (by omega)
    simp only [checkedAdd_eq_some] at sum ⊢
    exact ⟨_, (), role, (), unguarded, (), unpaused, _, found, available, sum, (), ready, amount,
      left, (), positive, _, (BitVec.toNat_add_of_lt (by omega)).symm, _,
      (BitVec.toNat_add_of_lt (by omega)).symm, _, sent, rfl, rfl⟩

/-- In a reachable state between transactions, the views tell whether a clawback is paid and how
much: it needs the role, no pause, the time that `clawbackAvailableAt` names, and something that
`remainingForEpoch` still shows. -/
theorem clawback_succeeds_iff (reached : Reachable cfg m) (idle : m.stack = [])
    (elsewhere : cfg.treasury ≠ cfg.self) (free : CollisionFree (paidEncodings m.current)) :
    ClawbackSucceeds cfg m sender epochId amount ↔
      m.current.storage.hasRole .clawback sender = true ∧ m.current.storage.paused = false ∧
      (∃ available, clawbackAvailableAt cfg m.current.storage epochId = .ok available ∧
        available ≤ m.current.now) ∧
      remainingForEpoch m.current.storage epochId = .ok amount ∧ amount ≠ 0 := by
  rw [← (reached.solvent free).beginClawback_iff (reached.unguarded idle) elsewhere]
  constructor
  · rintro ⟨w, begun, -⟩
    exact ⟨w, begun⟩
  · rintro ⟨w, begun⟩
    refine ⟨w, begun, fun labels m' run _ free' => ?_⟩
    have opened : step cfg m (.clawback sender epochId) =
        some ⟨w, ⟨.clawback sender epochId amount, m.current⟩ :: m.stack⟩ := by
      simp only [step, Machine.begin, begun]
    have reached' : Reachable cfg m' :=
      Transition.Reachable.run (Transition.Reachable.next reached opened) run
    exact (reached'.solvent free').resume_ok (.clawback sender epochId amount)

end Clawing

omit [Keccak] in
theorem clawback_succeeds_iff_demo :
    letI := Demo.keccak
    ∃ m, Reachable Demo.cfg m ∧ ClawbackSucceeds Demo.cfg m 4 1 5 := by
  let := Demo.keccak
  obtain ⟨m, run, evaluated⟩ := run_of_execute_any
    (show (execute (step Demo.cfg) (Demo.labels.take 7) Demo.start).any (fun m =>
      m.stack.length = 0 ∧ CollisionFree (paidEncodings m.current) ∧
        m.current.storage.hasRole .clawback 4 = true ∧ m.current.storage.paused = false ∧
        clawbackAvailableAt Demo.cfg m.current.storage 1 = .ok 30 ∧ 30 ≤ m.current.now ∧
        remainingForEpoch m.current.storage 1 = .ok 5) by decide +kernel)
  obtain ⟨idle, free, role, unpaused, available, ready, left⟩ := of_decide_eq_true evaluated
  have reached : Reachable Demo.cfg m := ⟨_, _, Demo.start_initial, run⟩
  exact ⟨m, reached, (clawback_succeeds_iff reached (List.length_eq_zero_iff.mp idle) (by decide)
    free).mpr ⟨role, unpaused, ⟨30, available, ready⟩, left, by decide⟩⟩

end Torium.Rewards
