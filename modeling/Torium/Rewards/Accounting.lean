import Mathlib.Algebra.Order.BigOperators.Group.Finset
import Torium.Rewards.Ledger

/-!
# Solvency and accounting

The three totals are the sums over all epochs and the balance is what is owed
plus what was forced in. These equations hold in every state, also inside a
callback, because each checked addition keeps both sides. That an epoch never
owes more than it was funded with is different: in the middle of a claim nothing
in the code has checked it yet, so it rests on the soundness of the Merkle-sum
proofs, and only there the hash function matters.
-/

namespace Torium.Rewards

open Evm CallStack Transition

/-- A sum over a table after one entry was replaced. -/
theorem sum_update {α β : Type} [Fintype α] [DecidableEq α] (f : β → Nat) (table : α → β) (a : α)
    (b : β) : (∑ x, f (Function.update table a b x)) + f (table a) = (∑ x, f (table x)) + f b := by
  have split (g : α → Nat) := Finset.add_sum_erase Finset.univ g (Finset.mem_univ a)
  rw [← split (fun x => f (Function.update table a b x)), ← split (fun x => f (table x)),
    Function.update_self]
  have rest : ∑ x ∈ Finset.univ.erase a, f (Function.update table a b x) =
      ∑ x ∈ Finset.univ.erase a, f (table x) :=
    Finset.sum_congr rfl fun x member => by
      rw [Function.update_of_ne (Finset.ne_of_mem_erase member)]
  omega

/-- The equations between the totals, the epochs and the balance. -/
structure Accounts (w : World) : Prop where
  funded : w.storage.totalFunded.toNat = ∑ e, (w.storage.epochs e).funded.toNat
  claimed : w.storage.totalClaimed.toNat = ∑ e, (w.storage.epochs e).claimed.toNat
  clawed : w.storage.totalClawed.toNat = ∑ e, (w.storage.epochs e).clawed.toNat
  conserved : w.storage.totalFunded.toNat + w.forced =
    w.balance.toNat + w.storage.totalClaimed.toNat + w.storage.totalClawed.toNat

namespace Accounts

variable {cfg : Config} {w w' : World}

theorem publish (accounts : Accounts w) (registered : Registered w.storage) {p : Publication}
    {next total : Word} (ready : Publishable cfg w p next total) :
    Accounts (w.publish p next total) := by
  have blank := registered.blank _ (ready.id ▸ registered.not_published_next)
  have update (f : Epoch → Nat) := sum_update f w.storage.epochs p.epochId
    { rootHash := p.rootHash, funded := p.rootSum, claimStart := p.claimStart,
      claimEnd := p.claimEnd }
  rw [blank] at update
  have funded := update (·.funded.toNat)
  have claimed := update (·.claimed.toNat)
  have clawed := update (·.clawed.toNat)
  obtain ⟨funded', claimed', clawed', conserved⟩ := accounts
  have taken : (w.balance + p.rootSum).toNat = w.balance.toNat + p.rootSum.toNat :=
    BitVec.toNat_add_of_lt ready.fits
  have added := ready.total
  have zero : (0 : Word).toNat = 0 := rfl
  dsimp only at funded claimed clawed
  refine ⟨?_, ?_, ?_, ?_⟩ <;> dsimp only [World.publish] <;> omega

theorem payClaim [Keccak] (accounts : Accounts w) {epochId : Word} {claim : Claim}
    {epochClaimed totalClaimed balance : Word}
    (ready : Claimable w epochId claim epochClaimed totalClaimed balance) :
    Accounts (w.payClaim epochId claim epochClaimed totalClaimed balance) := by
  have update (f : Epoch → Nat) := sum_update f w.storage.epochs epochId
    { w.storage.epochs epochId with claimed := epochClaimed }
  have funded := update (·.funded.toNat)
  have claimed := update (·.claimed.toNat)
  have clawed := update (·.clawed.toNat)
  obtain ⟨funded', claimed', clawed', conserved⟩ := accounts
  have epoch := ready.epoch
  have total := ready.total
  have paid := ready.paid
  dsimp only at funded claimed clawed
  refine ⟨?_, ?_, ?_, ?_⟩ <;> dsimp only [World.payClaim] <;> omega

theorem payClawback (accounts : Accounts w) {epochId amount epochClawed totalClawed balance : Word}
    (ready : Clawable cfg w epochId amount epochClawed totalClawed balance) :
    Accounts (w.payClawback epochId epochClawed totalClawed balance) := by
  have update (f : Epoch → Nat) := sum_update f w.storage.epochs epochId
    { w.storage.epochs epochId with clawed := epochClawed }
  have funded := update (·.funded.toNat)
  have claimed := update (·.claimed.toNat)
  have clawed := update (·.clawed.toNat)
  obtain ⟨funded', claimed', clawed', conserved⟩ := accounts
  have epoch := ready.epoch
  have total := ready.total
  have paid := ready.paid
  dsimp only at funded claimed clawed
  refine ⟨?_, ?_, ?_, ?_⟩ <;> dsimp only [World.payClawback] <;> omega

theorem force (accounts : Accounts w) {value : Word}
    (fits : w.balance.toNat + value.toNat < 2 ^ 256) :
    Accounts { w with balance := w.balance + value, forced := w.forced + value.toNat } := by
  refine ⟨accounts.funded, accounts.claimed, accounts.clawed, ?_⟩
  have conserved := accounts.conserved
  have taken : (w.balance + value).toNat = w.balance.toNat + value.toNat :=
    BitVec.toNat_add_of_lt fits
  dsimp only
  omega

theorem preserved [Keccak] (cfg : Config) :
    Preserved (rules cfg) (fun _ w => Registered w.storage) fun _ w => Accounts w where
  act := by
    intro stack w w' registered accounts does
    cases does with
    | block => exact ⟨accounts.1, accounts.2, accounts.3, accounts.4⟩
    | force _ fits => exact accounts.force fits
    | setRoles | setPaused => exact ⟨accounts.1, accounts.2, accounts.3, accounts.4⟩
    | publish _ _ _ _ _ ready =>
      have published := accounts.publish registered ready
      exact ⟨published.1, published.2, published.3, published.4⟩
  call := by
    intro stack w f w' _ accounts does
    cases does with
    | claim _ _ _ _ _ ready => exact accounts.payClaim ready
    | clawback _ _ _ _ _ _ ready => exact accounts.payClawback ready
    | other => exact accounts
  commit := by
    intro stack f saved w w' _ accounts does
    cases does <;> exact ⟨accounts.1, accounts.2, accounts.3, accounts.4⟩

end Accounts

theorem Reachable.accounts [Keccak] {cfg : Config} {m : Machine} (reached : Reachable cfg m) :
    Holds (fun _ w => Accounts w) m := by
  refine reached.holds Reachable.registered (fun initial => ?_) (Accounts.preserved cfg)
  obtain ⟨hasRole, balance, now, rfl⟩ := initial.world
  have zero : ∑ _e : Word, (0 : Word).toNat = 0 := Finset.sum_eq_zero fun _ _ => rfl
  refine ⟨zero.symm, zero.symm, zero.symm, ?_⟩
  change 0 + balance.toNat = balance.toNat + 0 + 0
  omega

/-! ## Solvency -/

/-- The equations, and no epoch that owes more than it was funded with. -/
structure Solvent (w : World) : Prop extends Accounts w where
  covered (e : Word) : (w.storage.epochs e).claimed.toNat + (w.storage.epochs e).clawed.toNat ≤
    (w.storage.epochs e).funded.toNat

/-- Two checked subtractions succeed when their sum fits. -/
theorem subtract_twice {a b c : Word} (fits : b.toNat + c.toNat ≤ a.toNat) :
    ∃ rest, (do
      let difference ← orRevert Error.arithmeticPanic (checkedSub a b)
      orRevert .arithmeticPanic (checkedSub difference c)) = .ok rest ∧
      b.toNat + c.toNat + rest.toNat = a.toNat := by
  obtain ⟨difference, first, _⟩ := checkedSub_isSome (a := a) (b := b) (by omega)
  obtain ⟨rest, second, _⟩ := checkedSub_isSome (a := difference) (b := c) (by omega)
  refine ⟨rest, ?_, by omega⟩
  simp only [bind_eq_ok, orRevert_eq_ok]
  exact ⟨difference, first, second⟩

namespace Solvent

variable {cfg : Config} {w : World}
variable (solvent : Solvent w)

include solvent

theorem emit (event : Event) : Solvent (w.emit event) :=
  ⟨⟨solvent.funded, solvent.claimed, solvent.clawed, solvent.conserved⟩, solvent.covered⟩

theorem publish (registered : Registered w.storage) {p : Publication} {next total : Word}
    (ready : Publishable cfg w p next total) :
    Solvent (w.publish p next total) := by
  refine ⟨solvent.toAccounts.publish registered ready, fun e => ?_⟩
  by_cases same : e = p.epochId
  · rw [same, publish_epochs_self]
    exact Nat.zero_le _
  · rw [publish_epochs_of_ne same]
    exact solvent.covered e

theorem totals : w.storage.totalClaimed.toNat + w.storage.totalClawed.toNat ≤
    w.storage.totalFunded.toNat := by
  rw [solvent.funded, solvent.claimed, solvent.clawed, ← Finset.sum_add_distrib]
  exact Finset.sum_le_sum fun e _ => solvent.covered e

theorem remaining_ok (e : Word) :
    ∃ amount, remaining (w.storage.epochs e) = .ok amount ∧
      (w.storage.epochs e).claimed.toNat + (w.storage.epochs e).clawed.toNat + amount.toNat =
        (w.storage.epochs e).funded.toNat :=
  subtract_twice (solvent.covered e)

theorem totalOutstanding_ok :
    ∃ outstanding, totalOutstanding w.storage = .ok outstanding ∧
      w.balance.toNat = outstanding.toNat + w.forced := by
  obtain ⟨outstanding, done, rest⟩ := subtract_twice solvent.totals
  have := solvent.conserved
  exact ⟨outstanding, done, by omega⟩

theorem forcedSurplus_ok :
    ∃ surplus, forcedSurplus w = .ok surplus ∧ surplus.toNat = w.forced := by
  obtain ⟨outstanding, done, balance⟩ := solvent.totalOutstanding_ok
  obtain ⟨surplus, subtracted, _⟩ :=
    checkedSub_isSome (a := w.balance) (b := outstanding) (by omega)
  refine ⟨surplus, ?_, by omega⟩
  simp only [forcedSurplus, bind_eq_ok, revertIf_eq_ok, orRevert_eq_ok, BitVec.lt_def]
  exact ⟨outstanding, done, (), by omega, subtracted⟩

theorem emitAccounting_ok (epochId epochOutstanding : Word) :
    ∃ w', emitAccounting w epochId epochOutstanding = .ok w' := by
  obtain ⟨outstanding, done, -⟩ := solvent.totalOutstanding_ok
  obtain ⟨surplus, done', -⟩ := solvent.forcedSurplus_ok
  simp only [emitAccounting, bind_eq_ok]
  exact ⟨_, outstanding, done, surplus, done', rfl⟩

/-- The part of a call after its payout never reverts. -/
theorem resume_ok (frame : Frame) : ∃ w', resume cfg frame w = .ok w' := by
  cases frame with
  | claim epochId claim =>
    obtain ⟨amount, rest, -⟩ := solvent.remaining_ok epochId
    obtain ⟨w', accounted⟩ := (solvent.emit (.rewardClaimed epochId claim.index claim.account
      claim.amount (w.storage.epochs epochId).claimed
      w.storage.totalClaimed)).emitAccounting_ok epochId amount
    simp only [resume, endClaim, bind_eq_ok]
    exact ⟨_, amount, rest, w', accounted, rfl⟩
  | clawback sender epochId amount =>
    obtain ⟨w', accounted⟩ := (solvent.emit (.epochClawedBack epochId sender cfg.treasury amount
      (w.storage.epochs epochId).clawed w.storage.totalClawed)).emitAccounting_ok epochId 0
    simp only [resume, endClawback, bind_eq_ok]
    exact ⟨_, w', accounted, rfl⟩
  | other => exact ⟨w, rfl⟩

end Solvent

/-- The encodings that were hashed for the claims paid so far. -/
def paidEncodings [Keccak] (w : World) : List (List Byte) :=
  w.paid.flatMap fun p => proofEncodings p.1 p.2

/-- The claims that were paid for one epoch. -/
def paidFor (w : World) (e : Word) : List Claim := (w.paid.filter (·.1 = e)).map (·.2)

theorem mem_paidFor {w : World} {e : Word} {claim : Claim} :
    claim ∈ paidFor w e ↔ (e, claim) ∈ w.paid := by
  simp only [paidFor, List.mem_map, List.mem_filter, decide_eq_true_eq]
  constructor
  · rintro ⟨p, ⟨paid, rfl⟩, rfl⟩
    exact paid
  · exact fun paid => ⟨(e, claim), ⟨paid, rfl⟩, rfl⟩

theorem proofEncodings_subset [Keccak] (w : World) (e : Word) :
    (paidFor w e).flatMap (proofEncodings e) ⊆ paidEncodings w := by
  intro encoding member
  obtain ⟨claim, paid, hashed⟩ := List.mem_flatMap.mp member
  exact List.mem_flatMap.mpr ⟨(e, claim), mem_paidFor.mp paid, hashed⟩

namespace Ledger

variable [Keccak] {w : World} (ledger : Ledger w) (e : Word)

include ledger

theorem distinct_paidFor : ((paidFor w e).map Claim.index).Nodup := by
  rw [paidFor, List.map_map]
  refine List.Nodup.of_map (fun index => (e, index)) ?_
  rw [List.map_map]
  refine (List.map_congr_left fun p member => ?_) ▸
    ledger.distinct.sublist (List.filter_sublist.map claimKey)
  obtain ⟨-, own⟩ := List.mem_filter.mp member
  rw [claimKey, of_decide_eq_true own]
  rfl

theorem total_paidFor : (w.storage.epochs e).claimed.toNat =
    ((paidFor w e).map (·.amount.toNat)).sum := by
  rw [ledger.total, paidFor, List.map_map]
  rfl

/-- The paid claims of one epoch were all accepted for its root, so they add up
to at most its funding. -/
theorem claimed_le_funded (free : CollisionFree (paidEncodings w)) :
    (w.storage.epochs e).claimed.toNat ≤ (w.storage.epochs e).funded.toNat := by
  rw [ledger.total_paidFor]
  have accepted (claim : Claim) (paid : claim ∈ paidFor w e) :
      claim.amount ≠ 0 ∧ processProof e claim.index claim.account claim.amount claim.proof =
        .ok ((w.storage.epochs e).rootHash, (w.storage.epochs e).funded) :=
    (ledger.accepted (e, claim) (mem_paidFor.mp paid)).2
  exact sum_amounts_le (ledger.distinct_paidFor e) (fun claim paid => (accepted claim paid).1)
    (fun claim paid => (accepted claim paid).2) (free.mono (proofEncodings_subset w e))

end Ledger

theorem Reachable.solvent [Keccak] {cfg : Config} {m : Machine} (reached : Reachable cfg m)
    (free : CollisionFree (paidEncodings m.current)) : Solvent m.current := by
  refine ⟨reached.accounts.top, fun e => ?_⟩
  by_cases clawed : (m.current.storage.epochs e).clawed = 0
  · rw [clawed]
    exact reached.ledger.top.claimed_le_funded e free
  · exact (reached.settled.top e clawed).2.le

/-- Solvency and accounting, in every state and inside every callback. The totals
are the sums over all epochs, no epoch owes more than its funding, and the
balance is the outstanding total plus everything that was forced in. The view
functions and every closing accounting event succeed. -/
theorem distributor_solvency [Keccak] (cfg : Config) (m : Machine) (reached : Reachable cfg m)
    (free : CollisionFree (paidEncodings m.current)) :
    m.current.storage.totalFunded.toNat = ∑ e, (m.current.storage.epochs e).funded.toNat ∧
    m.current.storage.totalClaimed.toNat = ∑ e, (m.current.storage.epochs e).claimed.toNat ∧
    m.current.storage.totalClawed.toNat = ∑ e, (m.current.storage.epochs e).clawed.toNat ∧
    (∀ e, (m.current.storage.epochs e).claimed.toNat + (m.current.storage.epochs e).clawed.toNat ≤
      (m.current.storage.epochs e).funded.toNat) ∧
    (∃ outstanding, totalOutstanding m.current.storage = .ok outstanding ∧
      m.current.balance.toNat = outstanding.toNat + m.current.forced) ∧
    (∃ surplus, forcedSurplus m.current = .ok surplus ∧ surplus.toNat = m.current.forced) ∧
    (∀ e, if Published m.current.storage e
      then ∃ rest, remainingForEpoch m.current.storage e = .ok rest
      else remainingForEpoch m.current.storage e = .error (.epochNotFound e)) ∧
    (∀ e outstanding, ∃ w, emitAccounting m.current e outstanding = .ok w) ∧
    (∀ o ∈ m.stack, ∃ w, resume cfg o.frame m.current = .ok w) ∧
    ∀ sender value p w, m.current.balance.toNat + value.toNat < 2 ^ 256 →
      storeEpoch cfg sender value p m.current = .ok w →
      ∃ w', publishEpoch cfg sender value p m.current = .ok w' := by
  have solvent := reached.solvent free
  refine ⟨solvent.funded, solvent.claimed, solvent.clawed, solvent.covered,
    solvent.totalOutstanding_ok, solvent.forcedSurplus_ok, fun e => ?_, solvent.emitAccounting_ok,
    fun o _ => solvent.resume_ok o.frame, fun sender value p w fits stored => ?_⟩
  · split
    · rename_i present
      obtain ⟨rest, done, -⟩ := solvent.remaining_ok e
      refine ⟨rest, ?_⟩
      simp only [remainingForEpoch, requireEpoch, bind_eq_ok, revertIf_eq_ok, pure_eq_ok]
      exact ⟨_, ⟨(), present, rfl⟩, done⟩
    · rename_i absent
      have unknown : (m.current.storage.epochs e).rootHash = 0 := not_not.mp absent
      simp [remainingForEpoch, requireEpoch, revertIf, unknown, bind, Except.bind]
  · obtain ⟨next, total, ready, rfl⟩ := storeEpoch_effect fits stored
    obtain ⟨w', accounted⟩ := ((solvent.publish reached.registered.top ready).emit
      (.epochPublished p.epochId p.rootHash sender p.rootSum p.claimStart
        p.claimEnd)).emitAccounting_ok p.epochId p.rootSum
    exact ⟨w', bind_eq_ok.mpr ⟨_, stored, accounted⟩⟩

theorem distributor_solvency_demo :
    letI := Demo.keccak
    ∃ m, Reachable Demo.cfg m ∧ m.stack.length = 1 ∧
      ∃ surplus, forcedSurplus m.current = .ok surplus ∧ surplus.toNat = m.current.forced := by
  let := Demo.keccak
  obtain ⟨m, run, evaluated⟩ := run_of_execute_any
    (show (execute (step Demo.cfg) (Demo.labels.take 5) Demo.start).any
      (fun m => m.stack.length = 1 ∧ CollisionFree (paidEncodings m.current)) by decide +kernel)
  obtain ⟨inside, free⟩ := of_decide_eq_true evaluated
  have reached : Reachable Demo.cfg m := ⟨_, _, Demo.start_initial, run⟩
  exact ⟨m, reached, inside, (distributor_solvency Demo.cfg m reached free).2.2.2.2.2.1⟩

end Torium.Rewards
