import Torium.Rewards.Machine

/-!
# What a step of the distributor can do

Every step is described once, by the rules of the call machine: what happens
between calls, what opens a call and what closes it with success. The conditions
under which a function gets through are stated over natural numbers, so no later
argument looks at the code or at the width of a word again.
-/

namespace Torium.Rewards

open Evm CallStack Transition

/-- The conditions under which `publishEpoch` succeeds up to its accounting event. -/
structure Publishable (cfg : Config) (w : World) (p : Publication)
    (nextEpochId totalFunded : Word) : Prop where
  id : p.epochId = w.storage.nextEpochId
  root : p.rootHash ≠ 0
  unused : w.storage.usedRootHashes p.rootHash = false
  funded : p.rootSum ≠ 0
  start : w.now.toNat + cfg.publicationDelay.toNat ≤ p.claimStart.toNat
  window : p.claimStart.toNat < p.claimEnd.toNat
  next : w.storage.nextEpochId.toNat + 1 = nextEpochId.toNat
  total : w.storage.totalFunded.toNat + p.rootSum.toNat = totalFunded.toNat
  fits : w.balance.toNat + p.rootSum.toNat < 2 ^ 256

/-- The conditions under which `claim` reaches its payout. -/
structure Claimable [Keccak] (w : World) (epochId : Word) (claim : Claim)
    (epochClaimed totalClaimed balance : Word) : Prop where
  free : w.storage.entered = false
  published : (w.storage.epochs epochId).rootHash ≠ 0
  positive : claim.amount ≠ 0
  started : (w.storage.epochs epochId).claimStart.toNat ≤ w.now.toNat
  unfinished : w.now.toNat < (w.storage.epochs epochId).claimEnd.toNat
  unclaimed : isClaimed w.storage epochId claim.index = false
  proof : processProof epochId claim.index claim.account claim.amount claim.proof =
    .ok ((w.storage.epochs epochId).rootHash, (w.storage.epochs epochId).funded)
  epoch : (w.storage.epochs epochId).claimed.toNat + claim.amount.toNat = epochClaimed.toNat
  total : w.storage.totalClaimed.toNat + claim.amount.toNat = totalClaimed.toNat
  paid : balance.toNat + claim.amount.toNat = w.balance.toNat

/-- The conditions under which `clawback` reaches its payout. -/
structure Clawable (cfg : Config) (w : World)
    (epochId amount epochClawed totalClawed balance : Word) :
    Prop where
  free : w.storage.entered = false
  published : (w.storage.epochs epochId).rootHash ≠ 0
  ready : (w.storage.epochs epochId).claimEnd.toNat + cfg.clawbackDelay.toNat ≤ w.now.toNat
  rest : (w.storage.epochs epochId).claimed.toNat + (w.storage.epochs epochId).clawed.toNat +
    amount.toNat = (w.storage.epochs epochId).funded.toNat
  positive : amount ≠ 0
  epoch : (w.storage.epochs epochId).clawed.toNat + amount.toNat = epochClawed.toNat
  total : w.storage.totalClawed.toNat + amount.toNat = totalClawed.toNat
  paid : balance.toNat + amount.toNat = w.balance.toNat

/-- Events that no statement about epochs and claims is about. -/
def Event.quiet : Event → Bool
  | .accountingReconciled _ _ _ _ _ | .paused _ | .unpaused _ => true
  | _ => false

/-- What happens between calls. -/
inductive Act (cfg : Config) : List (Open Frame World) → World → World → Prop where
  | block {w} (timestamp) : w.now.toNat ≤ timestamp.toNat →
      Act cfg [] w { w with now := timestamp }
  | force {stack w} (value) : w.balance.toNat + value.toNat < 2 ^ 256 →
      Act cfg stack w { w with balance := w.balance + value, forced := w.forced + value.toNat }
  | setRoles {stack w} (hasRole) :
      Act cfg stack w { w with storage := { w.storage with hasRole := hasRole } }
  | setPaused {stack w} (paused) (event) : event.quiet →
      Act cfg stack w ({ w with storage := { w.storage with paused := paused } }.emit event)
  | publish {stack w} (sender p nextEpochId totalFunded accounting) :
      Publishable cfg w p nextEpochId totalFunded → accounting.quiet →
      Act cfg stack w (((w.publish p nextEpochId totalFunded).emit
        (.epochPublished p.epochId p.rootHash sender p.rootSum p.claimStart p.claimEnd)).emit
          accounting)

/-- How a call opens. -/
inductive Call [Keccak] (cfg : Config) : World → Frame → World → Prop where
  | claim {w} (epochId claim epochClaimed totalClaimed balance) :
      Claimable w epochId claim epochClaimed totalClaimed balance →
      Call cfg w (.claim epochId claim) (w.payClaim epochId claim epochClaimed totalClaimed balance)
  | clawback {w} (sender epochId amount epochClawed totalClawed balance) :
      Clawable cfg w epochId amount epochClawed totalClawed balance →
      Call cfg w (.clawback sender epochId amount)
        (w.payClawback epochId epochClawed totalClawed balance)
  | other {w} : Call cfg w .other w

/-- How a call closes with success. -/
inductive Commit (cfg : Config) : Frame → World → World → Prop where
  | claim {w} (epochId claim accounting) : accounting.quiet →
      Commit cfg (.claim epochId claim) w
        ((w.emit (.rewardClaimed epochId claim.index claim.account claim.amount
          (w.storage.epochs epochId).claimed w.storage.totalClaimed)).emit accounting).release
  | clawback {w} (sender epochId amount accounting) : accounting.quiet →
      Commit cfg (.clawback sender epochId amount) w
        ((w.emit (.epochClawedBack epochId sender cfg.treasury amount
          (w.storage.epochs epochId).clawed w.storage.totalClawed)).emit accounting).release
  | other {w} : Commit cfg .other w w

def rules [Keccak] (cfg : Config) : Rules Frame World where
  act := Act cfg
  call := Call cfg
  commit := Commit cfg

variable {epochId : Word}

theorem emitAccounting_effect {w w' : World} {epochOutstanding : Word}
    (accounted : emitAccounting w epochId epochOutstanding = .ok w') :
    ∃ accounting : Event, accounting.quiet ∧ w' = w.emit accounting := by
  simp only [emitAccounting, bind_eq_ok, pure_eq_ok] at accounted
  obtain ⟨outstanding, -, surplus, -, rfl⟩ := accounted
  exact ⟨_, rfl, rfl⟩

theorem sendValue_effect {cfg : Config} {w : World} {recipient : Address} {amount balance : Word}
    (sent : sendValue cfg w recipient amount = .ok balance) :
    balance.toNat + amount.toNat = w.balance.toNat := by
  simp only [sendValue, bind_eq_ok, revertIf_eq_ok, pure_eq_ok, not_or, BitVec.not_lt] at sent
  obtain ⟨-, ⟨-, enough⟩, rfl⟩ := sent
  exact checkedSub_eq_some.mp (if_pos enough)

theorem requireEpoch_effect {s : Storage} {epoch : Epoch}
    (found : requireEpoch s epochId = .ok epoch) :
    s.epochs epochId = epoch ∧ (s.epochs epochId).rootHash ≠ 0 := by
  simp only [requireEpoch, bind_eq_ok, revertIf_eq_ok, pure_eq_ok] at found
  obtain ⟨-, published, rfl⟩ := found
  exact ⟨rfl, published⟩

/-- The two checked subtractions of the accounting functions. -/
theorem checkedSub_twice {total first second rest unclaimed : Word}
    (hfirst : checkedSub total first = some unclaimed)
    (hsecond : checkedSub unclaimed second = some rest) :
    first.toNat + second.toNat + rest.toNat = total.toNat := by
  have := checkedSub_eq_some.mp hfirst
  have := checkedSub_eq_some.mp hsecond
  omega

theorem remaining_effect {epoch : Epoch} {amount : Word} (rest : remaining epoch = .ok amount) :
    epoch.claimed.toNat + epoch.clawed.toNat + amount.toNat = epoch.funded.toNat := by
  simp only [remaining, bind_eq_ok, orRevert_eq_ok] at rest
  obtain ⟨unclaimed, first, second⟩ := rest
  exact checkedSub_twice first second

section Functions

variable {cfg : Config} {stack : List (Open Frame World)} {w w' : World} {sender : Address}

theorem storeEpoch_effect {value : Word} {p : Publication}
    (fits : w.balance.toNat + value.toNat < 2 ^ 256)
    (stored : storeEpoch cfg sender value p w = .ok w') :
    ∃ nextEpochId totalFunded, Publishable cfg w p nextEpochId totalFunded ∧
      w' = (w.publish p nextEpochId totalFunded).emit
        (.epochPublished p.epochId p.rootHash sender p.rootSum p.claimStart p.claimEnd) := by
  simp only [storeEpoch, onlyRole, whenNotPaused, bind_eq_ok, revertIf_eq_ok, orRevert_eq_ok,
    checkedAdd_eq_some, pure_eq_ok, not_not, not_or, Nat.not_lt, Nat.not_le, BitVec.le_def,
    BitVec.lt_def, toNat_widen] at stored
  obtain ⟨-, -, -, -, -, id, -, root, -, unused, -, ⟨funded, -⟩, -, same, minimumStart, early, -,
    late, -, window, nextEpochId, next, totalFunded, total, rfl⟩ := stored
  subst same
  refine ⟨nextEpochId, totalFunded, ?_, rfl⟩
  exact {
    id := id
    root := root
    unused := by simpa using unused
    funded := funded
    start := early ▸ late
    window := window
    next := by simpa using next
    total := total
    fits := fits }

theorem publishEpoch_effect {value : Word} {p : Publication}
    (fits : w.balance.toNat + value.toNat < 2 ^ 256)
    (published : publishEpoch cfg sender value p w = .ok w') : Act cfg stack w w' := by
  obtain ⟨_, stored, accounted⟩ := bind_eq_ok.mp published
  obtain ⟨nextEpochId, totalFunded, ready, rfl⟩ := storeEpoch_effect fits stored
  obtain ⟨accounting, quiet, rfl⟩ := emitAccounting_effect accounted
  exact .publish sender p nextEpochId totalFunded accounting ready quiet

theorem setPaused_effect {paused : Bool} {unexpected : Error} {event : Address → Event}
    (quiet : (event sender).quiet) (done : setPaused paused unexpected event sender w = .ok w') :
    Act cfg stack w w' := by
  simp only [setPaused, onlyRole, bind_eq_ok, revertIf_eq_ok, pure_eq_ok] at done
  obtain ⟨-, -, -, -, rfl⟩ := done
  exact .setPaused paused _ quiet

theorem beginClaim_effect [Keccak] {claim : Claim}
    (begun : beginClaim cfg epochId claim w = .ok w') :
    Call cfg w (.claim epochId claim) w' := by
  simp only [beginClaim, nonReentrant, whenNotPaused, bind_eq_ok, revertIf_eq_ok, orRevert_eq_ok,
    checkedAdd_eq_some, pure_eq_ok, not_or, not_not, Nat.not_lt, Nat.not_le, BitVec.le_def,
    BitVec.lt_def, toNat_widen] at begun
  obtain ⟨-, free, -, -, epoch, found, -, -, -, positive, -, started, -, unfinished, -, unclaimed,
    ⟨rootHash, rootSum⟩, proof, -, ⟨rfl, rfl⟩, epochClaimed, claimed, totalClaimed, total, balance,
    sent, rfl⟩ := begun
  obtain ⟨rfl, published⟩ := requireEpoch_effect found
  refine .claim epochId claim epochClaimed totalClaimed balance ?_
  exact {
    free := by simpa using free
    published := published
    positive := positive
    started := started
    unfinished := unfinished
    unclaimed := by simpa using unclaimed
    proof := proof
    epoch := claimed
    total := total
    paid := sendValue_effect sent }

theorem beginClawback_effect [Keccak] {amount : Word}
    (begun : beginClawback cfg sender epochId w = .ok (amount, w')) :
    Call cfg w (.clawback sender epochId amount) w' := by
  simp only [beginClawback, onlyRole, nonReentrant, whenNotPaused, bind_eq_ok, revertIf_eq_ok,
    orRevert_eq_ok, checkedAdd_eq_some, pure_eq_ok, BitVec.not_lt, BitVec.le_def, toNat_widen,
    Prod.mk.injEq] at begun
  obtain ⟨-, -, -, free, -, -, epoch, found, availableAt, available, -, ready, amount, rest, -,
    positive, epochClawed, clawed, totalClawed, total, balance, sent, rfl, rfl⟩ := begun
  obtain ⟨rfl, published⟩ := requireEpoch_effect found
  refine .clawback sender epochId amount epochClawed totalClawed balance ?_
  exact {
    free := by simpa using free
    published := published
    ready := available ▸ ready
    rest := remaining_effect rest
    positive := positive
    epoch := clawed
    total := total
    paid := sendValue_effect sent }

theorem resume_effect {frame : Frame} (resumed : resume cfg frame w = .ok w') :
    Commit cfg frame w w' := by
  cases frame with
  | claim epochId claim =>
    simp only [resume, endClaim, bind_eq_ok, pure_eq_ok] at resumed
    obtain ⟨_, -, _, accounted, rfl⟩ := resumed
    obtain ⟨accounting, quiet, rfl⟩ := emitAccounting_effect accounted
    exact .claim epochId claim accounting quiet
  | clawback sender epochId amount =>
    simp only [resume, endClawback, bind_eq_ok, pure_eq_ok] at resumed
    obtain ⟨_, accounted, rfl⟩ := resumed
    obtain ⟨accounting, quiet, rfl⟩ := emitAccounting_effect accounted
    exact .clawback sender epochId amount accounting quiet
  | other =>
    obtain rfl := pure_eq_ok.mp resumed
    exact .other

end Functions

variable [Keccak] {cfg : Config} {m m' : Machine}

theorem attempt_obeys {result : Except Error World}
    (effect : ∀ {w}, result = .ok w → Act cfg m.stack m.current w) :
    Step (rules cfg) m (m.attempt result) := by
  cases result with
  | error e => exact .stay
  | ok w => exact .act (effect rfl)

theorem begin_obeys {frame : Frame} {result : Except Error World}
    (effect : ∀ {w}, result = .ok w → Call cfg m.current frame w) :
    Step (rules cfg) m (m.begin frame result) := by
  cases result with
  | error e => exact .stay
  | ok w => exact .call (effect rfl)

theorem leave_obeys {success : Bool} (taken : leave cfg success m = some m') :
    Step (rules cfg) m m' := by
  obtain ⟨w, stack⟩ := m
  cases stack with
  | nil => exact absurd taken nofun
  | cons o stack =>
    simp only [leave] at taken
    split at taken
    · rename_i resumed
      obtain rfl := Option.some.inj taken
      exact .commit (resume_effect resumed)
    · obtain rfl := Option.some.inj taken
      exact .rollback

/-- Every step of the machine obeys the rules. -/
theorem step_obeys {l : Label} (taken : step cfg m l = some m') : Step (rules cfg) m m' := by
  cases l with
  | block timestamp =>
    simp only [step, Option.ite_none_right_eq_some, Option.some.injEq] at taken
    obtain ⟨⟨empty, later⟩, rfl⟩ := taken
    obtain ⟨w, stack⟩ := m
    obtain rfl := List.isEmpty_iff.mp empty
    exact .act (.block timestamp (BitVec.le_def.mp later))
  | force value =>
    simp only [step, Option.ite_none_right_eq_some, Option.some.injEq] at taken
    obtain ⟨fits, rfl⟩ := taken
    exact .act (.force value fits)
  | setRoles hasRole =>
    obtain rfl := Option.some.inj taken
    exact .act (.setRoles hasRole)
  | publishEpoch sender value publication =>
    simp only [step, Option.ite_none_right_eq_some, Option.some.injEq] at taken
    obtain ⟨fits, rfl⟩ := taken
    exact attempt_obeys (publishEpoch_effect fits)
  | pause sender =>
    obtain rfl := Option.some.inj taken
    exact attempt_obeys (setPaused_effect rfl)
  | unpause sender =>
    obtain rfl := Option.some.inj taken
    exact attempt_obeys (setPaused_effect rfl)
  | claim epochId claim =>
    obtain rfl := Option.some.inj taken
    exact begin_obeys beginClaim_effect
  | clawback sender epochId =>
    simp only [step] at taken
    split at taken
    · rename_i amount w begun
      obtain rfl := Option.some.inj taken
      exact .call (beginClawback_effect begun)
    · obtain rfl := Option.some.inj taken
      exact .stay
  | enter =>
    obtain rfl := Option.some.inj taken
    exact .call .other
  | leave success => exact leave_obeys taken

/-- An assertion that holds at deployment and is preserved by the rules holds in
every reachable state, also in the worlds that open calls remember. -/
theorem Reachable.holds {known I : Assertion Frame World} (reached : Reachable cfg m)
    (sure : ∀ {m}, Reachable cfg m → Holds known m) (initial : ∀ {m}, Initial cfg m → Holds I m)
    (preserved : Preserved (rules cfg) known I) : Holds I m := by
  obtain ⟨m₀, ls, start, run⟩ := reached
  have both := run.invariant (I := fun m => Reachable cfg m ∧ Holds I m)
    ⟨.start start, initial start⟩ fun holds _ taken =>
      ⟨holds.1.next taken, preserved.step (step_obeys taken) (sure holds.1) holds.2⟩
  exact both.2

end Torium.Rewards
