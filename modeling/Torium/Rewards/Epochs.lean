import Torium.Rewards.Effects

/-!
# Published epochs

Epochs are published under consecutive ids and each root hash is used once. What
an epoch was published with never changes, and an id that was not published yet
has the empty record.
-/

namespace Torium.Rewards

open Evm CallStack Transition Function

/-- The part of an epoch that its publication fixes. -/
def Epoch.terms (epoch : Epoch) : Bytes32 × Word × Uint64 × Uint64 :=
  (epoch.rootHash, epoch.funded, epoch.claimStart, epoch.claimEnd)

def Published (s : Storage) (epochId : Word) : Prop := (s.epochs epochId).rootHash ≠ 0

instance (s : Storage) (epochId : Word) : Decidable (Published s epochId) :=
  inferInstanceAs (Decidable (_ ≠ _))

theorem published_of_terms {s s' : Storage} {e : Word}
    (same : (s'.epochs e).terms = (s.epochs e).terms) : Published s' e ↔ Published s e := by
  rw [Published, Published, show (s'.epochs e).rootHash = _ from congrArg (·.1) same]
  rfl

section Worlds

variable (w : World) (event : Event)

@[simp] theorem emit_storage : (w.emit event).storage = w.storage := rfl

@[simp] theorem emit_logs : (w.emit event).logs = w.logs ++ [(w.now, event)] := rfl

end Worlds

section Terms

variable {w : World} {epochId e : Word} {claim : Claim} {p : Publication}
variable {epochTotal total balance next : Word}

theorem publish_epochs_of_ne (other : e ≠ p.epochId) :
    (w.publish p next total).storage.epochs e = w.storage.epochs e :=
  update_of_ne other _ _

theorem publish_epochs_self :
    (w.publish p next total).storage.epochs p.epochId =
      { rootHash := p.rootHash, funded := p.rootSum, claimStart := p.claimStart,
        claimEnd := p.claimEnd } :=
  update_self _ _ _

theorem payClaim_epochs_of_ne (other : e ≠ epochId) :
    (w.payClaim epochId claim epochTotal total balance).storage.epochs e = w.storage.epochs e :=
  update_of_ne other _ _

theorem payClaim_epochs_self :
    (w.payClaim epochId claim epochTotal total balance).storage.epochs epochId =
      { w.storage.epochs epochId with claimed := epochTotal } :=
  update_self _ _ _

theorem payClawback_epochs_of_ne (other : e ≠ epochId) :
    (w.payClawback epochId epochTotal total balance).storage.epochs e = w.storage.epochs e :=
  update_of_ne other _ _

theorem payClawback_epochs_self :
    (w.payClawback epochId epochTotal total balance).storage.epochs epochId =
      { w.storage.epochs epochId with clawed := epochTotal } :=
  update_self _ _ _

theorem payClaim_terms :
    ((w.payClaim epochId claim epochTotal total balance).storage.epochs e).terms =
      (w.storage.epochs e).terms := by
  by_cases same : e = epochId
  · rw [same, payClaim_epochs_self]
    rfl
  · rw [payClaim_epochs_of_ne same]

theorem payClawback_terms :
    ((w.payClawback epochId epochTotal total balance).storage.epochs e).terms =
      (w.storage.epochs e).terms := by
  by_cases same : e = epochId
  · rw [same, payClawback_epochs_self]
    rfl
  · rw [payClawback_epochs_of_ne same]

end Terms

/-- The ids and roots of the published epochs. -/
structure Registered (s : Storage) : Prop where
  positive : 1 ≤ s.nextEpochId.toNat
  published_iff (e : Word) : Published s e ↔ 1 ≤ e.toNat ∧ e.toNat < s.nextEpochId.toNat
  blank (e : Word) : ¬Published s e → s.epochs e = {}
  window (e : Word) : Published s e → (s.epochs e).claimStart.toNat < (s.epochs e).claimEnd.toNat
  used (e : Word) : Published s e → s.usedRootHashes (s.epochs e).rootHash = true
  distinct (e e' : Word) : Published s e → (s.epochs e).rootHash = (s.epochs e').rootHash → e = e'

variable {epochId : Word} {cfg : Config}

namespace Registered

variable {s s' : Storage} {w w' : World}

/-- Payouts keep all terms, and they only concern published epochs. -/
theorem of_terms (registered : Registered s) (next : s'.nextEpochId = s.nextEpochId)
    (roots : s'.usedRootHashes = s.usedRootHashes)
    (terms : ∀ e, (s'.epochs e).terms = (s.epochs e).terms)
    (blank : ∀ e, ¬Published s e → s'.epochs e = s.epochs e) : Registered s' := by
  have root (e) : (s'.epochs e).rootHash = (s.epochs e).rootHash := congrArg (·.1) (terms e)
  have start (e) : (s'.epochs e).claimStart = (s.epochs e).claimStart :=
    congrArg (·.2.2.1) (terms e)
  have finish (e) : (s'.epochs e).claimEnd = (s.epochs e).claimEnd :=
    congrArg (·.2.2.2) (terms e)
  have published (e) : Published s' e ↔ Published s e := published_of_terms (terms e)
  refine ⟨next ▸ registered.positive, fun e => ?_, fun e absent => ?_, fun e present => ?_,
    fun e present => ?_,
    fun e e' present same => ?_⟩
  · rw [published, next]
    exact registered.published_iff e
  · rw [published] at absent
    rw [blank e absent, registered.blank e absent]
  · rw [start, finish]
    exact registered.window e ((published e).mp present)
  · rw [roots, root]
    exact registered.used e ((published e).mp present)
  · rw [root, root] at same
    exact registered.distinct e e' ((published e).mp present) same

theorem not_published_next (registered : Registered s) : ¬Published s s.nextEpochId :=
  fun present => Nat.lt_irrefl _ ((registered.published_iff _).mp present).2

section Publish

variable {p : Publication} {next total : Word}

theorem published_publish_of_ne {e : Word} (other : e ≠ p.epochId) :
    Published (w.publish p next total).storage e ↔ Published w.storage e := by
  rw [Published, publish_epochs_of_ne other, Published]

variable (registered : Registered w.storage) (ready : Publishable cfg w p next total)

include registered ready

/-- A root that may be published is not the root of an earlier epoch. -/
theorem rootHash_ne {e : Word} (present : Published w.storage e) :
    (w.storage.epochs e).rootHash ≠ p.rootHash := by
  intro same
  have taken := registered.used e present
  rw [same, ready.unused] at taken
  exact Bool.false_ne_true taken

theorem published_publish_iff (e : Word) :
    Published (w.publish p next total).storage e ↔ 0 < e.toNat ∧ e.toNat < next.toNat := by
  have number : next.toNat = p.epochId.toNat + 1 := by rw [ready.id, ready.next]
  have range := registered.published_iff e
  rw [← ready.id] at range
  by_cases new : e = p.epochId
  · have positive := registered.positive
    rw [new, Published, publish_epochs_self, number]
    refine iff_of_true ready.root ⟨?_, Nat.lt_succ_self _⟩
    rw [ready.id]
    exact positive
  · have different : e.toNat ≠ p.epochId.toNat := BitVec.toNat_inj.not.mpr new
    rw [published_publish_of_ne new, range]
    omega

theorem publish_distinct {e e' : Word} (present : Published (w.publish p next total).storage e)
    (same : ((w.publish p next total).storage.epochs e).rootHash =
      ((w.publish p next total).storage.epochs e').rootHash) : e = e' := by
  by_cases new : e = p.epochId
  · by_cases new' : e' = p.epochId
    · rw [new, new']
    · rw [new, publish_epochs_self, publish_epochs_of_ne new'] at same
      have before : Published w.storage e' := by
        rw [Published, ← same]
        exact ready.root
      exact absurd same.symm (rootHash_ne registered ready before)
  · have before := (published_publish_of_ne new).mp present
    by_cases new' : e' = p.epochId
    · rw [new', publish_epochs_self, publish_epochs_of_ne new] at same
      exact absurd same (rootHash_ne registered ready before)
    · rw [publish_epochs_of_ne new, publish_epochs_of_ne new'] at same
      exact registered.distinct e e' before same

theorem publish :
    Registered (w.publish p next total).storage := by
  have number : next.toNat = p.epochId.toNat + 1 := by rw [ready.id, ready.next]
  have counter : (w.publish p next total).storage.nextEpochId = next := rfl
  refine ⟨counter ▸ number ▸ Nat.le_add_left _ _, published_publish_iff registered ready,
    fun e absent => ?_, fun e present => ?_, fun e present => ?_,
    fun e e' => publish_distinct registered ready⟩
  · by_cases new : e = p.epochId
    · rw [new, Published, publish_epochs_self] at absent
      exact absurd ready.root absent
    · rw [publish_epochs_of_ne new]
      exact registered.blank e ((published_publish_of_ne new).not.mp absent)
  · by_cases new : e = p.epochId
    · rw [new, publish_epochs_self]
      exact ready.window
    · rw [publish_epochs_of_ne new]
      exact registered.window e ((published_publish_of_ne new).mp present)
  · by_cases new : e = p.epochId
    · rw [new, publish_epochs_self]
      exact update_self _ _ _
    · rw [publish_epochs_of_ne new]
      have before := (published_publish_of_ne new).mp present
      exact (update_of_ne (rootHash_ne registered ready before) _ _).trans
        (registered.used e before)

end Publish

theorem payClaim (registered : Registered w.storage) {claim : Claim}
    {epochTotal total balance : Word} (present : Published w.storage epochId) :
    Registered (w.payClaim epochId claim epochTotal total balance).storage :=
  registered.of_terms rfl rfl (fun _ => payClaim_terms) fun _ absent =>
    payClaim_epochs_of_ne fun same => absent (same ▸ present)

theorem payClawback (registered : Registered w.storage) {epochTotal total balance : Word}
    (present : Published w.storage epochId) :
    Registered (w.payClawback epochId epochTotal total balance).storage :=
  registered.of_terms rfl rfl (fun _ => payClawback_terms) fun _ absent =>
    payClawback_epochs_of_ne fun same => absent (same ▸ present)

theorem preserved [Keccak] (cfg : Config) :
    Preserved (rules cfg) (fun _ _ => True) fun _ w => Registered w.storage where
  act := by
    intro stack w w' _ registered does
    cases does with
    | block | force => exact registered
    | setRoles | setPaused => exact registered.of_terms rfl rfl (fun _ => rfl) fun _ _ => rfl
    | publish _ _ _ _ _ ready => exact registered.publish ready
  call := by
    intro stack w f w' _ registered does
    cases does with
    | claim _ _ _ _ _ ready => exact registered.payClaim ready.published
    | clawback _ _ _ _ _ _ ready => exact registered.payClawback ready.published
    | other => exact registered
  commit := by
    intro stack f saved w w' _ registered does
    cases does with
    | claim | clawback => exact registered.of_terms rfl rfl (fun _ => rfl) fun _ _ => rfl
    | other => exact registered

end Registered

/-- A deployed storage has all defaults but its roles. -/
theorem deploy_storage {d : Deployment} {s : Storage} (deployed : deploy d = .ok (cfg, s)) :
    ∃ hasRole, s = { hasRole := hasRole } := by
  unfold deploy at deployed
  split_ifs at deployed
  cases deployed
  exact ⟨_, rfl⟩

/-- What every deployment starts from. -/
theorem Initial.world {m : Machine} (initial : Initial cfg m) :
    ∃ hasRole balance now, m =
      { current := { storage := { hasRole := hasRole }, balance := balance, now := now,
                     forced := balance.toNat } } := by
  obtain ⟨d, s, balance, now, deployed, rfl⟩ := initial
  obtain ⟨hasRole, rfl⟩ := deploy_storage deployed
  exact ⟨hasRole, balance, now, rfl⟩

theorem Reachable.registered [Keccak] {m : Machine} (reached : Reachable cfg m) :
    Holds (fun _ w => Registered w.storage) m := by
  refine reached.holds (fun _ => ?_) (fun initial => ?_)
    (Registered.preserved cfg)
  · exact HoldsOver.of_forall fun _ _ => trivial
  · obtain ⟨hasRole, balance, now, rfl⟩ := initial.world
    refine ⟨Nat.le_refl 1, fun e => ?_, fun _ _ => rfl, fun _ present => absurd rfl present,
      fun _ present => absurd rfl present, fun _ _ present => absurd rfl present⟩
    refine iff_of_false (fun present => present rfl) ?_
    change ¬(1 ≤ e.toNat ∧ e.toNat < 1)
    omega

/-- An epoch from which something was clawed back is past its delay and has
nothing left. -/
def Settled (cfg : Config) (w : World) : Prop :=
  ∀ e, (w.storage.epochs e).clawed ≠ 0 →
    (w.storage.epochs e).claimEnd.toNat + cfg.clawbackDelay.toNat ≤ w.now.toNat ∧
    (w.storage.epochs e).claimed.toNat + (w.storage.epochs e).clawed.toNat =
      (w.storage.epochs e).funded.toNat

namespace Settled

variable {w w' : World}

theorem payClaim [Keccak] (settled : Settled cfg w) {claim : Claim}
    {epochClaimed totalClaimed balance : Word}
    (ready : Claimable w epochId claim epochClaimed totalClaimed balance) :
    Settled cfg (w.payClaim epochId claim epochClaimed totalClaimed balance) := by
  intro e clawed
  by_cases same : e = epochId
  · -- A claim is in time, so nothing was clawed back from its epoch.
    subst same
    rw [payClaim_epochs_self] at clawed
    have past := (settled e clawed).1
    have := ready.unfinished
    omega
  · rw [payClaim_epochs_of_ne same] at clawed ⊢
    exact settled e clawed

theorem payClawback (settled : Settled cfg w) {amount epochClawed totalClawed balance : Word}
    (ready : Clawable cfg w epochId amount epochClawed totalClawed balance) :
    Settled cfg (w.payClawback epochId epochClawed totalClawed balance) := by
  intro e clawed
  by_cases same : e = epochId
  · subst same
    rw [payClawback_epochs_self]
    have := ready.rest
    have := ready.epoch
    exact ⟨ready.ready, by dsimp only; omega⟩
  · rw [payClawback_epochs_of_ne same] at clawed ⊢
    exact settled e clawed

theorem publish (settled : Settled cfg w) {p : Publication} {next total : Word} :
    Settled cfg (w.publish p next total) := by
  intro e clawed
  by_cases same : e = p.epochId
  · rw [same, publish_epochs_self] at clawed
    exact absurd rfl clawed
  · rw [publish_epochs_of_ne same] at clawed ⊢
    exact settled e clawed

theorem preserved [Keccak] (cfg : Config) :
    Preserved (rules cfg) (fun _ _ => True) fun _ w => Settled cfg w where
  act := by
    intro stack w w' _ settled does
    cases does with
    | block timestamp later =>
      intro e clawed
      obtain ⟨past, spent⟩ := settled e clawed
      exact ⟨past.trans later, spent⟩
    | force | setRoles | setPaused => exact settled
    | publish => exact settled.publish
  call := by
    intro stack w f w' _ settled does
    cases does with
    | claim _ _ _ _ _ ready => exact settled.payClaim ready
    | clawback _ _ _ _ _ _ ready => exact settled.payClawback ready
    | other => exact settled
  commit := by
    intro stack f saved w w' _ settled does
    cases does <;> exact settled

end Settled

theorem Reachable.settled [Keccak] {m : Machine} (reached : Reachable cfg m) :
    Holds (fun _ w => Settled cfg w) m := by
  refine reached.holds (fun _ => ?_) (fun initial => ?_) (Settled.preserved cfg)
  · exact HoldsOver.of_forall fun _ _ => trivial
  · obtain ⟨hasRole, balance, now, rfl⟩ := initial.world
    exact fun _ clawed => absurd rfl clawed

end Torium.Rewards
