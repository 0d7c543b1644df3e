import Torium.Faucet.Budget
import Torium.Faucet.Conduct
import Torium.Faucet.Payments
import Mathlib.Data.Multiset.Filter

/-!
# Who may let a request fail

The budget stays balanced because no request fails twice. A handler owns the request that
it has accepted until the queue takes it, the queue owns what is in it, and the worker
owns the request that it drives. The start-up owns all pending requests, since nothing
else runs then. Whoever lets a request fail gives it up.
-/

namespace Torium.Faucet

open Evm Concurrent Attempt
open Multiset (mem_add)

/-- What a thread may rely on. -/
inductive Duty where
  /-- No other thread runs and the queue is empty. -/
  | starting
  /-- The request was accepted and is not in the queue yet. -/
  | fresh (requestID : GoString)
  /-- The request has not failed. -/
  | drive (requestID : GoString)
  deriving DecidableEq

def Duty.requestID? : Duty → Option GoString
  | .starting => none
  | .fresh requestID | .drive requestID => some requestID

/-- The requests that somebody owns. -/
def claims (owned : Multiset Duty) (queue : List GoString) : Multiset GoString :=
  owned.filterMap Duty.requestID? + queue

/-- The request is known and still queued. -/
def Store.Queued (store : Store) (id : GoString) : Prop :=
  ∃ request, store.requests id = some request ∧ request.status = .queued

instance (store : Store) (id : GoString) : Decidable (store.Queued id) :=
  decidable_of_iff ((store.requests id).any fun request => request.status = .queued) (by
    simp [Store.Queued, Option.any_eq_true])

theorem Store.Queued.live {store : Store} {id : GoString} (queued : store.Queued id) :
    store.Live id := by
  obtain ⟨request, known, status⟩ := queued
  exact ⟨request, known, by rw [status]; rfl⟩

/-- A neutral operation writes no record. -/
theorem Operation.subject_of_neutral {operation : Operation} (neutral : operation.neutral = true) :
    operation.subject? = none := by
  cases operation <;> first | rfl | cases neutral

theorem Store.pendingRequests_nodup {s : Store} (keyed : s.Keyed) (ordered : s.Ordered) :
    (s.pendingRequests.map Request.id).Nodup := by
  have named : (s.order.filterMap s.requests).map Request.id =
      s.order.filter fun id => (s.requests id).isSome := by
    rw [List.map_filterMap, ← List.filterMap_eq_filter]
    refine List.filterMap_congr fun id _ => ?_
    cases known : s.requests id with
    | none => simp [known, Option.guard]
    | some request => simp [known, keyed id request known, Option.guard]
  have pending : ((s.order.filterMap s.requests).filter (·.status.isPending)).map Request.id
      |>.Sublist (s.order.filter fun id => (s.requests id).isSome) :=
    named ▸ List.filter_sublist.map Request.id
  have nodup := (ordered.nodup.filter _).sublist pending
  exact ((List.perm_insertionSort _ _).map Request.id).nodup_iff.mpr nodup

theorem Store.pendingRequests_live {s : Store} (keyed : s.Keyed) {request : Request}
    (pending : request ∈ s.pendingRequests) : s.Live request.id := by
  have member := (List.perm_insertionSort _ _).mem_iff.mp pending
  obtain ⟨listed, status⟩ := List.mem_filter.mp member
  obtain ⟨id, -, known⟩ := List.mem_filterMap.mp listed
  refine ⟨request, keyed id request known ▸ known, ?_⟩
  revert status
  cases request.status <;> decide

section Store

variable [EthText] {s : Store} {entry : Entry} {id : GoString}

/-- Submissions and confirmations are written to live records. -/
theorem Store.applyEntry_live (kind : entry.type = .txSubmitted ∨ entry.type = .txConfirmed)
    (live : s.Live id) : (s.applyEntry entry).1.Live id := by
  refine (s.applied entry).status.holds live fun new status => ?_
  obtain kind | kind := kind <;> rw [kind] at status <;> rw [← Option.some.inj status] <;> rfl

variable [Digest]

theorem Store.perform_live {call : Call} (live : s.Live id)
    (kind : (call.operation.draft s.profile).type = .txSubmitted ∨
      (call.operation.draft s.profile).type = .txConfirmed) : (s.perform call).1.Live id := by
  obtain alike | ⟨entry, error, drafted, -, journals, -⟩ := perform_cases (s := s) call
  · rw [Live, alike.requests]
    exact live
  · rw [← drafted] at kind
    rw [Live, journals.requests]
    exact applyEntry_live kind live

/-- `Accept` returns the record of the new request. -/
theorem Store.accept_returned {fault : Option GoString} {clientKey requestID : GoString}
    {address : Address} {at_ : Time} {accepted : Request}
    (returned : (s.accept fault clientKey address at_ requestID).2 = .request accepted false) :
    (s.accept fault clientKey address at_ requestID).1.requests requestID = some accepted := by
  revert returned
  simp only [Store.accept]
  split
  · split <;> rintro ⟨⟩
  · split_ifs
    · rintro ⟨⟩
    · split
      · rintro ⟨⟩
      · unfold recordAccepted
        split
        · rintro ⟨⟩
        · split
          next found =>
              intro returned
              cases returned
              exact found
          · rintro ⟨⟩

/-- A request that `Accept` returns as new is queued. -/
theorem Store.accept_queued {fault : Option GoString} {clientKey requestID : GoString}
    {address : Address} {at_ : Time} {accepted : Request} (fresh : s.requests requestID = none)
    (keyed : s.Keyed)
    (returned : (s.accept fault clientKey address at_ requestID).2 = .request accepted false) :
    accepted.id = requestID ∧
      (s.accept fault clientKey address at_ requestID).1.Queued requestID := by
  have known := accept_returned returned
  have named := perform_keyed keyed ⟨.accept clientKey address at_ requestID, fault⟩ _ _ known
  refine ⟨named, accepted, known, ?_⟩
  obtain alike | ⟨entry, error, drafted, -, journals, -⟩ :=
    perform_cases (s := s) ⟨.accept clientKey address at_ requestID, fault⟩
  · rw [← alike.requests] at fresh
    cases known.symm.trans fresh
  · obtain ⟨sameType, -, samePayload⟩ := Draft.mk.inj drafted
    have written := (s.applied entry).status
    rw [sameType] at written
    have after := congrFun journals.requests requestID
    obtain old | ⟨-, status⟩ := written.cases (after.symm.trans known)
    · cases fresh.symm.trans old
    · exact (Option.some.inj status).symm

end Store

/-- What holds of the store at any time. -/
structure Store.Regular [EthText] (profile : Profile) (store : Store) : Prop where
  faithful : store.Faithful profile
  keyed : store.Keyed
  ordered : store.Ordered

section Regular

variable [EthText] {profile : Profile} {s t : Store}

theorem Store.Regular.start : Store.Regular profile { journal := openJournal [], profile } :=
  ⟨.opened (show newStore (openJournal []) [] profile = .ok _ from rfl), nofun, .start⟩

theorem Store.Regular.perform [Digest] {call : Call} (regular : s.Regular profile)
    (fresh : call.operation.Fresh s) : (s.perform call).1.Regular profile :=
  ⟨regular.faithful.perform _, perform_keyed regular.keyed _, regular.ordered.perform fresh⟩

theorem Store.Regular.opened (regular : s.Regular profile)
    (opened : newStore (openJournal s.journal.entries) s.journal.entries profile = .ok t) :
    t.Regular profile := by
  have core : t.core = s.core := regular.faithful.reopened opened
  refine ⟨.opened opened, fun id request known => ?_, regular.ordered.of_core core.symm⟩
  rw [Store.requests_of_core core] at known
  exact regular.keyed id request known

end Regular

structure World.Owed [EthText] (profile : Profile) (owned : Multiset Duty) (world : World) :
    Prop where
  regular : world.store.Regular profile
  distinct : (claims owned world.queue).Nodup
  live : ∀ id ∈ claims owned world.queue, world.store.Live id
  fresh : ∀ id, .fresh id ∈ owned → world.store.Queued id

section Claims

variable {owned others : Multiset Duty} {queue : List GoString} {duty : Duty} {id : GoString}

theorem claims_cons (names : duty.requestID? = some id) :
    claims ({duty} + others) queue = id ::ₘ claims others queue := by
  rw [claims, Multiset.singleton_add, Multiset.filterMap_cons_some _ _ _ names,
    Multiset.cons_add, claims]

theorem claims_enqueue : claims owned (queue ++ [id]) = id ::ₘ claims owned queue := by
  rw [claims, ← Multiset.coe_add, Multiset.coe_singleton, add_comm (queue : Multiset GoString),
    Multiset.singleton_add, Multiset.add_cons, claims]

theorem claims_dequeue : claims owned (id :: queue) = id ::ₘ claims owned queue := by
  rw [claims, ← Multiset.cons_coe, Multiset.add_cons, claims]

theorem claims_pending {world : World} (empty : world.queue = []) :
    claims ↑(world.store.pendingRequests.map fun request => Duty.drive request.id) world.queue =
      ↑(world.store.pendingRequests.map Request.id) := by
  rw [claims, empty, Multiset.filterMap_coe, List.filterMap_map, Multiset.coe_nil, add_zero]
  exact congrArg _ (congrFun List.filterMap_eq_map _)

theorem mem_claims (owned : duty ∈ others) (names : duty.requestID? = some id) :
    id ∈ claims others queue :=
  mem_add.mpr (.inl ((Multiset.mem_filterMap _ _).mpr ⟨duty, owned, names⟩))

end Claims

namespace World.Owed

variable [EthText] {profile : Profile} {owned others : Multiset Duty} {world : World}
variable {duty : Duty} {id : GoString} {store : Store}

theorem drop (owed : Owed profile (others + owned) world) : Owed profile owned world := by
  have fewer : claims owned world.queue ≤ claims (others + owned) world.queue := by
    rw [claims, claims, Multiset.filterMap_add, add_assoc]
    exact Multiset.le_add_left _ _
  exact ⟨owed.regular, Multiset.nodup_of_le fewer owed.distinct,
    fun id member => owed.live id (Multiset.mem_of_le fewer member),
    fun id member => owed.fresh id (mem_add.mpr (.inr member))⟩

/-- The invariant is about the store and the queue. -/
theorem congr {world' : World} (owed : Owed profile owned world)
    (store : world'.store = world.store) (queue : world'.queue = world.queue) :
    Owed profile owned world' :=
  ⟨store ▸ owed.regular, queue ▸ owed.distinct, store ▸ queue ▸ owed.live,
    store ▸ owed.fresh⟩

/-- The queue takes a request. -/
theorem enqueue (owed : Owed profile ({duty} + others) world) (names : duty.requestID? = some id) :
    Owed profile others { world with queue := world.queue ++ [id] } := by
  have same : claims others (world.queue ++ [id]) = claims ({duty} + others) world.queue := by
    rw [claims_enqueue, claims_cons names]
  exact ⟨owed.regular, same ▸ owed.distinct, same ▸ owed.live,
    fun id member => owed.fresh id (mem_add.mpr (.inr member))⟩

/-- A request that nobody owns gets an owner. -/
theorem take (owed : Owed profile others world) (names : duty.requestID? = some id)
    (unclaimed : id ∉ claims others world.queue) (live : world.store.Live id)
    (queued : duty = .fresh id → world.store.Queued id) :
    Owed profile ({duty} + others) world := by
  refine ⟨owed.regular, ?_, fun other member => ?_, fun other member => ?_⟩
  · rw [claims_cons names]
    exact Multiset.nodup_cons.mpr ⟨unclaimed, owed.distinct⟩
  · rw [claims_cons names] at member
    obtain rfl | there := Multiset.mem_cons.mp member
    · exact live
    · exact owed.live other there
  · obtain here | there := mem_add.mp member
    · cases Multiset.mem_singleton.mp here
      cases names
      exact queued rfl
    · exact owed.fresh other there

/-- The queue hands a request out. -/
theorem dequeue {queue : List GoString} (owed : Owed profile others world)
    (first : world.queue = id :: queue) :
    Owed profile ({.drive id} + others) { world with queue } := by
  have same : claims ({.drive id} + others) queue = claims others world.queue := by
    rw [first, claims_dequeue, claims_cons rfl]
  refine ⟨owed.regular, same ▸ owed.distinct, same ▸ owed.live, fun id member => ?_⟩
  obtain here | there := mem_add.mp member
  · cases Multiset.mem_singleton.mp here
  · exact owed.fresh id there

/-- A change of the store that leaves the records of all requests alone that are owned. -/
theorem rewrite (owed : Owed profile owned world) (regular : store.Regular profile)
    (frame : ∀ id ∈ claims owned world.queue, store.requests id = world.store.requests id) :
    Owed profile owned { world with store } := by
  refine ⟨regular, owed.distinct, fun id member => ?_, fun id member => ?_⟩
  · obtain ⟨request, known, live⟩ := owed.live id member
    exact ⟨request, (frame id member).trans known, live⟩
  · obtain ⟨request, known, queued⟩ := owed.fresh id member
    exact ⟨request, (frame id (mem_claims member rfl)).trans known, queued⟩

/-- Nobody else owns the request. -/
theorem alone (owed : Owed profile ({duty} + others) world) (names : duty.requestID? = some id) :
    id ∉ claims others world.queue := by
  have distinct := owed.distinct
  rw [claims_cons names] at distinct
  exact (Multiset.nodup_cons.mp distinct).1

theorem live_of_owned (owed : Owed profile ({duty} + others) world)
    (names : duty.requestID? = some id) : world.store.Live id := by
  refine owed.live id ?_
  rw [claims_cons names]
  exact Multiset.mem_cons_self _ _

variable [Digest] {operation : Operation} {fault : Option GoString}

/-- The owner of a request writes its record, and gives it up. -/
theorem conclude (owed : Owed profile ({duty} + others) world)
    (names : duty.requestID? = some id) (fresh : operation.Fresh world.store)
    (subject : operation.subject? = some id) :
    Owed profile others { world with store := (world.store.perform ⟨operation, fault⟩).1 } := by
  refine (owed.drop).rewrite (owed.regular.perform fresh) fun other member => ?_
  refine Store.perform_frame fun same => owed.alone names ?_
  cases subject.symm.trans same
  exact member

/-- The worker records a submission or a confirmation of the request that it drives. -/
theorem proceed (owed : Owed profile ({.drive id} + others) world)
    (fresh : operation.Fresh world.store) (subject : operation.subject? = some id)
    (kind : (operation.draft world.store.profile).type = .txSubmitted ∨
      (operation.draft world.store.profile).type = .txConfirmed) :
    Owed profile ({.drive id} + others)
      { world with store := (world.store.perform ⟨operation, fault⟩).1 } :=
  (owed.conclude rfl fresh subject).take rfl (owed.alone rfl)
    (Store.perform_live (owed.live_of_owned rfl) kind) nofun

/-- An operation that is not about a request. -/
theorem neutral (owed : Owed profile owned world)
    (neutral : operation.neutral = true) (fresh : operation.Fresh world.store) :
    Owed profile owned { world with store := (world.store.perform ⟨operation, fault⟩).1 } := by
  refine owed.rewrite (owed.regular.perform fresh) fun other _ => Store.perform_frame ?_
  rw [Operation.subject_of_neutral neutral]
  exact nofun

omit [Digest] in
/-- Who takes all pending requests owns them. -/
theorem pending (regular : world.store.Regular profile) (empty : world.queue = []) :
    Owed profile ↑(world.store.pendingRequests.map fun request => Duty.drive request.id) world := by
  have names := claims_pending empty
  refine ⟨regular, ?_, ?_, ?_⟩
  · rw [names]
    exact Multiset.coe_nodup.mpr (Store.pendingRequests_nodup regular.keyed regular.ordered)
  · rw [names]
    intro id member
    obtain ⟨request, pending, rfl⟩ := List.mem_map.mp (Multiset.mem_coe.mp member)
    exact Store.pendingRequests_live regular.keyed pending
  · intro id member
    simp at member

end World.Owed

/-! ## The protocol -/

/-- What a thread guarantees: transactions are sent and records are continued for requests
that have not failed, and the handlers do so only for requests that are still queued. -/
def Rightful (role : Role) (world : World) : Command → Prop
  | .sendTransaction purpose _ => ∀ id, purpose.requestID? = some id → world.store.Live id
  | .perform operation => ∀ id, operation.continued? = some id →
      world.store.Live id ∧ (role = .handler → world.store.Queued id)
  | _ => True

variable {c : Command}

theorem Rightful.of_neutral {role : Role} {world : World} (neutral : c.neutral = true) :
    Rightful role world c := by
  cases c with
  | sendTransaction purpose =>
    intro id names
    rw [Option.isNone_iff_eq_none.mp neutral] at names
    cases names
  | perform operation =>
    intro id continued
    cases (Operation.subject_of_neutral neutral).symm.trans
      (Operation.subject_of_continued continued)
  | _ => trivial

section Protocol

variable [EthText] [Digest]

def ownership (profile : Profile) : Protocol (F := service) execute Duty where
  invariant := World.Owed profile
  permitted _ _ _ := True
  drop _ := World.Owed.drop

/-- The start-up runs alone until it has taken all pending requests. -/
def startup (profile : Profile) : Protocol (F := service) execute Duty where
  invariant owned world := world.Owed profile owned ∧
    (.starting ∈ owned → owned = {.starting} ∧ world.queue = [])
  permitted _ _ _ := True
  drop := by
    rintro - lost kept world ⟨owed, alone⟩
    refine ⟨owed.drop, fun member => ?_⟩
    obtain ⟨single, empty⟩ := alone (Multiset.mem_add.mpr (.inr member))
    refine ⟨?_, empty⟩
    exact le_antisymm (single ▸ Multiset.le_add_left _ _) (Multiset.singleton_le.mpr member)

def owners (profile : Profile) : Regime Duty :=
  ⟨startup profile, ownership profile, fun role c world _ _ => Rightful role world c⟩

variable {profile : Profile} {role : Role} {owned others : Multiset Duty} {world world' : World}
variable {duty : Duty} {requestID : GoString}

/-- Neither the store nor the queue is touched. -/
theorem World.Owed.effect (owed : world.Owed profile owned) (effect : world.Effect c world')
    (other : (∀ operation, c ≠ .perform operation) ∧ (∀ id, c ≠ .tryEnqueue id) ∧ c ≠ .dequeue) :
    world'.Owed profile owned := by
  cases effect with
  | store => exact absurd rfl (other.1 _)
  | enqueued => exact absurd rfl (other.2.1 _)
  | dequeued => exact absurd rfl other.2.2
  | _ => exact owed.congr rfl rfl

theorem World.Owed.execute_neutral {choice : Choice} {response : Response c}
    (neutral : c.neutral = true) (owed : world.Owed profile owned)
    (executed : execute c choice world = some (response, world')) : world'.Owed profile owned := by
  have effect := execute_effect executed
  cases c with
  | perform operation =>
    cases effect with
    | store fresh => exact owed.neutral neutral fresh
    | _ => exact owed.congr rfl rfl
  | tryEnqueue | dequeue => cases neutral
  | _ => exact owed.effect effect ⟨nofun, nofun, nofun⟩

theorem neutral_owned (role : Role) (serving : role ≠ .main) (neutral : c.neutral = true) :
    Respects ((owners profile).protocol role) c := by
  intro owned world choice response world' owed _ executed
  cases role with
  | main => exact absurd rfl serving
  | _ => exact ⟨.of_neutral neutral, World.Owed.execute_neutral neutral owed executed⟩

/-! ## The worker -/

/-- The worker keeps the request that it drives while it works for it. -/
theorem serves_owned (serves : c.Serves requestID) :
    Follows ((owners profile).protocol .worker) (call c)
      (fun _ kept => kept = {.drive requestID}) {.drive requestID} := by
  refine .command trivial fun {others world choice response world'} owed _ executed => ?_
  have effect := execute_effect executed
  have live : world.store.Live requestID := World.Owed.live_of_owned owed rfl
  have kept (owed' : world'.Owed profile ({.drive requestID} + others))
      (rightful : Rightful .worker world c) :
      Rightful .worker world c ∧ ∃ owned, world'.Owed profile (owned + others) ∧
        owned = {.drive requestID} := ⟨rightful, _, owed', rfl⟩
  cases serves with
  | neutral neutral =>
    exact kept (World.Owed.execute_neutral neutral owed executed) (.of_neutral neutral)
  | sign => exact kept (World.Owed.effect owed effect ⟨nofun, nofun, nofun⟩) trivial
  | send names =>
    refine kept (World.Owed.effect owed effect ⟨nofun, nofun, nofun⟩) fun id names' => ?_
    cases names.symm.trans names'
    exact live
  | submit =>
    refine kept ?_ fun id continued => ?_
    · cases effect with
      | store fresh => exact World.Owed.proceed owed fresh rfl (.inl rfl)
      | _ => exact World.Owed.congr owed rfl rfl
    · cases continued
      exact ⟨live, nofun⟩
  | confirm =>
    refine kept ?_ fun id continued => ?_
    · cases effect with
      | store fresh => exact World.Owed.proceed owed fresh rfl (.inr rfl)
      | _ => exact World.Owed.congr owed rfl rfl
    · cases continued
      exact ⟨live, nofun⟩

/-- Letting a request fail gives it up. -/
theorem fail_owned (role : Role) (serving : role ≠ .main)
    (names : duty.requestID? = some requestID)
    (accepted : role = .handler → duty = .fresh requestID) (reason : GoString) (at_ : Time) :
    Follows ((owners profile).protocol role) (call (.perform (.recordFailed requestID reason at_)))
      (fun _ _ => True) {duty} := by
  refine .command (by cases role <;> trivial) ?_
  intro others world choice response world' owed _ executed
  have owed : world.Owed profile ({duty} + others) := by
    cases role with
    | main => exact absurd rfl serving
    | _ => exact owed
  have rightful : Rightful role world (.perform (.recordFailed requestID reason at_)) := by
    rintro id ⟨⟩
    refine ⟨owed.live_of_owned names, fun handler => owed.fresh _ ?_⟩
    rw [accepted handler]
    exact mem_add.mpr (.inl (Multiset.mem_singleton_self _))
  have owed' : world'.Owed profile (0 + others) := by
    rw [zero_add]
    cases execute_effect executed with
    | store fresh => exact owed.conclude names fresh rfl
    | _ => exact owed.drop.congr rfl rfl
  cases role with
  | main => exact absurd rfl serving
  | _ => exact ⟨rightful, 0, owed', trivial⟩

theorem dequeue_owned : Follows ((owners profile).protocol .worker) (call .dequeue)
    (fun found owned => ∀ requestID, found = some requestID → owned = {.drive requestID}) 0 := by
  refine .command trivial fun {others world choice found world'} owed _ executed => ⟨trivial, ?_⟩
  rw [zero_add] at owed
  cases choice <;> simp only [execute, World.dequeue] at executed <;> try cases executed
  · split at executed <;> cases executed
    next requestID queue first =>
        refine ⟨{Duty.drive requestID}, World.Owed.dequeue owed first, ?_⟩
        rintro _ ⟨⟩
        rfl
  · split_ifs at executed
    cases executed
    refine ⟨0, (zero_add others).symm ▸ owed, ?_⟩
    rintro _ ⟨⟩

theorem get_owned (requestID : GoString) :
    Follows ((owners profile).protocol .worker) (call (.get requestID)) (fun found owned =>
      owned = {.drive requestID} ∧ ∀ request, found = some request →
        ({.drive request.id} : Multiset Duty) = {.drive requestID}) {.drive requestID} := by
  refine .command trivial fun {others world choice found world'} owed _ executed => ⟨trivial, ?_⟩
  have owed' : world'.Owed profile ({.drive requestID} + others) :=
    World.Owed.effect owed (execute_effect (c := .get requestID) executed) ⟨nofun, nofun, nofun⟩
  refine ⟨_, owed', rfl, ?_⟩
  rintro request rfl
  have known : world.store.requests requestID = some request := World.reads_value executed
  rw [(World.Owed.regular owed).keyed requestID request known]

theorem drives_owned :
    Drives ((owners profile).protocol .worker) profile fun requestID => {.drive requestID} where
  inert inert := neutral_owned .worker (by decide) (Command.neutral_of_inert inert)
  dequeue := dequeue_owned
  get := get_owned
  settle request := by
    refine .retains (Program.Only.mono (fun _ here => serves_owned here.1)
      (serves_settleSubmission request)) fun result => ?_
    cases result with
    | ok => exact fun _ => rfl
    | error => rfl
  replace request bump := by
    refine .retains (Program.Only.mono (fun _ here => serves_owned here.1)
      (serves_replaceSubmission request bump)) fun result => ?_
    cases result <;> rfl
  fund requestID := by
    refine .retains (Program.Only.mono (fun _ here => serves_owned here.1) serves_fundOnce)
      fun result => ?_
    cases result with
    | ok => trivial
    | error => rfl
  fail _ reason time := fail_owned .worker (by decide) rfl nofun reason time

/-! ## The handlers -/

/-- A new request belongs to the handler that has accepted it. -/
theorem accept_owned (clientKey : GoString) (address : Address)
    (at_ : Time) (requestID : GoString) :
    Follows ((owners profile).protocol .handler)
      (call (.perform (.accept clientKey address at_ requestID)))
      (fun outcome owned => (∀ accepted, outcome = .request accepted false →
        owned = {.fresh accepted.id}) ∧ ((∀ accepted, outcome ≠ .request accepted false) →
          owned = 0)) 0 := by
  refine .command trivial fun {others world choice outcome world'} owed _ executed => ⟨nofun, ?_⟩
  rw [zero_add] at owed
  obtain ⟨fault, fresh, rfl, rfl⟩ := World.perform_cases executed
  have unknown : requestID ∉ claims others world.queue := by
    intro member
    obtain ⟨request, known, -⟩ := World.Owed.live owed requestID member
    cases known.symm.trans fresh
  have owed' : World.Owed profile others { world with
      store := (world.store.perform ⟨.accept clientKey address at_ requestID, fault⟩).1 } := by
    refine World.Owed.rewrite owed (Store.Regular.perform owed.regular fresh)
      fun id member => Store.perform_frame ?_
    rintro ⟨⟩
    exact unknown member
  by_cases accepts : ∃ accepted, (world.store.perform
      ⟨.accept clientKey address at_ requestID, fault⟩).2 = .request accepted false
  · obtain ⟨accepted, returned⟩ := accepts
    obtain ⟨named, queued⟩ := Store.accept_queued fresh owed.regular.keyed returned
    refine ⟨{Duty.fresh accepted.id}, ?_, ?_, fun refused => absurd returned (refused _)⟩
    · rw [named]
      exact owed'.take rfl unknown queued.live fun _ => queued
    · intro other returned'
      cases returned.symm.trans returned'
      rfl
  · refine ⟨0, (zero_add others).symm ▸ owed', fun accepted returned => ?_, fun _ => rfl⟩
    exact absurd ⟨accepted, returned⟩ accepts

/-- The queue takes the request, or the owner keeps it. -/
theorem tryEnqueue_owned (names : duty.requestID? = some requestID) :
    Follows ((owners profile).protocol .handler) (call (.tryEnqueue requestID))
      (fun taken owned => taken = false → owned = {duty}) {duty} := by
  refine .command trivial fun {others world choice taken world'} owed _ executed => ⟨trivial, ?_⟩
  cases choice <;> simp only [execute, World.tryEnqueue] at executed <;> try cases executed
  split_ifs at executed <;> cases executed
  · exact ⟨0, (zero_add others).symm ▸ World.Owed.enqueue owed names, by rintro ⟨⟩⟩
  · exact ⟨{duty}, owed, fun _ => rfl⟩

theorem enqueueAccepted_owned (accepted : Request) (now : Time) :
    Follows ((owners profile).protocol .handler) (enqueueAccepted accepted now)
      (fun _ owned => owned = 0) {.fresh accepted.id} := by
  refine Follows.release trivial (.bind ((tryEnqueue_owned rfl).mono fun taken owned kept => ?_))
  cases taken with
  | true => exact .done trivial
  | false =>
    cases kept rfl
    refine .bind ((fail_owned .handler (by decide) rfl (fun _ => rfl) _ _).mono ?_)
    exact fun _ _ _ => .done trivial

theorem handler_owned (request : ClientRequest) :
    Follows ((owners profile).protocol .handler) (request.handler profile) (fun _ _ => True) 0 := by
  refine (handler_follows (fun requestID => {.fresh requestID}) (fun neutral => ?_) accept_owned
    enqueueAccepted_owned request).mono fun _ _ _ => trivial
  exact .respects trivial (only_call (neutral_owned .handler (by decide) neutral)) fun _ => rfl

/-! ## The start-up -/

/-- The start-up takes all pending requests. -/
theorem pendingRequests_owned :
    Follows ((owners profile).protocol .main) (call .pendingRequests)
      (fun pending owned => owned = ↑(pending.map fun request : Request => Duty.drive request.id))
      {.starting} := by
  refine .command trivial fun {others world choice pending world'} holds _ executed => ⟨trivial, ?_⟩
  obtain ⟨owed, alone⟩ := holds
  obtain ⟨single, empty⟩ :=
    alone (mem_add.mpr (.inl (Multiset.mem_singleton_self _)))
  obtain rfl : others = 0 := add_eq_left.mp single
  obtain rfl : world.store.pendingRequests = pending := World.reads_value executed
  have same : world' = world := by
    cases choice <;> cases executed
    rfl
  subst same
  refine ⟨_, ⟨?_, ?_⟩, rfl⟩
  · rw [add_zero]
    exact .pending owed.regular empty
  · intro member
    simp at member

/-- The start-up does no more with a request than to give it up. -/
theorem startup_gives {id : GoString}
    (holds : (startup profile).invariant ({.drive id} + others) world)
    (owed : world'.Owed profile others) : (startup profile).invariant (0 + others) world' := by
  rw [zero_add]
  refine ⟨owed, fun member => ?_⟩
  obtain ⟨single, -⟩ := holds.2 (mem_add.mpr (.inr member))
  have here : Duty.drive id ∈ ({.drive id} + others : Multiset Duty) :=
    mem_add.mpr (.inl (Multiset.mem_singleton_self _))
  rw [single] at here
  cases Multiset.mem_singleton.mp here

variable (profile) in
theorem requeueOne_owned (request : Request) :
    FollowsAttempt ((owners profile).protocol .main) (requeueOne request) (fun _ _ => True)
      (fun _ _ => True) {.drive request.id} := by
  have enqueue : Follows ((owners profile).protocol .main) (call (.tryEnqueue request.id))
      (fun taken owned => taken = false → owned = {.drive request.id}) {.drive request.id} := by
    refine .command trivial fun {others world choice taken world'} holds _ executed => ⟨trivial, ?_⟩
    cases choice <;> simp only [execute, World.tryEnqueue] at executed <;> try cases executed
    split_ifs at executed <;> cases executed
    · exact ⟨0, startup_gives holds (World.Owed.enqueue holds.1 rfl), by rintro ⟨⟩⟩
    · exact ⟨_, holds, fun _ => rfl⟩
  have clock : Respects ((owners profile).protocol .main) .now := by
    intro owned world choice time world' holds _ executed
    refine ⟨trivial, ?_⟩
    cases choice <;> cases executed
    exact holds
  refine .bind (.lift (enqueue.mono fun taken owned kept => ?_))
  cases taken with
  | true => exact .done trivial
  | false =>
    cases kept rfl
    refine follows_record trivial clock fun time => .command trivial ?_
    intro others world choice outcome world' holds _ executed
    have owed : world.Owed profile ({.drive request.id} + others) := holds.1
    refine ⟨?_, 0, startup_gives holds ?_, by cases outcome <;> trivial⟩
    · rintro id ⟨⟩
      exact ⟨owed.live_of_owned rfl, by rintro ⟨⟩⟩
    · cases execute_effect executed with
      | store fresh => exact owed.conclude rfl fresh rfl
      | _ => exact owed.drop.congr rfl rfl

theorem requeue_owned (pending : List Request) :
    Follows ((owners profile).protocol .main) (requeue pending).run (fun _ _ => True)
      ↑(pending.map fun request => Duty.drive request.id) := by
  induction pending with
  | nil => exact .done trivial
  | cons request rest ih =>
    have first := (requeueOne_owned profile request).frame
      ↑(rest.map fun request => Duty.drive request.id) fun _ _ _ => trivial
    rw [List.map_cons, ← Multiset.cons_coe, ← Multiset.singleton_add]
    refine .bind (first.mono ?_)
    rintro result _ ⟨kept, rfl, -⟩
    cases result with
    | error error => exact .done trivial
    | ok _ => exact ih.weaken (.inr ⟨trivial, Multiset.le_add_left _ _⟩)

theorem conduct_owned :
    Conduct (owners profile) profile (WorkerState.hands 0 fun requestID => {.drive requestID}) where
  boots := by
    intro world key system holds taken
    obtain ⟨store, opened, -, rfl⟩ := boot_cases taken
    have owed : world.Owed profile 0 := holds
    refine ⟨{.starting}, ⟨⟨owed.regular.opened opened, ?_, ?_, ?_⟩, fun _ => ⟨rfl, rfl⟩⟩, _,
      rfl, ?_⟩
    · exact Multiset.nodup_zero
    · exact fun _ member => absurd member (Multiset.notMem_zero _)
    · exact fun _ member => by simp at member
    · refine .bind (.bind (.mono pendingRequests_owned ?_))
      rintro pending _ rfl
      exact .done (requeue_owned pending)
  ready := by
    rintro owned world ⟨owed, -⟩
    rw [← add_zero owned] at owed
    exact owed.drop
  stops role _ _ holds := by
    cases role with
    | main => exact ⟨holds.1.congr rfl rfl, holds.2⟩
    | _ => exact World.Owed.congr holds rfl rfl
  lands role _ _ _ _ holds _ := by
    cases role with
    | main => exact ⟨holds.1.congr rfl rfl, holds.2⟩
    | _ => exact World.Owed.congr holds rfl rfl
  waiting := rfl
  worker := (drives_owned.tends trivial).workerTurn
  probe probed := .respects trivial (Program.Only.mono
    (fun _ => neutral_owned .probe (by decide)) (idle_probeOnce profile probed).inert.neutral)
    fun _ => trivial
  handler := handler_owned

variable (profile) in
/-- The requests have their owners. -/
def System.Owned (system : System) : Prop :=
  system.Follows (owners profile) (WorkerState.hands 0 fun requestID => {.drive requestID})

theorem System.Owned.start {start : System} (initial : start.Initial profile) :
    start.Owned profile := by
  obtain ⟨signer, nonces, height, rfl⟩ := initial
  exact ⟨.start, Multiset.nodup_zero, fun _ member => absurd member (Multiset.notMem_zero _),
    fun _ member => absurd member (Multiset.notMem_zero _)⟩

/-- Whatever is served, restarted and lost meanwhile, the requests have their owners. -/
theorem System.Owned.step {system system' : System} {label : Label} (owns : system.Owned profile)
    (taken : system.step profile label = some system') : system'.Owned profile ∧
      ∀ c, system.stage.next? label = some c → Rightful label.role system.world c := by
  obtain ⟨owns', grants⟩ := conduct_owned.step owns (fun c _ => by cases label <;> trivial) taken
  refine ⟨owns', fun c next => ?_⟩
  obtain ⟨response, -, rightful⟩ := grants c next
  exact rightful

/-! ## The budget -/

theorem step_solvent (valid : profile.Valid) {system system' : System} {label : Label}
    (solvent : system.world.store.Solvent profile)
    (rightful : ∀ c, system.stage.next? label = some c → Rightful label.role system.world c)
    (taken : system.step profile label = some system') :
    system'.world.store.Solvent profile :=
  System.step_store solvent taken
    (fun _ _ next fresh => solvent.perform valid fresh fun id continued =>
      (rightful _ next id continued).1)
    fun _ opened => solvent.opened opened

/-- In every run, what is spent on a day is the amount of the requests that were accepted on
that day and have not failed, it stays within the budget, and no booking was ever cut. -/
theorem budget_balanced (valid : profile.Valid) {start system : System} {labels : List Label}
    (initial : start.Initial profile)
    (run : Transition.Run (System.step profile) Transition.Free labels start system) :
    (∀ at_, system.world.store.spentToday at_ =
        profile.amountPerRequest * system.world.store.reserved (budgetDay at_) ∧
      system.world.store.spentToday at_ ≤ profile.globalDailyBudget) ∧
    Store.Unclamped { journal := openJournal [], profile } system.world.store.journal.entries := by
  have starts : start.world.store.Solvent profile := by
    obtain ⟨signer, nonces, height, rfl⟩ := initial
    exact .start valid
  have kept : system.Owned profile ∧ system.world.store.Solvent profile :=
    run.invariant (I := fun system => system.Owned profile ∧ system.world.store.Solvent profile)
      ⟨.start initial, starts⟩ fun ⟨owns, solvent⟩ _ taken =>
        ⟨(owns.step taken).1, step_solvent valid solvent (owns.step taken).2 taken⟩
  obtain ⟨-, solvent⟩ := kept
  refine ⟨fun at_ => ⟨?_, ?_⟩, solvent.unclamped⟩
  · exact solvent.balanced.spent (budgetDay at_)
  · exact solvent.balanced.bounded (budgetDay at_)

end Protocol

namespace Demo

theorem profile_valid : profile.Valid := by
  constructor <;> decide

/-- Two requests are accepted. The first one fails since the node is on another chain, and
the second one is pending when the process is started again. -/
def releasing : List Label :=
  accepting ++ .open_ (.fund (text "key-0002") 18) :: List.map (.handler 1)
    [.clock noon, .ok, .ok, .ok, .identifier (text "req-2"), .ok, .ok] ++
    worker [.ok, .ok] ++ goingRound ++ worker [.ok, .ok, .ok, .answer 1, .ok, .clock noon, .ok] ++
    [.crash, .start 32, .main .ok, .main .ok, .main .ok]

end Demo

theorem budget_balanced_demo :
    ∃ system, @Transition.Run _ _ (@System.step lowerHex Digest.numbered Demo.profile)
        Transition.Free Demo.releasing Demo.system system ∧
      system.world.store.order.length = 2 ∧
      system.world.store.reserved (budgetDay Demo.noon) = 1 ∧
      system.world.store.spentToday Demo.noon = Demo.profile.amountPerRequest * 1 := by
  obtain ⟨system, run, counted⟩ := Transition.run_of_execute_any
    (show (Transition.execute (@System.step lowerHex Digest.numbered Demo.profile) Demo.releasing
      Demo.system).any (fun system => system.world.store.order.length = 2 ∧
        system.world.store.reserved (budgetDay Demo.noon) = 1) by decide +kernel)
  obtain ⟨listed, reserved⟩ := of_decide_eq_true counted
  have balanced := @budget_balanced lowerHex Digest.numbered _ Demo.profile_valid _ _ _
    ⟨32, _, _, rfl⟩ run
  have spent := (balanced.1 Demo.noon).1
  rw [reserved] at spent
  exact ⟨system, run, listed, reserved, spent⟩

end Torium.Faucet
