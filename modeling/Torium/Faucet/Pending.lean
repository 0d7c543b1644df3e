import Torium.Faucet.Ownership

/-!
# Pending requests and their owners

A pending request is with the handler that has accepted it, in the queue, or with the worker.
What a command does to a request is said here in terms of who has it before and afterwards.
The log notes what was put into the queue, and what left it last.
-/

namespace Torium.Faucet

open Evm
open Multiset (mem_add singleton_add)

/-! ## Pending requests -/

/-- The request is known and waits for its transaction. -/
def Store.Pending (store : Store) (id : GoString) : Prop :=
  ∃ request, store.requests id = some request ∧ request.status.isPending = true

/-- The request is known and was not denied. -/
def Store.Undenied (store : Store) (id : GoString) : Prop :=
  ∃ request, store.requests id = some request ∧ request.status ≠ .denied

variable {id clientKey : GoString} {at_ : Time} {address : Address}

theorem Store.Live.undenied {store : Store} (live : store.Live id) :
    store.Undenied id := by
  obtain ⟨request, known, live⟩ := live
  refine ⟨request, known, fun denied => ?_⟩
  rw [denied] at live
  cases live

/-- What is known, not denied and not pending is confirmed or has failed. -/
theorem Store.Undenied.settled {store : Store} (undenied : store.Undenied id)
    (settled : ¬ store.Pending id) : ∃ request, store.requests id = some request ∧
      (request.status = .confirmed ∨ request.status = .failed) := by
  obtain ⟨request, known, status⟩ := undenied
  refine ⟨request, known, ?_⟩
  cases here : request.status with
  | confirmed => exact .inl rfl
  | failed => exact .inr rfl
  | denied => exact absurd here status
  | queued | submitted => exact absurd ⟨request, known, by rw [here]; rfl⟩ settled

/-- The start-up sees every pending request. -/
theorem Store.Pending.listed {s : Store} (pending : s.Pending id) (keyed : s.Keyed)
    (ordered : s.Ordered) : id ∈ s.pendingRequests.map Request.id := by
  obtain ⟨request, known, waits⟩ := pending
  have listed : id ∈ s.order := (ordered.known id).mpr (by rw [known]; rfl)
  refine List.mem_map.mpr ⟨request, ?_, keyed id request known⟩
  refine (List.perm_insertionSort _ _).mem_iff.mpr (List.mem_filter.mpr ⟨?_, waits⟩)
  exact List.mem_filterMap.mpr ⟨id, listed, known⟩

section Store

variable {s : Store} {entry : Entry}

theorem Store.applyFailed_failed {request : Request}
    (known : (s.applyFailed entry).1.requests (entry.payload.get "requestId") = some request) :
    request.status = .failed := by
  revert known
  simp only [applyFailed]
  cases before : s.requests (entry.payload.get "requestId") with
  | none =>
    intro known
    cases before.symm.trans known
  | some old =>
    cases valid : setString? old.amountBaseUnits <;> simp only [valid] <;> intro known <;>
      cases (Function.update_self _ _ _).symm.trans known <;> rfl

theorem Store.applyConfirmed_confirmed {request : Request}
    (known : (s.applyConfirmed entry).1.requests (entry.payload.get "requestId") = some request) :
    request.status = .confirmed := by
  revert known
  simp only [applyConfirmed]
  cases before : s.requests (entry.payload.get "requestId") with
  | none =>
    intro known
    cases before.symm.trans known
  | some old =>
    cases scanUint64? (entry.payload.get "blockNumber") <;> intro known <;>
      cases (Function.update_self _ _ _).symm.trans known <;> rfl

/-- An accepted request that is readable is applied, or nothing is recorded. -/
theorem Store.applyAccepted_error [EthText] {error : StoreError}
    (readable : setString? (entry.payload.get "amountBaseUnits") ≠ none)
    (failed : (s.applyAccepted entry).2 = some error) : (s.applyAccepted entry).1 = s := by
  revert failed
  simp only [applyAccepted]
  split_ifs
  · intro _
    rfl
  · split
    · rintro ⟨⟩
    · contradiction

end Store

/-- The journal did not take the entry. -/
def Outcome.unwritten : Outcome → Bool
  | .failed (.journal _) => true
  | _ => false

section Perform

variable [EthText] [Digest] {s : Store} {fault : Option GoString}

/-- A transition that is written settles the request that it names if its entry does. -/
theorem Store.transition_settles {type : EntryType} {payload : Payload}
    (named : payload.get "requestId" = id) (settles : ∀ entry request, entry.type = type →
      (s.applyEntry entry).1.requests (entry.payload.get "requestId") = some request →
        request.status.isPending = false)
    (written : (Outcome.ofError (s.transition fault type at_ payload).2).unwritten = false) :
    ¬ (s.transition fault type at_ payload).1.Pending id := by
  rintro ⟨request, known, pending⟩
  obtain ⟨error, failed⟩ | ⟨entry, drafted, journals⟩ :=
    transition_cases (s := s) fault type at_ payload
  · rw [failed] at written
    cases written
  · obtain ⟨sameType, -, samePayload⟩ := Draft.mk.inj drafted
    rw [journals.requests, ← named, ← samePayload] at known
    rw [settles entry request sameType known] at pending
    cases pending

theorem Store.recordFailed_settles {reason : GoString}
    (written : (s.perform ⟨.recordFailed id reason at_, fault⟩).2.unwritten = false) :
    ¬ (s.perform ⟨.recordFailed id reason at_, fault⟩).1.Pending id := by
  refine transition_settles rfl (fun entry request sameType known => ?_) written
  rw [applyEntry, sameType] at known
  rw [applyFailed_failed known]
  rfl

theorem Store.recordConfirmed_settles {hash : Bytes32} {blockNumber : Nat}
    (written : (s.perform ⟨.recordConfirmed id hash blockNumber at_, fault⟩).2.unwritten = false) :
    ¬ (s.perform ⟨.recordConfirmed id hash blockNumber at_, fault⟩).1.Pending id := by
  refine transition_settles rfl (fun entry request sameType known => ?_) written
  rw [applyEntry, sameType] at known
  rw [applyConfirmed_confirmed known]
  rfl

theorem Store.recordAccepted_pending {scopedKey : GoString} {now : Time}
    (fresh : s.requests id = none)
    (pending : (s.recordAccepted fault scopedKey address now id).1.Pending id) :
    ∃ accepted, (s.recordAccepted fault scopedKey address now id).2 = .request accepted false := by
  have cases := transition_cases (s := s) fault .requestAccepted now
    (acceptedPayload id scopedKey address s.profile.amountPerRequest)
  revert pending
  unfold recordAccepted
  revert cases
  rcases s.transition fault .requestAccepted now
    (acceptedPayload id scopedKey address s.profile.amountPerRequest) with ⟨t, _ | error⟩
  · intro _
    cases found : t.requests id with
    | some accepted =>
      intro _
      exact ⟨accepted, by simp only [found]⟩
    | none =>
      rintro ⟨request, known, -⟩
      simp only [found] at known
      cases known
  · rintro cases ⟨request, known, -⟩
    suffices same : t.requests = s.requests by
      cases fresh.symm.trans ((congrFun same id).symm.trans known)
    obtain ⟨failure, same⟩ | ⟨entry, drafted, journals⟩ := cases
    · cases same
      rfl
    · obtain ⟨sameType, -, samePayload⟩ := Draft.mk.inj drafted
      have applied : s.applyEntry entry = s.applyAccepted entry := by rw [applyEntry, sameType]
      have readable : setString? (entry.payload.get "amountBaseUnits") ≠ none := by
        have amount : entry.payload.get "amountBaseUnits" =
            intText s.profile.amountPerRequest := by
          rw [samePayload]
          rfl
        rw [amount, setString?_intText]
        exact Option.some_ne_none _
      rw [journals.requests, applied, applyAccepted_error readable (applied ▸ journals.applied)]

/-- What is pending after `Accept` is returned as new. -/
theorem Store.accept_pending (fresh : s.requests id = none)
    (pending : (s.accept fault clientKey address at_ id).1.Pending id) :
    ∃ accepted, (s.accept fault clientKey address at_ id).2 = .request accepted false := by
  have unchanged {t : Store} (same : t.requests = s.requests) : ¬ t.Pending id := by
    rintro ⟨request, known, -⟩
    rw [same, fresh] at known
    cases known
  have created : (s.addressStateFor address).2.requests = s.requests :=
    (created_alike address).requests
  revert pending
  simp only [accept]
  split
  · split <;> exact fun pending => absurd pending (unchanged rfl)
  · split_ifs
    · exact fun pending => absurd pending (unchanged rfl)
    · split
      · exact fun pending => absurd pending (unchanged created)
      · exact recordAccepted_pending (by rw [created, fresh])

theorem Store.perform_undenied {call : Call} (undenied : s.Undenied id)
    (fresh : call.operation.Fresh s) : (s.perform call).1.Undenied id := by
  obtain alike | ⟨entry, error, drafted, -, journals, -⟩ := perform_cases (s := s) call
  · rw [Undenied, alike.requests]
    exact undenied
  · by_cases here : call.operation.subject? = some id
    · rw [Undenied, journals.requests]
      refine (s.applied entry).status.holds undenied fun new status denied => ?_
      obtain ⟨request, known, -⟩ := undenied
      obtain ⟨operation, fault⟩ := call
      rw [(Draft.mk.inj drafted).1, denied] at status
      cases operation with
      | recordDenied =>
        cases here
        cases known.symm.trans fresh
      | _ => cases status
    · rw [Undenied, perform_frame here]
      exact undenied

end Perform

/-! ## Who has a request -/

/-- What a thread has to see to. -/
inductive Task where
  /-- The worker is at rest. -/
  | resting
  | duty (duty : Duty)
  deriving DecidableEq

namespace Task

def duty? : Task → Option Duty
  | .resting => none
  | .duty owed => some owed

/-- The worker has one of these. -/
def ofWorker : Task → Bool
  | .resting | .duty (.drive _) => true
  | .duty .starting | .duty (.fresh _) => false

end Task

def duties (owned : Multiset Task) : Multiset Duty := owned.filterMap Task.duty?

section Duties

variable {others : Multiset Task} {duty : Duty}

@[simp] theorem duties_zero : duties 0 = 0 := rfl

@[simp] theorem duties_duty : duties ({.duty duty} + others) = {duty} + duties others := by
  have named : Task.duty? (.duty duty) = some duty := rfl
  rw [duties, singleton_add, Multiset.filterMap_cons_some _ _ _ named,
    singleton_add, duties]

@[simp] theorem duties_resting : duties ({.resting} + others) = duties others := by
  rw [duties, singleton_add, Multiset.filterMap_cons_none _ _ rfl, duties]

theorem mem_duties {owned : Multiset Task} : duty ∈ duties owned ↔ .duty duty ∈ owned := by
  rw [duties, Multiset.mem_filterMap]
  constructor
  · rintro ⟨task, member, same⟩
    cases task with
    | resting => cases same
    | duty =>
      cases same
      exact member
  · exact fun member => ⟨.duty duty, member, rfl⟩

end Duties

/-- What is noted: which requests were put into the queue, and which one left it last. -/
structure Log where
  enqueued : List GoString := []
  driving : Option GoString := none

/-- The log agrees with the queue, and the service is not stopped. -/
structure World.Noted (world : World) (log : Log) : Prop where
  running : world.stopping = false
  known : ∀ id ∈ log.enqueued, world.store.Undenied id
  once : log.enqueued.Nodup
  queued : world.queue <:+ log.enqueued

/-- Every pending request has its owner. The worker drives one request at most, the one that
left the queue last, and what was just accepted was not in the queue yet. -/
structure World.Tended [EthText] (profile : Profile) (owned : Multiset Task) (world : World)
    (log : Log) : Prop where
  owed : world.Owed profile (duties owned)
  complete : ∀ id, world.store.Pending id → id ∈ claims (duties owned) world.queue
  noted : world.Noted log
  unsent : ∀ id, .duty (.fresh id) ∈ owned → id ∉ log.enqueued
  driven : ∀ id, .duty (.drive id) ∈ owned → log.driving = some id
  single : owned.countP (fun task => task.ofWorker = true) ≤ 1

namespace World.Tended

variable [EthText] {profile : Profile} {owned others : Multiset Task} {world world' : World}
variable {log : Log} {task : Task}

/-- Only the worker drives requests. -/
theorem alone (tended : Tended profile ({task} + others) world log)
    (worker : task.ofWorker = true) :
    .duty (.drive id) ∉ others := by
  have single := tended.single
  rw [singleton_add, Multiset.countP_cons, if_pos worker] at single
  have none := Multiset.countP_eq_zero.mp (Nat.le_zero.mp (Nat.le_of_succ_le_succ single))
  exact fun member => none _ member rfl

/-- The store, the queue and the rest of the log are as before. -/
theorem congr (tended : Tended profile owned world log)
    (store : world'.store = world.store) (queue : world'.queue = world.queue)
    (stopping : world'.stopping = world.stopping) : Tended profile owned world' log :=
  ⟨tended.owed.congr store queue, by rw [store, queue]; exact tended.complete,
    ⟨stopping ▸ tended.noted.running, store ▸ tended.noted.known, tended.noted.once,
      queue ▸ tended.noted.queued⟩, tended.unsent, tended.driven, tended.single⟩

omit [EthText] in
theorem more {owned : Multiset Task} (member : task ∈ others) : task ∈ owned + others :=
  mem_add.mpr (.inr member)

/-- The worker exchanges what it has. -/
theorem exchange {task' : Task} {log' : Log} (tended : Tended profile ({task} + others) world log)
    (worker : task.ofWorker = true) (worker' : task'.ofWorker = true)
    (driven : ∀ id, task' = .duty (.drive id) → log'.driving = some id)
    (owed : world'.Owed profile (duties ({task'} + others)))
    (complete : ∀ id, world'.store.Pending id →
      id ∈ claims (duties ({task'} + others)) world'.queue)
    (noted : world'.Noted log') (same : log'.enqueued = log.enqueued) :
    Tended profile ({task'} + others) world' log' := by
  have single := tended.single
  rw [singleton_add, Multiset.countP_cons, if_pos worker] at single
  refine ⟨owed, complete, noted, fun other member => ?_, fun other member => ?_, ?_⟩
  · obtain here | there := mem_add.mp member
    · rw [← Multiset.mem_singleton.mp here] at worker'
      cases worker'
    · rw [same]
      exact tended.unsent other (more there)
  · obtain here | there := mem_add.mp member
    · exact driven other (Multiset.mem_singleton.mp here).symm
    · exact absurd there (tended.alone worker)
  · rw [singleton_add, Multiset.countP_cons, if_pos worker']
    exact single

/-- The worker leaves a request that is not pending. -/
theorem leave (tended : Tended profile ({.duty (.drive id)} + others) world log)
    (settled : ¬ world.store.Pending id) : Tended profile ({.resting} + others) world log := by
  have owed := tended.owed
  rw [duties_duty] at owed
  refine tended.exchange rfl rfl nofun ?_ (fun other pending => ?_) tended.noted rfl
  · rw [duties_resting]
    exact owed.drop
  · have member := tended.complete other pending
    rw [duties_duty, claims_cons rfl] at member
    rw [duties_resting]
    obtain rfl | there := Multiset.mem_cons.mp member
    · exact absurd pending settled
    · exact there

/-- The worker takes the first request of the queue. -/
theorem dequeue {queue : List GoString} (tended : Tended profile ({.resting} + others) world log)
    (first : world.queue = id :: queue) :
    Tended profile ({.duty (.drive id)} + others) { world with queue }
      { log with driving := some id } := by
  have owed := tended.owed
  rw [duties_resting] at owed
  refine tended.exchange rfl rfl ?_ ?_ (fun other pending => ?_)
    ⟨tended.noted.running, tended.noted.known, tended.noted.once, ?_⟩ rfl
  · rintro other ⟨⟩
    rfl
  · rw [duties_duty]
    exact owed.dequeue first
  · have member := tended.complete other pending
    rw [duties_resting, first, claims_dequeue] at member
    rw [duties_duty, claims_cons rfl]
    exact member
  · refine List.IsSuffix.trans ?_ tended.noted.queued
    rw [first]
    exact List.suffix_cons _ _

theorem countP_others (tended : Tended profile (owned + others) world log) :
    Multiset.countP (fun task => task.ofWorker = true) others ≤ 1 :=
  (Multiset.countP_le_of_le _ (Multiset.le_add_left _ _)).trans tended.single

/-- The queue takes a request that was accepted. -/
theorem enqueue (tended : Tended profile ({.duty (.fresh id)} + others) world log) :
    Tended profile (0 + others) { world with queue := world.queue ++ [id] }
      { log with enqueued := log.enqueued ++ [id] } := by
  have owed := tended.owed
  have here : .duty (.fresh id) ∈ {Task.duty (.fresh id)} + others :=
    mem_add.mpr (.inl (Multiset.mem_singleton_self _))
  rw [duties_duty] at owed
  rw [zero_add]
  refine ⟨owed.enqueue rfl, fun other pending => ?_, ⟨tended.noted.running, fun other member => ?_,
    ?_, ?_⟩, fun other member sent => ?_, fun other member => tended.driven other (more member),
    tended.countP_others⟩
  · have member := tended.complete other pending
    rw [duties_duty, claims_cons rfl] at member
    rw [claims_enqueue]
    exact member
  · obtain there | there := List.mem_append.mp member
    · exact tended.noted.known other there
    · cases List.mem_singleton.mp there
      exact (owed.live_of_owned rfl).undenied
  · refine List.nodup_append.mpr ⟨tended.noted.once, List.nodup_singleton id, ?_⟩
    rintro other member _ there rfl
    cases List.mem_singleton.mp there
    exact tended.unsent _ here member
  · obtain ⟨taken, same⟩ := tended.noted.queued
    exact ⟨taken, by rw [← List.append_assoc, same]⟩
  · obtain there | there := List.mem_append.mp sent
    · exact tended.unsent other (more member) there
    · cases List.mem_singleton.mp there
      refine owed.alone rfl (mem_claims (mem_duties.mpr member) rfl)

variable [Digest] {operation : Operation} {fault : Option GoString}

omit [EthText] [Digest] in
theorem pending_of_frame {s t : Store} (frame : t.requests id = s.requests id)
    (pending : t.Pending id) : s.Pending id := by
  obtain ⟨request, known, waits⟩ := pending
  exact ⟨request, frame ▸ known, waits⟩

theorem noted_perform (tended : Tended profile owned world log)
    (fresh : operation.Fresh world.store) :
    World.Noted { world with store := (world.store.perform ⟨operation, fault⟩).1 } log :=
  ⟨tended.noted.running,
    fun id member => Store.perform_undenied (tended.noted.known id member) fresh,
    tended.noted.once, tended.noted.queued⟩

/-- An operation that is not about a request. -/
theorem neutral (tended : Tended profile owned world log) (neutral : operation.neutral = true)
    (fresh : operation.Fresh world.store) :
    Tended profile owned { world with store := (world.store.perform ⟨operation, fault⟩).1 }
      log := by
  refine ⟨tended.owed.neutral neutral fresh, fun id pending => tended.complete id ?_,
    tended.noted_perform fresh, tended.unsent, tended.driven, tended.single⟩
  refine pending_of_frame (Store.perform_frame ?_) pending
  rw [Operation.subject_of_neutral neutral]
  exact nofun

/-- The worker records a submission or a confirmation of the request that it drives. -/
theorem proceed (tended : Tended profile ({.duty (.drive id)} + others) world log)
    (fresh : operation.Fresh world.store) (subject : operation.subject? = some id)
    (kind : (operation.draft world.store.profile).type = .txSubmitted ∨
      (operation.draft world.store.profile).type = .txConfirmed) :
    Tended profile ({.duty (.drive id)} + others)
      { world with store := (world.store.perform ⟨operation, fault⟩).1 } log := by
  have owed := tended.owed
  rw [duties_duty] at owed
  refine ⟨?_, fun other pending => ?_, tended.noted_perform fresh, tended.unsent, tended.driven,
    tended.single⟩
  · rw [duties_duty]
    exact owed.proceed fresh subject kind
  · by_cases same : other = id
    · subst same
      rw [duties_duty, claims_cons rfl]
      exact Multiset.mem_cons_self _ _
    · refine tended.complete other (pending_of_frame (Store.perform_frame ?_) pending)
      rw [subject]
      exact fun here => same (Option.some.inj here).symm

/-- What is pending when an owner has settled its request belongs to the others. -/
theorem pending_others {duty : Duty} (complete : ∀ other, world.store.Pending other →
      other ∈ claims (duties ({.duty duty} + others)) world.queue)
    (names : duty.requestID? = some id) (subject : operation.subject? = some id)
    (settled : ¬ (world.store.perform ⟨operation, fault⟩).1.Pending id) (other : GoString)
    (pending : (world.store.perform ⟨operation, fault⟩).1.Pending other) :
    other ∈ claims (duties others) world.queue := by
  have elsewhere : other ≠ id := fun same => settled (same ▸ pending)
  have frame : operation.subject? ≠ some other := by
    rw [subject]
    exact fun here => elsewhere (Option.some.inj here).symm
  have member := complete other (pending_of_frame (Store.perform_frame frame) pending)
  rw [duties_duty, claims_cons names] at member
  exact (Multiset.mem_cons.mp member).resolve_left elsewhere

/-- The handler lets the request fail that the queue did not take. -/
theorem fail (tended : Tended profile ({.duty (.fresh id)} + others) world log)
    (fresh : operation.Fresh world.store) (subject : operation.subject? = some id)
    (settled : ¬ (world.store.perform ⟨operation, fault⟩).1.Pending id) :
    Tended profile (0 + others)
      { world with store := (world.store.perform ⟨operation, fault⟩).1 } log := by
  have owed := tended.owed
  rw [duties_duty] at owed
  rw [zero_add]
  exact ⟨owed.conclude rfl fresh subject, pending_others tended.complete rfl subject settled,
    tended.noted_perform fresh, fun other member => tended.unsent other (more member),
    fun other member => tended.driven other (more member), tended.countP_others⟩

/-- The worker settles the request that it drives, and is at rest. -/
theorem settle (tended : Tended profile ({.duty (.drive id)} + others) world log)
    (fresh : operation.Fresh world.store) (subject : operation.subject? = some id)
    (settled : ¬ (world.store.perform ⟨operation, fault⟩).1.Pending id) :
    Tended profile ({.resting} + others)
      { world with store := (world.store.perform ⟨operation, fault⟩).1 } log := by
  have owed := tended.owed
  rw [duties_duty] at owed
  refine tended.exchange rfl rfl nofun ?_ ?_ (tended.noted_perform fresh) rfl <;>
    rw [duties_resting]
  · exact owed.conclude rfl fresh subject
  · exact pending_others tended.complete rfl subject settled

variable (fault) in
/-- `Accept` writes a new record. -/
theorem accept_frame (tended : Tended profile (0 + others) world log)
    (unknown : world.store.requests id = none) :
    World.Owed profile (duties others) { world with
        store := (world.store.perform ⟨.accept clientKey address at_ id, fault⟩).1 } ∧
      id ∉ claims (duties others) world.queue := by
  have owed := tended.owed
  rw [zero_add] at owed
  have unclaimed : id ∉ claims (duties others) world.queue := by
    intro member
    obtain ⟨request, known, -⟩ := owed.live id member
    cases known.symm.trans unknown
  refine ⟨owed.rewrite (owed.regular.perform unknown) fun other member => ?_, unclaimed⟩
  refine Store.perform_frame ?_
  rintro ⟨⟩
  exact unclaimed member

variable (tended : Tended profile (0 + others) world log)

include tended

/-- What is pending after `Accept`, apart from a new request, was pending before. -/
theorem complete_accept {other : GoString} (elsewhere : other ≠ id)
    (pending : (world.store.perform ⟨.accept clientKey address at_ id, fault⟩).1.Pending other) :
    other ∈ claims (duties others) world.queue := by
  have frame : (Operation.accept clientKey address at_ id).subject? ≠ some other :=
    fun same => elsewhere (Option.some.inj same).symm
  have member := tended.complete other (pending_of_frame (Store.perform_frame frame) pending)
  rw [zero_add] at member
  exact member

/-- The handler owns the request that it has accepted. -/
theorem accepts {accepted : Request} (unknown : world.store.requests id = none)
    (returned : (world.store.perform ⟨.accept clientKey address at_ id, fault⟩).2 =
      .request accepted false) :
    accepted.id = id ∧ Tended profile ({.duty (.fresh id)} + others) { world with
      store := (world.store.perform ⟨.accept clientKey address at_ id, fault⟩).1 } log := by
  obtain ⟨owed, unclaimed⟩ := tended.accept_frame fault unknown
  obtain ⟨named, queued⟩ :=
    Store.accept_queued unknown tended.owed.regular.keyed returned
  refine ⟨named, ?_, fun other pending => ?_, tended.noted_perform unknown, fun other member => ?_,
    fun other member => ?_, ?_⟩
  · rw [duties_duty]
    exact owed.take rfl unclaimed queued.live fun _ => queued
  · rw [duties_duty, claims_cons rfl]
    by_cases same : other = id
    · exact same ▸ Multiset.mem_cons_self _ _
    · exact Multiset.mem_cons_of_mem (tended.complete_accept same pending)
  · obtain here | there := mem_add.mp member
    · cases Multiset.mem_singleton.mp here
      intro sent
      obtain ⟨request, known, -⟩ := tended.noted.known _ sent
      cases known.symm.trans unknown
    · exact tended.unsent other (more there)
  · obtain here | there := mem_add.mp member
    · cases Multiset.mem_singleton.mp here
    · exact tended.driven other (more there)
  · rw [singleton_add, Multiset.countP_cons, if_neg (by simp [Task.ofWorker]), add_zero]
    exact tended.countP_others

/-- A request that is not accepted leaves nothing to do. -/
theorem refuses (unknown : world.store.requests id = none)
    (refused : ∀ accepted, (world.store.perform ⟨.accept clientKey address at_ id, fault⟩).2 ≠
      .request accepted false) :
    Tended profile (0 + others) { world with
      store := (world.store.perform ⟨.accept clientKey address at_ id, fault⟩).1 } log := by
  obtain ⟨owed, -⟩ := tended.accept_frame fault unknown
  refine ⟨?_, fun other pending => ?_, tended.noted_perform unknown, tended.unsent, tended.driven,
    tended.single⟩
  · rw [zero_add]
    exact owed
  · rw [zero_add]
    by_cases same : other = id
    · subst same
      obtain ⟨accepted, returned⟩ := Store.accept_pending unknown pending
      exact absurd returned (refused accepted)
    · exact tended.complete_accept same pending

end World.Tended

end Torium.Faucet
