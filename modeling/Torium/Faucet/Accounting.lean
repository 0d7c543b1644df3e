import Torium.Faucet.Effects
import Torium.Faucet.Quiet
import Torium.Faucet.Records

/-!
# What was sent for a request

The journal keeps one submission for a request, but several transactions may have been
sent for it. The invariant relates them: a transaction that was sent for a request is
dead, or it has the slot of the recorded submission. At most one transaction of a slot
lands, so this is what keeps a request from being paid twice.

Only the worker records submissions and sends transactions for requests. Everything
else in the system interferes with it in a harmless way: known requests continue their
records, nothing more is sent for a request, and what is dead stays dead.
-/

namespace Torium.Faucet

open Evm Concurrent

namespace World

/-- Nothing that was sent for the request can land any more. -/
def AllDead (requestID : GoString) (world : World) : Prop :=
  ∀ transaction, (requestID, transaction) ∈ world.sent → world.chain.Dead transaction

/-- The request has a recorded submission with this slot. -/
def Records [EthText] (requestID : GoString) (slot : Address × Nat) (world : World) : Prop :=
  ∃ request, world.store.requests requestID = some request ∧ request.Recorded ∧
    request.slot = slot

structure Accounted [EthText] (profile : Profile) (world : World) : Prop where
  keyed : world.store.Keyed
  faithful : world.store.Faithful profile
  chain : world.chain.WellFormed
  covered : ∀ requestID transaction, (requestID, transaction) ∈ world.sent →
    ∃ request, world.store.requests requestID = some request ∧ request.Recorded ∧
      (world.chain.Dead transaction ∨ transaction.slot = request.slot)

/-- What all but the worker may do. -/
structure Harmless (before after : World) : Prop where
  records : before.store.Keeps after.store
  sent : after.sent = before.sent
  dead : ∀ transaction, before.chain.Dead transaction → after.chain.Dead transaction

variable {world world' : World} {requestID : GoString} {profile : Profile} {request : Request}

theorem Harmless.refl (world : World) : world.Harmless world :=
  ⟨.of_eq rfl, rfl, fun _ => id⟩

theorem Harmless.trans {first second third : World} (here : first.Harmless second)
    (later : second.Harmless third) : first.Harmless third :=
  ⟨here.records.trans later.records, later.sent.trans here.sent,
    fun transaction => later.dead transaction ∘ here.dead transaction⟩

theorem AllDead.harmless (dead : world.AllDead requestID) (harmless : world.Harmless world') :
    world'.AllDead requestID := by
  intro transaction sent
  rw [harmless.sent] at sent
  exact harmless.dead transaction (dead transaction sent)

theorem Records.harmless [EthText] {slot : Address × Nat} (records : world.Records requestID slot)
    (harmless : world.Harmless world') :
    world'.Records requestID slot := by
  obtain ⟨request, known, recorded, rfl⟩ := records
  obtain ⟨new, known', continues⟩ := harmless.records requestID request known
  exact ⟨new, known', continues.recorded recorded, continues.slot⟩

theorem Accounted.harmless [EthText] (accounted : world.Accounted profile)
    (harmless : world.Harmless world') (keyed : world'.store.Keyed)
    (faithful : world'.store.Faithful profile) (chain : world'.chain.WellFormed) :
    world'.Accounted profile := by
  refine ⟨keyed, faithful, chain, ?_⟩
  intro requestID transaction sent
  rw [harmless.sent] at sent
  obtain ⟨request, known, recorded, state⟩ := accounted.covered requestID transaction sent
  obtain ⟨new, known', continues⟩ := harmless.records requestID request known
  refine ⟨new, known', continues.recorded recorded, ?_⟩
  rw [continues.slot]
  exact state.imp_left (harmless.dead transaction)

/-- What is known after a submission was settled: the record has kept its slot, and if the
submission is gone, nothing can land any more. -/
def Settled [EthText] (request : Request) (gone : Prop) (world : World) : Prop :=
  world.Records request.id request.slot ∧ (gone → world.AllDead request.id)

/-- What is known about a request that was read: its submission is recorded, or nothing
was sent for it. -/
def Read [EthText] (requestID : GoString) (request : Request) (world : World) : Prop :=
  request.id = requestID ∧ (request.Recorded → world.Records requestID request.slot) ∧
    (¬ request.Recorded → world.AllDead requestID)

theorem Read.harmless [EthText] (read : world.Read requestID request)
    (step : world.Harmless world') :
    world'.Read requestID request :=
  ⟨read.1, fun recorded => (read.2.1 recorded).harmless step,
    fun unrecorded => (read.2.2 unrecorded).harmless step⟩

/-- What the accounts say about a request that is read. -/
theorem Accounted.read [EthText] (accounted : world.Accounted profile)
    (known : world.store.requests requestID = some request) :
    world.Read requestID request := by
  refine ⟨accounted.keyed requestID request known, fun recorded => ⟨request, known, recorded, rfl⟩,
    fun unrecorded transaction sent => ?_⟩
  obtain ⟨request', known', recorded, -⟩ := accounted.covered requestID transaction sent
  cases known.symm.trans known'
  exact absurd recorded unrecorded

/-- When the nonce of the recorded slot is used and nothing with that slot has succeeded,
nothing can land any more. -/
theorem Accounted.gone [EthText] (accounted : world.Accounted profile)
    (records : world.Records request.id request.slot)
    (careful : ∀ sent ∈ world.sent, sent.1 = request.id → sent.2.slot = request.slot →
      ¬ world.chain.Succeeded sent.2)
    (used : request.nonce < world.chain.nonces (hexToAddress request.signerAddress)) :
    world.AllDead request.id := by
  intro transaction sent
  obtain ⟨old, known, -, slots⟩ := records
  obtain ⟨old', known', -, dead | same⟩ := accounted.covered request.id transaction sent
  · exact dead
  · cases known.symm.trans known'
    have here : transaction.slot = request.slot := same.trans slots
    obtain ⟨sender, nonce⟩ := Prod.mk.inj here
    refine ⟨?_, careful (request.id, transaction) sent rfl here⟩
    rw [sender, nonce]
    exact used

/-! ## Payments -/

/-- The successful transactions that were sent for the request. -/
def payments (world : World) (requestID : GoString) : List Receipt :=
  world.chain.landed.filter fun receipt =>
    receipt.successful ∧ (requestID, receipt.transaction) ∈ world.sent

theorem Accounted.payments_le_one [EthText] (accounted : world.Accounted profile)
    (requestID : GoString) :
    (world.payments requestID).length ≤ 1 := by
  have slot : ∀ receipt ∈ world.payments requestID, ∃ request,
      world.store.requests requestID = some request ∧
        receipt.transaction.slot = request.slot := by
    intro receipt member
    obtain ⟨landed, success, sent⟩ : receipt ∈ world.chain.landed ∧ receipt.successful = true ∧
        (requestID, receipt.transaction) ∈ world.sent := by
      simpa [payments] using member
    obtain ⟨request, known, -, dead | same⟩ := accounted.covered requestID _ sent
    · exact absurd ⟨receipt, landed, rfl, success⟩ dead.2
    · exact ⟨request, known, same⟩
  have once := accounted.chain.once.filter fun receipt : Receipt =>
    receipt.successful ∧ (requestID, receipt.transaction) ∈ world.sent
  change (world.payments requestID).Pairwise _ at once
  -- Two payments would both have the recorded slot.
  match payments : world.payments requestID with
  | [] => simp
  | [receipt] => simp
  | first :: second :: rest =>
    rw [payments] at once slot
    obtain ⟨request, known, same⟩ := slot first (by simp)
    obtain ⟨request', known', same'⟩ := slot second (by simp)
    cases known.symm.trans known'
    exact absurd (same.trans same'.symm) (List.rel_of_pairwise_cons once (by simp))

/-! ## Commands that leave the records and the chain alone -/

structure Untouched (before after : World) : Prop where
  store : after.store = before.store
  nonces : after.chain.nonces = before.chain.nonces
  landed : after.chain.landed = before.chain.landed
  sent : after.sent = before.sent

theorem Untouched.of_eq (same : world' = world) : world.Untouched world' := by
  subst same
  exact ⟨rfl, rfl, rfl, rfl⟩

theorem Untouched.harmless (untouched : world.Untouched world') : world.Harmless world' := by
  refine ⟨.of_eq (by rw [untouched.store]), untouched.sent, fun transaction dead => ?_⟩
  rw [Chain.Dead, Chain.Succeeded]
  rw [untouched.nonces, untouched.landed]
  exact dead

theorem Untouched.accounted [EthText] (untouched : world.Untouched world')
    (accounted : world.Accounted profile) : world'.Accounted profile := by
  refine accounted.harmless untouched.harmless ?_ ?_ ⟨?_, ?_⟩
  · rw [untouched.store]
    exact accounted.keyed
  · rw [untouched.store]
    exact accounted.faithful
  · rw [untouched.nonces, untouched.landed]
    exact accounted.chain.used
  · rw [untouched.landed]
    exact accounted.chain.once

end World

/-- A quiet command that is no operation of the store. -/
theorem execute_untouched [EthText] [Digest] {c : Command} {choice : Choice} {world world' : World}
    {response : Response c} (quiet : c.quiet = true) (reading : ∀ operation, c ≠ .perform operation)
    (executed : execute c choice world = some (response, world')) : world.Untouched world' := by
  cases execute_effect executed with
  | nothing => exact .of_eq rfl
  | store => exact absurd rfl (reading _)
  | breakers | signer | enqueued | dequeued | signed => exact ⟨rfl, rfl, rfl, rfl⟩
  | sent =>
    -- Drains are sent for no request.
    refine ⟨rfl, rfl, rfl, ?_⟩
    simp only [World.send, Option.isNone_iff_eq_none.mp quiet]

end Torium.Faucet
