import Torium.Faucet.Accounting
import Torium.Faucet.Loop

/-!
# The worker keeps its accounts

The worker is verified against a discipline: the others are harmless, and what was sent
for every request stays accounted for. Two of its commands need a permission.

`settleSubmission` reads the receipt of the recorded hash and then the nonce of its
signer. It concludes that the submission is gone when there was no receipt and the nonce
is used. The nonce may have been used by a transaction that was sent for this request:
by the recorded one, if it landed between the two reads, or by an earlier one with the
same nonce, since a replacement takes its place in the record.

`replaceSubmission` compares the signer with the recorded one before it signs. A rotation
in between makes it sign with another key.
-/

namespace Torium.Faucet

open Evm Concurrent Attempt

/-- No transaction that was sent for a request holds the recorded slot successfully when
the nonce is read, and a replacement is signed with the key of the submission. -/
def Careful [EthText] : Command → World → Prop
  | .nonceAt settling _, world => ∀ sent ∈ world.sent, sent.1 = settling.id →
      sent.2.slot = settling.slot → ¬ world.chain.Succeeded sent.2
  | .sign (.replace request) _, world => request.signerAddress = addressHex world.signer
  | _, _ => True

instance [EthText] (c : Command) (world : World) : Decidable (Careful c world) := by
  unfold Careful
  split <;> infer_instance

section Discipline

variable [EthText] [Digest]

def discipline (profile : Profile) : Discipline service Choice World where
  execute := execute
  invariant := World.Accounted profile
  interference := World.Harmless
  permitted := Careful
  refl := World.Harmless.refl
  trans := World.Harmless.trans

variable {profile : Profile} {world world' : World} {request : Request} {context : String}

section Stability

variable {requestID : GoString} {slot : Address × Nat}

theorem stable_allDead : Stable (discipline profile) (World.AllDead requestID) :=
  fun _ _ step dead => dead.harmless step

theorem stable_records : Stable (discipline profile) (World.Records requestID slot) :=
  fun _ _ step records => records.harmless step

theorem stable_settled {gone : Prop} :
    Stable (discipline profile) (World.Settled request gone) :=
  fun _ _ step settled => ⟨settled.1.harmless step, fun holds => (settled.2 holds).harmless step⟩

theorem stable_read :
    Stable (discipline profile) (World.Read requestID request) :=
  fun _ _ step read => read.harmless step

end Stability

section Rules

variable {α : Type} {pre : World → Prop} {post : α → World → Prop}

theorem achieves_rpc {program : Program service (Except GoError α)}
    (stable : ∀ value, Stable (discipline profile) (post value))
    (done : Triple (discipline profile) pre program
      fun result world => ∀ value, result = .ok value → post value world) :
    Achieves (discipline profile) pre (rpc context program) post := by
  refine attempts_rpc stable .true (done.consequence (fun _ => id) fun result world holds => ?_)
  cases result with
  | ok value => exact holds value rfl
  | error => trivial

end Rules

/-- A transaction may be sent for a request that records its slot. -/
theorem broadcast_recorded {requestID : GoString} {purpose : Purpose} {transaction : Transaction}
    {context : GoError → String} (forRequest : purpose.requestID? = some requestID) :
    Achieves (discipline profile) (World.Records requestID transaction.slot)
      (broadcast purpose transaction context) (fun _ _ => True) := by
  have sent : Triple (discipline profile) (World.Records requestID transaction.slot)
      (call (.sendTransaction purpose transaction)) fun _ _ => True := by
    refine Triple.command stable_records (fun _ => .true) ?_
    intro world choice response world' accounted records _ executed
    have accounted' (reached : Bool) :
        (world.send purpose transaction reached).Accounted profile := by
      refine ⟨accounted.keyed, accounted.faithful, ⟨accounted.chain.used, accounted.chain.once⟩, ?_⟩
      intro other transaction' member
      simp only [World.send, forRequest, List.mem_append, List.mem_singleton] at member
      obtain old | new := member
      · exact accounted.covered other transaction' old
      · cases new
        obtain ⟨request, known, recorded, slots⟩ := records
        exact ⟨request, known, recorded, .inr slots.symm⟩
    refine ⟨?_, trivial⟩
    cases choice <;> cases executed <;> exact accounted' _
  apply Achieves.bind (Attempts.lift (fun _ => .true) sent)
  intro answer
  cases answer with
  | none => exact Attempts.pure .true fun _ _ => trivial
  | some error => exact Achieves.throw

/-- What a signature returns; a permitted replacement is signed by the recorded key. -/
theorem achieves_sign {pre : World → Prop} {purpose : Purpose} {unsigned : UnsignedTransaction}
    (stable : Stable (discipline profile) pre) :
    Achieves (discipline profile) pre (rpc context (call (.sign purpose unsigned)))
      fun result world => (result.1.slot = (result.2, unsigned.nonce) ∧
        ∀ request, purpose = .replace request → request.signerAddress = addressHex result.2) ∧
        pre world := by
  apply achieves_rpc fun _ => stable.and
  refine Triple.command stable (fun _ _ _ step holds value same =>
    stable.and _ _ step (holds value same)) ?_
  intro world choice response world' accounted holds careful executed
  have untouched : world.Untouched world' :=
    execute_untouched (c := .sign purpose unsigned) rfl (fun _ same => nomatch same) executed
  refine ⟨untouched.accounted accounted, ?_⟩
  rintro ⟨signed, signedBy⟩ rfl
  obtain ⟨-, key, slots⟩ := World.sign_signed executed
  refine ⟨⟨slots, ?_⟩, stable _ _ untouched.harmless holds⟩
  rintro request rfl
  rw [key]
  exact careful

/-! ## Reads -/

theorem get_reads {requestID : GoString} :
    Triple (discipline profile) (fun _ => True) (call (.get requestID))
      fun (found : Option Request) world => ∀ request, found = some request →
        world.Read requestID request := by
  refine Triple.command .true (fun _ _ _ step holds request same =>
    stable_read _ _ step (holds request same)) ?_
  intro world choice found world' accounted _ _ executed
  have untouched : world.Untouched world' :=
    execute_untouched (c := .get requestID) rfl (fun _ same => nomatch same) executed
  refine ⟨untouched.accounted accounted, ?_⟩
  rintro request rfl
  have known : world.store.requests requestID = some request := World.reads_value executed
  exact (accounted.read known).harmless untouched.harmless

/-- A nonce that is found used, when the read is permitted. -/
theorem nonceAt_settles :
    Triple (discipline profile) (World.Records request.id request.slot)
      (call (.nonceAt request (hexToAddress request.signerAddress)))
      fun (answer : Except GoError Nat) world => ∀ confirmedNonce, answer = .ok confirmedNonce →
        world.Settled request (request.nonce < confirmedNonce) := by
  refine Triple.command stable_records (fun _ _ _ step holds confirmedNonce same =>
    stable_settled _ _ step (holds confirmedNonce same)) ?_
  intro world choice answer world' accounted records careful executed
  have untouched : world.Untouched world' :=
    execute_untouched (c := .nonceAt request _) rfl (fun _ same => nomatch same) executed
  refine ⟨untouched.accounted accounted, ?_⟩
  rintro confirmedNonce rfl
  refine ⟨records.harmless untouched.harmless, fun used => ?_⟩
  rw [World.nonceAt_answer executed] at used
  exact (accounted.gone records careful used).harmless untouched.harmless

variable [EthText.Lawful]

/-- All but the worker do no more than quiet commands. -/
theorem quiet_harmless {c : Command} {choice : Choice} {response : Response c}
    (quiet : c.quiet = true) (executed : execute c choice world = some (response, world')) :
    world.Harmless world' := by
  by_cases store : ∃ operation, c = .perform operation
  · obtain ⟨operation, rfl⟩ := store
    obtain ⟨fault, fresh, -, rfl⟩ := World.perform_cases executed
    have other : operation.isSubmission = false := by simpa [Command.quiet] using quiet
    exact ⟨Store.perform_keeps fresh other, rfl, fun _ => id⟩
  · exact (execute_untouched quiet (fun operation same => store ⟨operation, same⟩)
      executed).harmless

/-- Quiet commands keep the accounts. -/
theorem quiet_accounted {c : Command} (quiet : c.quiet = true) : Quiet (discipline profile) c := by
  intro world choice response world' accounted executed
  have harmless := quiet_harmless quiet executed
  refine ⟨?_, harmless⟩
  by_cases store : ∃ operation, c = .perform operation
  · obtain ⟨operation, rfl⟩ := store
    obtain ⟨fault, -, -, rfl⟩ := World.perform_cases executed
    exact World.Accounted.harmless accounted harmless (Store.perform_keyed accounted.keyed _)
      (accounted.faithful.perform _) accounted.chain
  · exact (execute_untouched quiet (fun operation same => store ⟨operation, same⟩)
      executed).accounted accounted

theorem IsQuiet.only {α : Type} {program : Program service α} (quiet : IsQuiet program) :
    program.Only (Quiet (discipline profile)) :=
  Program.Only.mono (fun _ => quiet_accounted) quiet

/-! ## Submissions -/

variable {requestID : GoString} {hash : Bytes32} {nonce : Nat} {signer : Address}

/-- A submission may be recorded when it covers everything that was sent before. -/
theorem World.submit_spec {at_ : Time} {choice : Choice} {outcome : Outcome}
    (accounted : world.Accounted profile)
    (covers : ∀ old new : Request, world.store.requests requestID = some old →
      new.signerAddress = addressHex signer → (new.nonce = nonce ∨ new.nonce = old.nonce) →
      ∀ transaction, (requestID, transaction) ∈ world.sent →
        world.chain.Dead transaction ∨ transaction.slot = new.slot)
    (executed : world.perform (.recordSubmitted requestID hash nonce signer at_) choice =
      some (outcome, world')) :
    world'.Accounted profile ∧
      ((∀ error, outcome ≠ .failed error) → world'.Records requestID (signer, nonce)) := by
  obtain ⟨fault, -, rfl, rfl⟩ := perform_cases executed
  refine ⟨⟨Store.perform_keyed accounted.keyed _, accounted.faithful.perform _, accounted.chain,
    ?_⟩, ?_⟩
  · intro other transaction sent
    obtain ⟨request, known, recorded, state⟩ := accounted.covered other transaction sent
    obtain same | ⟨new, ⟨old, known', recorded', signers, nonces⟩, same⟩ :=
      world.store.recordSubmitted_rewrites fault requestID hash nonce signer at_
    · exact ⟨request, (congrFun same other).trans known, recorded, state⟩
    · by_cases here : other = requestID
      · subst here
        refine ⟨new, (congrFun same other).trans (Function.update_self _ _ _), recorded', ?_⟩
        exact covers old new known' signers nonces transaction sent
      · refine ⟨request, (congrFun same other).trans ?_, recorded, state⟩
        rw [Function.update_of_ne here, known]
  · intro done
    apply Store.recordSubmitted_done
    cases failed : (world.store.recordSubmitted fault requestID hash nonce signer at_).2 with
    | none => rfl
    | some error => exact absurd (congrArg Outcome.ofError failed) (done error)

theorem record_submission {pre : World → Prop} (stable : Stable (discipline profile) pre)
    (covers : ∀ {world : World}, world.Accounted profile → pre world →
      ∀ old new : Request, world.store.requests requestID = some old →
        new.signerAddress = addressHex signer → (new.nonce = nonce ∨ new.nonce = old.nonce) →
        ∀ transaction, (requestID, transaction) ∈ world.sent →
          world.chain.Dead transaction ∨ transaction.slot = new.slot) :
    Achieves (discipline profile) pre
      (record context (.recordSubmitted requestID hash nonce signer))
      (fun _ => World.Records requestID (signer, nonce)) := by
  apply Achieves.bind (Achieves.quiet stable (IsQuiet.only (only_ask rfl)))
  intro now
  have submitted : Triple (discipline profile) pre
      (call (.perform (.recordSubmitted requestID hash nonce signer now)))
      fun (outcome : Outcome) world =>
        (∀ error, outcome ≠ .failed error) → world.Records requestID (signer, nonce) :=
    Triple.command stable (fun _ => Stable.imp stable_records)
      fun accounted holds _ executed =>
        World.submit_spec accounted (covers accounted holds) executed
  apply Achieves.bind (Attempts.lift (fun _ => Stable.imp stable_records) submitted)
  intro outcome
  cases outcome with
  | failed error => exact Achieves.throw
  | _ => exact Attempts.pure (Stable.imp stable_records) fun _ recorded => recorded nofun

/-! ## The programs of the worker -/

theorem fundOnce_accounted : Achieves (discipline profile) (World.AllDead requestID)
    (fundOnce profile requestID) (fun _ _ => True) := by
  have quiet {α : Type} {program : Attempt α} (quiet : IsQuiet program.run) :
      Achieves (discipline profile) (World.AllDead requestID) program
        (fun _ => World.AllDead requestID) :=
    Achieves.quiet stable_allDead (IsQuiet.only quiet)
  apply Achieves.bind (quiet (only_ask rfl)); intro found
  apply Achieves.bind (quiet only_must); intro request
  apply Achieves.bind (quiet only_must); intro amount
  refine Achieves.bind (quiet (only_rpc (only_call rfl))) fun chainID => ?_
  apply Achieves.bind (quiet only_require); intro _
  apply Achieves.bind (quiet (only_ask rfl)); intro signerAddress
  refine Achieves.bind (quiet (only_rpc (only_call rfl))) fun nonce => ?_
  refine Achieves.bind (quiet (only_rpc (only_call rfl))) fun baseFee => ?_
  apply Achieves.bind (quiet idle_suggestedTip.inert.quiet); intro tip
  apply Achieves.bind (achieves_sign stable_allDead); rintro ⟨signed, signedBy⟩
  apply Attempts.assuming; rintro ⟨slots, -⟩
  apply Achieves.bind (attempts_require stable_allDead fun _ _ _ => trivial); intro _
  apply Attempts.assuming; rintro rfl
  apply Achieves.bind (record_submission stable_allDead
    fun _ dead _ _ _ _ _ transaction sent => .inl (dead transaction sent)); intro _
  apply Achieves.bind ((broadcast_recorded rfl).consequence
    (fun world records => (show World.Records requestID signed.slot world by
      rw [slots]; exact records)) (fun _ _ => id) fun _ _ => id); intro _
  apply Achieves.quiet .true (IsQuiet.only _)
  exact only_bind idle_waitForReceipt.inert.quiet fun receipt => only_bind only_require fun _ =>
    only_record rfl fun _ => rfl

theorem replaceSubmission_accounted {bump : Int} :
    Achieves (discipline profile) (World.Records request.id request.slot)
      (replaceSubmission profile request bump) (fun _ _ => True) := by
  have quiet {α : Type} {program : Attempt α} (quiet : IsQuiet program.run) :
      Achieves (discipline profile) (World.Records request.id request.slot) program
        (fun _ => World.Records request.id request.slot) :=
    Achieves.quiet stable_records (IsQuiet.only quiet)
  apply Achieves.bind (quiet only_must); intro amount
  refine Achieves.bind (quiet (only_rpc (only_call rfl))) fun chainID => ?_
  apply Achieves.bind (quiet only_require); intro _
  apply Achieves.bind (quiet (only_ask rfl)); intro signerAddress
  apply Achieves.bind (quiet only_require); intro _
  refine Achieves.bind (quiet (only_rpc (only_call rfl))) fun baseFee => ?_
  apply Achieves.bind (quiet idle_suggestedTip.inert.quiet); intro tip
  apply Achieves.bind (achieves_sign stable_records); rintro ⟨signed, signedBy⟩
  apply Attempts.assuming; rintro ⟨slots, key⟩
  have sameSlot : signed.slot = request.slot := by
    rw [slots, Request.slot, key request rfl, EthText.Lawful.hexToAddress_addressHex]
  apply Achieves.bind (record_submission stable_records ?_)
  · intro _
    refine (broadcast_recorded rfl).consequence (fun world records => ?_) (fun _ _ => id)
      fun _ _ => id
    rw [sameSlot]
    exact records
  · -- The new record has the slot of the old one.
    rintro world accounted ⟨old, known, -, slots'⟩ old' new known' signers nonces transaction sent
    cases known.symm.trans known'
    obtain ⟨covered, known'', -, state⟩ := accounted.covered request.id transaction sent
    cases known.symm.trans known''
    have nonce : new.nonce = request.nonce := nonces.elim id fun same =>
      same.trans (Prod.mk.inj slots').2
    have newSlot : new.slot = request.slot := by
      rw [Request.slot, signers, EthText.Lawful.hexToAddress_addressHex, nonce, Request.slot]
    rw [newSlot, ← slots']
    exact state

theorem settleSubmission_accounted :
    Achieves (discipline profile) (World.Records request.id request.slot)
      (settleSubmission request) fun outcome => World.Settled request (outcome = .gone) := by
  have here {outcome : SettleOutcome} (other : outcome ≠ .gone) :
      Achieves (discipline profile) (World.Records request.id request.slot)
        (pure outcome : Attempt SettleOutcome)
        fun outcome => World.Settled request (outcome = .gone) :=
    Attempts.pure stable_records fun _ records => ⟨records, fun gone => absurd gone other⟩
  apply Achieves.bind (Achieves.quiet stable_records (IsQuiet.only (only_ask rfl)))
  rintro (error | receipt)
  · dsimp only
    split_ifs
    · apply Achieves.bind (achieves_rpc (fun _ => stable_settled) nonceAt_settles)
      intro confirmedNonce
      split_ifs with used
      · exact Attempts.pure stable_settled fun _ settled => ⟨settled.1, fun _ => settled.2 used⟩
      · exact Attempts.pure stable_settled fun _ settled => ⟨settled.1, nofun⟩
    · exact Achieves.throw
  · dsimp only
    split_ifs
    · apply Achieves.bind
        (Achieves.quiet stable_records (IsQuiet.only (only_record rfl fun _ => rfl)))
      intro _
      exact here nofun
    · exact here nofun

/-! ## The loop -/

/-- A request may be funded when nothing that was sent for it can land, and it is in flight
when its submission is recorded. -/
theorem drivable_accounted : Drivable (discipline profile) profile World.AllDead
    (fun _ _ => True) (fun request => World.Records request.id request.slot) where
  inert inert := quiet_accounted (Command.quiet_of_neutral (Command.neutral_of_inert inert))
  dequeue := quiet_accounted rfl
  stable_clear _ := stable_allDead
  stable_doomed _ := .true
  stable_inFlight _ := stable_records
  get requestID := by
    refine get_reads.consequence (fun _ => id) fun found world holds request same => ?_
    obtain ⟨named, recorded, unrecorded⟩ := holds request same
    subst named
    refine ⟨rfl, fun flight => recorded ⟨by simp [flight.1], flight.2⟩, fun pending other => ?_⟩
    refine unrecorded fun ⟨notQueued, hash⟩ => other ⟨?_, hash⟩
    exact (of_decide_eq_true pending).resolve_left notQueued
  settle request := settleSubmission_accounted.consequence (fun _ => id)
    (fun _ _ settled => ⟨fun _ => trivial, settled.2, fun _ => settled.1⟩) fun _ _ => id
  replace request bump :=
    Triple.consequence (fun _ => id) replaceSubmission_accounted fun _ _ _ => trivial
  fund requestID := fundOnce_accounted.consequence (fun _ => id) (fun _ _ => id)
    fun _ _ _ _ => trivial
  fail _ _ _ := Triple.quiet .true (IsQuiet.only (only_call rfl))

end Discipline

end Torium.Faucet
