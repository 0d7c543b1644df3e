import Torium.Faucet.Core
import Torium.Lib.Replica

/-!
# A restart cannot be observed

Stores with the same journal and the same core answer every query and every later
operation alike. A live store and the one that is rebuilt from its journal are such a
pair, as long as no operation has failed.
-/

namespace Torium.Faucet

open Evm

/-- Alike stores with the same result. -/
structure Store.AlikeWith {ρ : Type} (left right : Store × ρ) : Prop where
  alike : left.1.Alike right.1
  result : left.2 = right.2

/-- What the queries return, at all arguments. -/
structure Store.SameAnswers [EthText] (s t : Store) : Prop where
  get : ∀ requestID, s.get requestID = t.get requestID
  findReplay : ∀ clientKey address at_,
    s.findReplay clientKey address at_ = t.findReplay clientKey address at_
  spentToday : ∀ at_, s.spentToday at_ = t.spentToday at_
  paused : s.isPaused = t.isPaused
  signerFenced : ∀ signer, s.signerFenced signer = t.signerFenced signer
  pendingRequests : s.pendingRequests = t.pendingRequests

/-! ## Alike stores -/

section Alike

variable {s t : Store}

theorem Store.limitDenial_core (alike : s.core = t.core) (state : AddressState) (now : Time) :
    s.limitDenial state now = t.limitDenial state now :=
  eq_of_core alike (limitDenial · state now)

theorem Store.Alike.addressStateFor (alike : s.Alike t) (address : Address) :
    AlikeWith (s.addressStateFor address).swap (t.addressStateFor address).swap where
  alike :=
    { journal := by
        rw [addressStateFor_eq, addressStateFor_eq]
        exact alike.journal
      core := (addressStateFor_core address).trans
        (alike.core.trans (addressStateFor_core address).symm) }
  result := by
    simp only [addressStateFor_eq, Prod.snd_swap]
    exact Option.some.inj (congrFun (eq_of_core alike.core fun u => u.core.addresses) address)

variable [EthText] [Digest]

/-- The same transition on stores that are alike. -/
theorem Store.Alike.transition (alike : s.Alike t) (fault : Option GoString) (type : EntryType)
    (at_ : Time) (payload : Payload) :
    AlikeWith (s.transition fault type at_ payload) (t.transition fault type at_ payload) := by
  unfold Store.transition
  rw [alike.journal]
  split
  next error failed => exact ⟨alike, rfl⟩
  next entry journal appended =>
      have cores : { s with journal }.core = { t with journal }.core := alike.core
      obtain ⟨core, error⟩ := applyEntry_core cores entry
      refine ⟨⟨?_, core⟩, error⟩
      rw [applyEntry_journal, applyEntry_journal]

theorem Store.Alike.recordAccepted (alike : s.Alike t) (fault : Option GoString)
    (scopedKey : GoString) (address : Address) (now : Time) (requestID : GoString) :
    AlikeWith (s.recordAccepted fault scopedKey address now requestID)
      (t.recordAccepted fault scopedKey address now requestID) := by
  unfold Store.recordAccepted
  rw [eq_of_core alike.core profile]
  generalize acceptedPayload requestID scopedKey address t.profile.amountPerRequest = payload
  have both := alike.transition fault .requestAccepted now payload
  revert both
  rcases s.transition fault .requestAccepted now payload with ⟨s', error⟩
  rcases t.transition fault .requestAccepted now payload with ⟨t', error'⟩
  rintro ⟨after, errors⟩
  change s'.Alike t' at after
  cases errors
  cases error with
  | some error => exact ⟨after, rfl⟩
  | none =>
    simp only [requests_of_core after.core]
    cases t'.requests requestID <;> exact ⟨after, rfl⟩

theorem Store.Alike.accept (alike : s.Alike t) (fault : Option GoString) (clientKey : GoString)
    (address : Address) (at_ : Time) (requestID : GoString) :
    AlikeWith (s.accept fault clientKey address at_ requestID)
      (t.accept fault clientKey address at_ requestID) := by
  simp only [Store.accept, eq_of_core alike.core idempotency, eq_of_core alike.core paused,
    requests_of_core alike.core]
  split
  next existingID found => split <;> exact ⟨alike, rfl⟩
  next found =>
      split_ifs with paused
      · exact ⟨alike, rfl⟩
      · have both := alike.addressStateFor address
        revert both
        rcases s.addressStateFor address with ⟨state, s'⟩
        rcases t.addressStateFor address with ⟨state', t'⟩
        rintro ⟨created, states⟩
        change s'.Alike t' at created
        cases states
        simp only [limitDenial_core created.core]
        split
        next denial limited => exact ⟨created, rfl⟩
        next unlimited => exact created.recordAccepted fault _ address at_ requestID

/-- No operation tells stores apart that are alike. -/
theorem Store.Alike.perform (alike : s.Alike t) (call : Call) :
    AlikeWith (s.perform call) (t.perform call) := by
  have recorded (type : EntryType) (at_ : Time) (payload : Payload) :
      AlikeWith ((s.transition call.fault type at_ payload).map id Outcome.ofError)
        ((t.transition call.fault type at_ payload).map id Outcome.ofError) :=
    let after := alike.transition call.fault type at_ payload
    ⟨after.alike, congrArg Outcome.ofError after.result⟩
  unfold Store.perform
  cases call.operation with
  | accept => exact alike.accept _ _ _ _ _
  | recordDenied =>
    simp only [recordDenied, eq_of_core alike.core profile]
    exact recorded _ _ _
  | recordSubmitted => exact recorded _ _ _
  | recordConfirmed => exact recorded _ _ _
  | recordFailed | pause | resume | recordRotation | recordRefill => exact recorded _ _ _

theorem Store.alike_bisimulation : Replica.Bisimulation Store.perform Store.Alike where
  next call alike := (Alike.perform alike call).alike
  result call alike := (Alike.perform alike call).result

end Alike

/-! ## Restart -/

section Restart

variable [EthText]

/-- The store can be rebuilt from its journal, up to what cannot be observed. -/
structure Store.Restartable (profile : Profile) (live : Store) : Prop where
  reopens : openJournal live.journal.entries = live.journal
  replays : ∃ restarted, newStore live.journal live.journal.entries profile = .ok restarted ∧
    restarted.core = live.core

variable {profile : Profile} {s t live : Store} {entry : Entry}

theorem Store.Restartable.alike (restartable : s.Restartable profile) (alike : s.Alike t) :
    t.Restartable profile := by
  obtain ⟨restarted, replayed, same⟩ := restartable.replays
  constructor
  · rw [← alike.journal]
    exact restartable.reopens
  · rw [← alike.journal]
    exact ⟨restarted, replayed, same.trans alike.core⟩

theorem Store.Restartable.journals (restartable : s.Restartable profile)
    (journals : s.Journals t entry none) : t.Restartable profile := by
  obtain ⟨restarted, replayed, same⟩ := restartable.replays
  refine ⟨journals.reopens, ?_⟩
  -- The journal that is open during the replay is not part of the core.
  have opened : Store.core { journal := s.journal, profile } =
      Store.core { journal := t.journal, profile } := rfl
  obtain ⟨restarted', replayed', same'⟩ := replay_core opened replayed
  obtain ⟨core, error⟩ := applyEntry_core (same'.symm.trans same) entry
  refine ⟨(restarted'.applyEntry entry).1, ?_, core.trans journals.core⟩
  rw [journals.entries]
  exact replay_snoc.mpr ⟨restarted', replayed', Prod.ext rfl (error.trans journals.applied)⟩

theorem Store.Alike.sameAnswers (alike : s.Alike t) : s.SameAnswers t where
  get requestID := congrFun (requests_of_core alike.core) requestID
  findReplay clientKey address at_ := eq_of_core alike.core (findReplay · clientKey address at_)
  spentToday at_ := eq_of_core alike.core (spentToday · at_)
  paused := eq_of_core alike.core isPaused
  signerFenced signer := eq_of_core alike.core (signerFenced · signer)
  pendingRequests := eq_of_core alike.core pendingRequests

/-- Opening a store makes it restartable, whatever the journal was. -/
theorem Store.Restartable.opened {entries : List Entry}
    (opened : newStore (openJournal entries) entries profile = .ok s) : s.Restartable profile := by
  have journal : s.journal = openJournal entries := replay_journal opened
  constructor
  · rw [journal, openJournal_entries]
  · rw [journal, openJournal_entries]
    exact ⟨s, opened, rfl⟩

variable [Digest]

theorem Store.Restartable.perform {call : Call} (restartable : s.Restartable profile)
    (fine : (s.perform call).2.Fine) : (s.perform call).1.Restartable profile := by
  obtain alike | ⟨entry, error, -, -, journals, applied⟩ := perform_cases (s := s) call
  · exact restartable.alike alike
  · cases applied fine
    exact restartable.journals journals

/-- A restart after any operations that succeeded or were denied at acceptance rebuilds a
store that no query and no later operation tells apart from the live one. -/
theorem restart_equivalence {entries : List Entry} {start : Store} {calls : List Call}
    (opened : newStore (openJournal entries) entries profile = .ok start)
    (fine : ∀ outcome ∈ (Replica.performAll Store.perform start calls).2, outcome.Fine) :
    let live := (Replica.performAll Store.perform start calls).1
    ∃ restarted,
      newStore (openJournal live.journal.entries) live.journal.entries profile = .ok restarted ∧
      restarted.SameAnswers live ∧
      ∀ later : List Call,
        (Replica.performAll Store.perform restarted later).2 =
          (Replica.performAll Store.perform live later).2 ∧
        (Replica.performAll Store.perform restarted later).1.SameAnswers
          (Replica.performAll Store.perform live later).1 := by
  intro live
  have restartable : live.Restartable profile :=
    Replica.performAll_invariant (I := Store.Restartable profile)
      (fun _ restartable fine => restartable.perform fine) (.opened opened) fine
  obtain ⟨restarted, replayed, same⟩ := restartable.replays
  have journal : restarted.journal = live.journal :=
    Store.replay_journal (s := { journal := live.journal, profile }) replayed
  have alike : restarted.Alike live := ⟨journal, same⟩
  refine ⟨restarted, ?_, alike.sameAnswers, ?_⟩
  · rw [restartable.reopens]
    exact replayed
  · intro later
    obtain ⟨final, results⟩ := Store.alike_bisimulation.performAll later alike
    exact ⟨results, final.sameAnswers⟩

end Restart

namespace Demo

/-- One token a request, an hour of cooldown, two requests a day for an address. -/
def profile : Profile where
  evmChainID := 7777
  amountPerRequest := 1000000000000000000
  cooldownPerAddress := 3600 * second
  perAddressDailyCap := 2
  globalDailyBudget := 2000000000000000000
  haltBelow := 1000000000000000000
  queueCapacity := 4
  transactionTimeout := 30 * second
  errorRateWindow := 10
  errorRateTripCount := 5
  rpcTripAfter := 3

def start : Store := { journal := openJournal [], profile := profile }

def noon : Time := 738000 * 86400 * second + 43200 * second

/-- Two requests, one of them denied in its cooldown, a rotation and a pause. -/
def calls : List Call :=
  [⟨.accept (text "key-1") 17 noon (text "req-1"), none⟩,
   ⟨.accept (text "key-2") 17 (noon + 60 * second) (text "req-2"), none⟩,
   ⟨.accept (text "key-3") 18 noon (text "req-3"), none⟩,
   ⟨.recordSubmitted (text "req-1") 5 7 32 (noon + second), none⟩,
   ⟨.recordConfirmed (text "req-1") 5 90 (noon + 5 * second), none⟩,
   ⟨.recordFailed (text "req-3") (text "reverted") (noon + 6 * second), none⟩,
   ⟨.recordRotation 32 33 (noon + 7 * second), none⟩,
   ⟨.pause (text "maintenance") (noon + 8 * second), none⟩,
   ⟨.accept (text "key-4") 19 (noon + 9 * second) (text "req-4"), none⟩]

end Demo

theorem restart_equivalence_demo :
    letI := lowerHex
    letI := Digest.numbered
    let live := (Replica.performAll Store.perform Demo.start Demo.calls).1
    ∃ restarted,
      newStore (openJournal live.journal.entries) live.journal.entries Demo.profile =
        .ok restarted ∧
      restarted.SameAnswers live ∧
      ∀ later : List Call,
        (Replica.performAll Store.perform restarted later).2 =
          (Replica.performAll Store.perform live later).2 ∧
        (Replica.performAll Store.perform restarted later).1.SameAnswers
          (Replica.performAll Store.perform live later).1 :=
  @restart_equivalence lowerHex Demo.profile Digest.numbered [] Demo.start Demo.calls rfl
    (by decide +kernel)

end Torium.Faucet
