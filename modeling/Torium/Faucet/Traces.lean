import Torium.Faucet.Limits
import Torium.Faucet.StoreFile

/-!
# Traces of failed operations

An operation appends its entry to the journal before it applies it. If applying fails, the
operation returns an error and the entry stays behind: the memory may have changed, and the replay
of the journal fails at that entry from then on. Which entries fail is known before they are
written: an accepted request without an identifier, and a record about a request that the store
does not have.
-/

namespace Torium.Faucet

open Evm

/-- The operation returned an error. -/
def Outcome.isError : Outcome → Bool
  | .done => false
  | .request _ _ => false
  | .denied _ => true
  | .failed _ => true
  | .panicked => true

variable {error : Option StoreError} {operation : Operation}

theorem Outcome.isError_ofError :
    (Outcome.ofError error).isError = true ↔ error ≠ none := by
  cases error <;> simp [Outcome.ofError, Outcome.isError]

section Operations

variable [EthText]

/-- An operation gets as far as the journal, and its entry has a JSON form. -/
def Operation.Appends (s : Store) (operation : Operation) : Prop :=
  operation.Admissible s ∧ 0 ≤ (operation.draft s.profile).at_.year ∧
    (operation.draft s.profile).at_.year ≤ 9999

/-- The entry of an operation is applied without an error: an accepted request has an identifier,
and what is recorded is about a request that the store has. Nonces and block numbers are `uint64`
in the source. -/
def Operation.Applies (s : Store) : Operation → Prop
  | .accept _ _ _ requestID => requestID ≠ []
  | .recordSubmitted requestID _ nonce _ _ => s.requests requestID ≠ none ∧ nonce < 2 ^ 64
  | .recordConfirmed requestID _ blockNumber _ =>
    s.requests requestID ≠ none ∧ blockNumber < 2 ^ 64
  | .recordFailed requestID _ _ => s.requests requestID ≠ none
  | _ => True

theorem Operation.draft_known (profile : Profile) (operation : Operation) :
    (operation.draft profile).type ∈ EntryType.known := by
  cases operation <;> simp [Operation.draft, EntryType.known]

theorem Operation.amount_of_denied {profile : Profile}
    (denied : (operation.draft profile).type = .requestDenied) :
    setString? ((operation.draft profile).payload.get "amountBaseUnits") ≠ none := by
  cases operation with
  | recordDenied =>
    have number := setString?_intText profile.amountPerRequest
    exact fun unreadable => Option.some_ne_none _ (number.symm.trans unreadable)
  | _ => cases denied

end Operations

/-! ## Amounts -/

/-- The amount of every request is a number. -/
def Store.Amounts (s : Store) : Prop :=
  ∀ id request, s.requests id = some request → setString? request.amountBaseUnits ≠ none

section Amounts

variable {s t : Store} {entry : Entry}

theorem Store.Amounts.update (amounts : s.Amounts) {id : GoString} {request : Request}
    (requests : t.requests = Function.update s.requests id (some request))
    (number : setString? request.amountBaseUnits ≠ none) : t.Amounts := by
  intro other known found
  rw [requests] at found
  by_cases here : other = id
  · rw [here, Function.update_self] at found
    exact Option.some.inj found ▸ number
  · rw [Function.update_of_ne here] at found
    exact amounts other known found

theorem Store.Amounts.applyEntry [EthText] (amounts : s.Amounts)
    (fine : (s.applyEntry entry).2 = none)
    (denied : entry.type = .requestDenied →
      setString? (entry.payload.get "amountBaseUnits") ≠ none) :
    (s.applyEntry entry).1.Amounts := by
  have applied := s.applied entry
  generalize s.applyEntry entry = result at applied fine ⊢
  cases applied with
  | refused | silent => exact amounts
  | accepted _ _ number => exact amounts.update rfl (number fine)
  | denied kind _ _ amount => exact amounts.update rfl (amount ▸ denied kind)
  | submitted _ known | confirmed _ known | failed _ known =>
    exact amounts.update rfl (amounts _ _ known :)

/-- The entry of an operation is applied without an error exactly if the operation applies. -/
theorem Operation.applies_iff [EthText] [EthText.Checksummed] {profile : Profile}
    (amounts : s.Amounts) (drafted : entry.draft = operation.draft profile) :
    (s.applyEntry entry).2 = none ↔ operation.Applies s := by
  obtain ⟨sameType, -, samePayload⟩ := Draft.mk.inj drafted
  unfold Store.applyEntry
  rw [sameType]
  cases operation with
  | accept clientKey address at_ requestID =>
    have id : entry.payload.get "requestId" = requestID := by rw [samePayload]; rfl
    have printed : entry.payload.get "address" = addressHex address := by rw [samePayload]; rfl
    have amount : entry.payload.get "amountBaseUnits" = intText profile.amountPerRequest := by
      rw [samePayload]
      rfl
    have nonempty : addressHex address ≠ [] := by
      intro empty
      have lower := EthText.Checksummed.toLower_addressHex address
      rw [empty] at lower
      cases lower
    simp only [Store.applyAccepted, id, printed, amount, nonempty, or_false,
      setString?_intText, Operation.Applies]
    split_ifs with missing <;> simp [missing]
  | recordDenied =>
    simp only [Store.applyDenied, Operation.Applies, iff_true]
    split_ifs <;> rfl
  | recordSubmitted requestID _ nonce =>
    have id : entry.payload.get "requestId" = requestID := by rw [samePayload]; rfl
    have number : entry.payload.get "nonce" = natText nonce := by rw [samePayload]; rfl
    simp only [Store.applySubmitted, id, number, scanUint64?_eq,
      Operation.Applies]
    cases known : s.requests requestID with
    | none => simp
    | some request =>
      by_cases small : nonce < 2 ^ 64
      · rw [if_pos small]
        exact iff_of_true rfl ⟨Option.some_ne_none request, small⟩
      · rw [if_neg small]
        exact iff_of_false (Option.some_ne_none _) fun applies => small applies.2
  | recordConfirmed requestID _ blockNumber =>
    have id : entry.payload.get "requestId" = requestID := by rw [samePayload]; rfl
    have number : entry.payload.get "blockNumber" = natText blockNumber := by
      rw [samePayload]
      rfl
    simp only [Store.applyConfirmed, id, number, scanUint64?_eq,
      Operation.Applies]
    cases known : s.requests requestID with
    | none => simp
    | some request =>
      by_cases small : blockNumber < 2 ^ 64
      · rw [if_pos small]
        exact iff_of_true rfl ⟨Option.some_ne_none request, small⟩
      · rw [if_neg small]
        exact iff_of_false (Option.some_ne_none _) fun applies => small applies.2
  | recordFailed requestID =>
    have id : entry.payload.get "requestId" = requestID := by rw [samePayload]; rfl
    simp only [Store.applyFailed, id, Operation.Applies]
    cases known : s.requests requestID with
    | none => simp
    | some request =>
      obtain ⟨amount, number⟩ := Option.ne_none_iff_exists'.mp (amounts _ request known)
      simp [number]
  | pause | resume | recordRotation | recordRefill => exact iff_of_true rfl trivial

end Amounts

/-! ## What an operation writes -/

section Writes

variable [EthText] [Digest] {s : Store}

/-- The entry of the draft is in the journal, and applying it had the given error. -/
structure Store.Writes (s t : Store) (draft : Draft) (entry : Entry) (error : Option StoreError) :
    Prop where
  appended : s.journal.append none draft.type draft.at_ draft.payload = .ok (entry, t.journal)
  journals : s.Journals t entry error

theorem Store.Writes.drafted {t : Store} {draft : Draft} {entry : Entry}
    (writes : s.Writes t draft entry error) : entry.draft = draft :=
  (Journal.append_reopens writes.appended).2.2

theorem Store.transition_writes (type : EntryType) (at_ : Time) (payload : Payload)
    (year : 0 ≤ at_.year ∧ at_.year ≤ 9999) :
    ∃ entry, s.Writes (s.transition none type at_ payload).1 ⟨type, at_, payload⟩ entry
      (s.transition none type at_ payload).2 := by
  have appended : ∃ entry journal,
      s.journal.append none type at_ payload = .ok (entry, journal) := by
    simp only [Journal.append, entryHash, if_pos year]
    exact ⟨_, _, rfl⟩
  obtain ⟨entry, journal, appended⟩ := appended
  have result : s.transition none type at_ payload = { s with journal }.applyEntry entry := by
    rw [transition, appended]
  have kept := applyEntry_journal { s with journal } entry
  obtain ⟨extended, reopened, -⟩ := Journal.append_reopens appended
  obtain ⟨core, error⟩ := applyEntry_core (s := s) (t := { s with journal }) rfl entry
  rw [result]
  refine ⟨entry, ?_, ?_, ?_, core, error⟩
  · rw [kept]
    exact appended
  · rw [kept]
    exact extended
  · rw [kept]
    exact reopened

theorem Store.transition_of_year (type : EntryType) (at_ : Time) (payload : Payload)
    (year : ¬ (0 ≤ at_.year ∧ at_.year ≤ 9999)) :
    ∃ error, s.transition none type at_ payload = (s, some error) := by
  have failed : s.journal.append none type at_ payload = .error (.encode at_.year) := by
    simp only [Journal.append, entryHash, if_neg year]
    rfl
  exact ⟨_, by rw [transition, failed]⟩

/-- `Accept` returns the request that it has recorded. -/
theorem Store.recordAccepted_writes (scopedKey : GoString) (address : Address) (now : Time)
    (requestID : GoString) (year : 0 ≤ now.year ∧ now.year ≤ 9999) :
    ∃ entry error, s.Writes (s.recordAccepted none scopedKey address now requestID).1
        ⟨.requestAccepted, now,
          acceptedPayload requestID scopedKey address s.profile.amountPerRequest⟩ entry error ∧
      ((s.recordAccepted none scopedKey address now requestID).2.isError = true ↔
        error ≠ none) := by
  have id : (acceptedPayload requestID scopedKey address s.profile.amountPerRequest).get
      "requestId" = requestID := rfl
  unfold Store.recordAccepted
  revert id
  generalize acceptedPayload requestID scopedKey address s.profile.amountPerRequest = payload
  intro id
  obtain ⟨entry, writes⟩ := s.transition_writes .requestAccepted now payload year
  revert writes
  rcases s.transition none .requestAccepted now payload with ⟨s', error⟩
  intro writes
  refine ⟨entry, error, ?_⟩
  cases error with
  | some error => exact ⟨writes, by simp [Outcome.isError]⟩
  | none =>
    obtain ⟨kind, -, same⟩ := Draft.mk.inj writes.drafted
    have applied : (s.applyEntry entry).2 = none := writes.journals.applied
    have accepts : entry.accepts = true := by
      rw [applyEntry, kind] at applied
      simp only [applyAccepted] at applied
      split_ifs at applied with missing
      exact decide_eq_true ⟨kind, not_or.mp missing⟩
    have known := (applyEntry_accepts (s := s) accepts).2.1
    rw [requests_of_core writes.journals.core, same, id] at known
    obtain ⟨request, known⟩ := Option.isSome_iff_exists.mp known
    change s'.requests requestID = some request at known
    simp only [known]
    exact ⟨writes, by simp [Outcome.isError]⟩

/-- An admissible `Accept` records the request. -/
theorem Store.accept_of_admissible {clientKey : GoString} {address : Address} {at_ : Time}
    {requestID : GoString}
    (unlimited : (Operation.accept clientKey address at_ requestID).Admissible s) :
    s.accept none clientKey address at_ requestID =
      (s.addressStateFor address).2.recordAccepted none
        (idempotencyKeyFor clientKey address at_) address at_ requestID := by
  obtain ⟨unknown, running, limits⟩ := unlimited
  have state : (s.addressStateFor address).1 = s.stateOf address := by rw [addressStateFor_eq]
  rw [← limitDenial_core (addressStateFor_core (s := s) address), ← state] at limits
  simp only [Store.accept, unknown, running, limits, Bool.false_eq_true, if_false]

/-- An operation that does not append is not observed. -/
theorem Store.perform_of_not_appends (not : ¬ operation.Appends s) :
    s.Alike (s.perform ⟨operation, none⟩).1 := by
  have year (unlimited : operation.Admissible s) :
      ¬ (0 ≤ (operation.draft s.profile).at_.year ∧
        (operation.draft s.profile).at_.year ≤ 9999) :=
    fun year => not ⟨unlimited, year⟩
  have recorded (type : EntryType) (at_ : Time) (payload : Payload)
      (year : ¬ (0 ≤ at_.year ∧ at_.year ≤ 9999)) :
      s.Alike (s.transition none type at_ payload).1 := by
    obtain ⟨error, same⟩ := s.transition_of_year type at_ payload year
    rw [same]
    exact ⟨rfl, rfl⟩
  cases operation with
  | accept clientKey address at_ requestID =>
    obtain alike | ⟨-, -, -, unlimited, -⟩ :=
      accept_cases (s := s) none clientKey address at_ requestID
    · exact alike
    · change s.Alike (s.accept none clientKey address at_ requestID).1
      rw [accept_of_admissible unlimited, recordAccepted]
      obtain ⟨error, same⟩ := (s.addressStateFor address).2.transition_of_year
        .requestAccepted at_ _ (year unlimited)
      rw [same]
      exact created_alike address
  | recordDenied => exact recorded _ _ _ (year trivial)
  | recordSubmitted => exact recorded _ _ _ (year trivial)
  | recordConfirmed => exact recorded _ _ _ (year trivial)
  | recordFailed => exact recorded _ _ _ (year trivial)
  | pause | resume | recordRotation | recordRefill => exact recorded _ _ _ (year trivial)

/-- All others write their entry, and return an error exactly if applying it does. -/
theorem Store.perform_of_appends (appends : operation.Appends s) :
    ∃ entry error,
      s.Writes (s.perform ⟨operation, none⟩).1 (operation.draft s.profile) entry error ∧
      ((s.perform ⟨operation, none⟩).2.isError = true ↔ error ≠ none) := by
  obtain ⟨unlimited, year⟩ := appends
  have recorded (type : EntryType) (at_ : Time) (payload : Payload)
      (year : 0 ≤ at_.year ∧ at_.year ≤ 9999) :
      ∃ entry error, s.Writes (s.transition none type at_ payload).1 ⟨type, at_, payload⟩ entry
          error ∧
        ((Outcome.ofError (s.transition none type at_ payload).2).isError = true ↔
          error ≠ none) := by
    obtain ⟨entry, writes⟩ := s.transition_writes type at_ payload year
    exact ⟨entry, _, writes, Outcome.isError_ofError⟩
  cases operation with
  | accept clientKey address at_ requestID =>
    have created := created_alike (s := s) address
    have profiles : (s.addressStateFor address).2.profile = s.profile := by
      rw [addressStateFor_eq]
    obtain ⟨entry, error, writes, failed⟩ := (s.addressStateFor address).2.recordAccepted_writes
      (idempotencyKeyFor clientKey address at_) address at_ requestID year
    rw [← accept_of_admissible unlimited, profiles] at writes
    rw [← accept_of_admissible unlimited] at failed
    exact ⟨entry, error, ⟨created.journal ▸ writes.appended, created.journals writes.journals⟩,
      failed⟩
  | recordDenied => exact recorded _ _ _ year
  | recordSubmitted => exact recorded _ _ _ year
  | recordConfirmed => exact recorded _ _ _ year
  | recordFailed | pause | resume | recordRotation | recordRefill => exact recorded _ _ _ year

end Writes

/-! ## Starts on a file -/

section Profiles

variable [EthText] {s t : Store}

theorem Store.unseen_profile (profile : Profile) : Unseen fun s => { s with profile } where
  requests _ := rfl
  setRequest _ _ _ := rfl
  addRequest _ _ := rfl
  addSpent _ _ _ := rfl
  countAccepted _ _ _ := by
    rw [countAccepted_eq, countAccepted_eq]
    rfl
  idempotency _ _ _ := rfl
  paused _ _ _ := rfl
  applyRotated _ _ := rfl

theorem Store.replay_withProfile {entries : List Entry} (replayed : s.replay entries = .ok t)
    (profile : Profile) : { s with profile }.replay entries = .ok { t with profile } := by
  induction entries generalizing s with
  | nil =>
    cases replayed
    rfl
  | cons first rest ih =>
    simp only [replay] at replayed ⊢
    split at replayed
    next next applied =>
        rw [(unseen_profile profile).applyEntry, applied]
        exact ih replayed
    next => cases replayed

end Profiles

section Starts

variable [EthText] [Sha256] [TimeParser]

/-- A start of the service on a journal file: `ReadJournal`, then `NewStore`. -/
def startOn (file : GoString) (profile : Profile) : Option Store := do
  let records ← (readJournal (some file)).toOption
  let entries := records.map Record.entry
  (newStore (openJournal entries) entries profile).toOption

/-- The file of the journal can be read, and its entries can be replayed. -/
structure Store.Recoverable (s : Store) : Prop where
  inStep : s.journal.onDisk.InStep (s.journal.entries.map Entry.record)
  known : ∀ entry ∈ s.journal.entries, entry.type ∈ EntryType.known
  restartable : s.Restartable s.profile
  amounts : s.Amounts

variable {s t : Store}

theorem Store.recoverable_new (profile : Profile) :
    Store.Recoverable { journal := openJournal [], profile } where
  inStep := JournalFile.inStep_of_open
    (show JournalFile.open_ none = .ok (JournalFile.fresh, []) from rfl) (.inl rfl)
  known _ member := by cases member
  restartable := .opened (show newStore (openJournal []) [] profile = .ok _ from rfl)
  amounts _ _ found := by cases found

theorem Store.Recoverable.alike (recoverable : s.Recoverable) (alike : s.Alike t) :
    t.Recoverable where
  inStep := alike.journal ▸ recoverable.inStep
  known := alike.journal ▸ recoverable.known
  restartable := by
    rw [← eq_of_core alike.core profile]
    exact recoverable.restartable.alike alike
  amounts id request found :=
    recoverable.amounts id request (requests_of_core alike.core ▸ found)

omit [EthText] [Sha256] [TimeParser] in
/-- The journal that is opened on the file of a journal has the same file. -/
theorem onDisk_reopened (entries : List Entry) :
    (openJournal (entries.map fun entry => entry.record.entry)).onDisk =
      (openJournal entries).onDisk := by
  have bytes : (openJournal (entries.map fun entry => entry.record.entry)).bytes =
      (openJournal entries).bytes := by
    simp only [Journal.bytes, openJournal_entries, List.map_map, Function.comp_def,
      Entry.record_entry]
  unfold Journal.onDisk
  rw [bytes]
  cases last : entries.getLast? with
  | none => simp only [openJournal, List.getLast?_map, last, Option.map_none]
  | some entry =>
    simp only [openJournal, List.getLast?_map, last, Option.map_some, Record.entry, Entry.record,
      Nat.mod_mod]

/-- A start on the file of a recoverable store succeeds. -/
theorem Store.Recoverable.starts (recoverable : s.Recoverable) (profile : Profile) :
    ∃ restarted, startOn s.journal.bytes profile = some restarted ∧ restarted.Recoverable := by
  let entries := s.journal.entries.map fun entry => entry.record.entry
  obtain ⟨restarted, replayed, same⟩ := recoverable.restartable.replays
  have renamed := replay_withProfile replayed profile
  have opened : Store.core { journal := s.journal, profile } =
      Store.core { journal := openJournal entries, profile } := rfl
  obtain ⟨started, replayed, cores⟩ := replay_core opened renamed
  have equivalent : List.Forall₂ Entry.Equivalent entries s.journal.entries := by
    refine List.forall₂_map_left_iff.mpr (List.forall₂_same.mpr fun entry member => ?_)
    exact entry.equivalent_record (recoverable.known entry member)
  have started' : newStore (openJournal entries) entries profile = .ok started :=
    replay_equivalent equivalent replayed
  have journal : started.journal = openJournal entries := replay_journal started'
  have records : started.journal.entries.map Entry.record =
      s.journal.entries.map Entry.record := by
    rw [journal, openJournal_entries, List.map_map]
    exact List.map_congr_left fun entry _ => entry.record_entry
  refine ⟨started, ?_, ?_, ?_, ?_, ?_⟩
  · have read : readJournal (some s.journal.bytes) = .ok (s.journal.entries.map Entry.record) :=
      recoverable.inStep.read
    have found : (s.journal.entries.map Entry.record).map Record.entry = entries := List.map_map
    simp only [startOn, read, found, started', Except.toOption, Option.bind_some, bind]
  · rw [records, journal, onDisk_reopened, recoverable.restartable.reopens]
    exact recoverable.inStep
  · rw [journal, openJournal_entries]
    intro entry member
    obtain ⟨old, among, rfl⟩ := List.mem_map.mp member
    have known := recoverable.known old among
    have type : old.record.entry.type = old.type := EntryType.ofName_name known
    rw [type]
    exact known
  · have profiles : profile = started.profile := eq_of_core cores Store.profile
    rw [← profiles]
    exact .opened started'
  · intro id request found
    rw [← requests_of_core cores] at found
    have requests := requests_of_core same
    exact recoverable.amounts id request (requests ▸ found)

/-- The entry of an operation that applies and can be read keeps the store recoverable. -/
theorem Store.Recoverable.writes [EthText.Checksummed] (recoverable : s.Recoverable) {entry : Entry}
    (writes : s.Writes t (operation.draft s.profile) entry error) (applies : operation.Applies s)
    (readable : (operation.draft s.profile).call.Readable (s.journal.entries.length + 1)) :
    t.Recoverable := by
  have drafted := writes.drafted
  have fine := (operation.applies_iff recoverable.amounts drafted).mpr applies
  obtain rfl : none = error := fine.symm.trans writes.journals.applied
  obtain ⟨sameType, -, samePayload⟩ := Draft.mk.inj drafted
  have disk := Journal.append_onDisk writes.appended
  refine ⟨?_, ?_, ?_, ?_⟩
  · have harmless : Harmless (s.journal.entries.map Entry.record).length .none
        (operation.draft s.profile).call := by
      rw [List.length_map]
      exact fun _ => readable
    have kept := recoverable.inStep.append harmless
    have result : s.journal.onDisk.append .none (operation.draft s.profile).call =
      (t.journal.onDisk, .ok entry.record) := disk
    rw [result] at kept
    rw [writes.journals.entries, List.map_append]
    exact kept
  · intro other member
    rw [writes.journals.entries] at member
    obtain old | new := List.mem_append.mp member
    · exact recoverable.known other old
    · rw [List.mem_singleton.mp new, sameType]
      exact operation.draft_known s.profile
  · have profiles : s.profile = t.profile := by
      have kept : (s.applyEntry entry).1.profile = s.profile := (s.applied entry).profile
      rw [← kept]
      exact eq_of_core writes.journals.core Store.profile
    rw [← profiles]
    exact recoverable.restartable.journals writes.journals
  · intro id request found
    rw [← requests_of_core writes.journals.core] at found
    refine recoverable.amounts.applyEntry fine (fun denied => ?_) id request found
    rw [samePayload]
    exact operation.amount_of_denied (sameType.symm.trans denied)

end Starts

/-! ## Runs -/

/-- What happens to a store: a call, or a restart, perhaps with another profile. -/
inductive StoreLabel where
  | call (operation : Operation)
  | restart (profile : Profile)
  deriving DecidableEq

section Runs

variable [EthText] [Sha256] [TimeParser]

def Store.step (s : Store) : StoreLabel → Option Store
  | .call operation => some (s.perform ⟨operation, none⟩).1
  | .restart profile => startOn s.journal.bytes profile

/-- A call whose entry, if there is one, is applied without an error and can be read back. -/
def StoreLabel.Clean (s : Store) : StoreLabel → Prop
  | .call operation => operation.Appends s → operation.Applies s ∧
      (operation.draft s.profile).call.Readable (s.journal.entries.length + 1)
  | .restart _ => True

/-- Nothing tells the stores apart, now or later. -/
structure Store.Unchanged (before after : Store) : Prop where
  journal : after.journal = before.journal
  answers : after.SameAnswers before
  later : ∀ calls, (Replica.performAll Store.perform after calls).2 =
    (Replica.performAll Store.perform before calls).2

/-- If the operation returns an error, then nothing has changed and the next start succeeds. -/
def Operation.LeavesNoTrace (s : Store) (operation : Operation) : Prop :=
  (s.perform ⟨operation, none⟩).2.isError = true →
    s.Unchanged (s.perform ⟨operation, none⟩).1 ∧
    ∀ profile, startOn (s.perform ⟨operation, none⟩).1.journal.bytes profile ≠ none

variable {s t : Store}

omit [TimeParser] in
theorem Store.Alike.unchanged (alike : s.Alike t) : s.Unchanged t where
  journal := alike.journal.symm
  answers := (Store.Alike.sameAnswers ⟨alike.journal.symm, alike.core.symm⟩)
  later calls := ((Store.alike_bisimulation.performAll calls alike).2).symm

theorem Store.Recoverable.step [EthText.Checksummed] (recoverable : s.Recoverable)
    {label : StoreLabel} (clean : label.Clean s) (taken : s.step label = some t) :
    t.Recoverable := by
  cases label with
  | call operation =>
    obtain rfl := Option.some.inj taken
    by_cases appends : operation.Appends s
    · obtain ⟨entry, error, writes, -⟩ := perform_of_appends appends
      obtain ⟨applies, readable⟩ := clean appends
      exact recoverable.writes writes applies readable
    · exact recoverable.alike (perform_of_not_appends appends)
  | restart profile =>
    obtain ⟨restarted, started, again⟩ := recoverable.starts profile
    obtain rfl := Option.some.inj (started.symm.trans taken)
    exact again

/-- In a recoverable store, an operation leaves no trace of a failure exactly if its entry is
applied without an error. -/
theorem Store.Recoverable.leavesNoTrace_iff [EthText.Checksummed] (recoverable : s.Recoverable)
    (operation : Operation) :
    operation.LeavesNoTrace s ↔ (operation.Appends s → operation.Applies s) := by
  by_cases appends : operation.Appends s
  · obtain ⟨entry, error, writes, failed⟩ := perform_of_appends appends
    have applied : error = none ↔ operation.Applies s := by
      rw [← operation.applies_iff recoverable.amounts writes.drafted, writes.journals.applied]
    constructor
    · intro noTrace _
      by_contra not
      obtain ⟨unchanged, -⟩ := noTrace (failed.mpr (applied.not.mpr not))
      have entries := writes.journals.entries
      rw [unchanged.journal] at entries
      exact List.cons_ne_nil _ _ (List.self_eq_append_right.mp entries)
    · intro applies isError
      exact absurd (applied.mpr (applies appends)) (failed.mp isError)
  · have alike := perform_of_not_appends appends
    refine iff_of_true (fun _ => ⟨alike.unchanged, fun profile => ?_⟩)
      fun appends' => absurd appends' appends
    obtain ⟨restarted, started, -⟩ := (recoverable.alike alike).starts profile
    exact fun not => Option.some_ne_none restarted (started.symm.trans not)

/-- In every run on a new journal in which the entries of the calls are applied without an error
and can be read back, a call leaves no trace if it fails exactly if its own entry is applied
without an error. -/
theorem failed_operation_leaves_no_trace_iff [EthText.Checksummed] {profile : Profile}
    {labels : List StoreLabel}
    (run : Transition.Run Store.step (fun s label => label.Clean s) labels
      { journal := openJournal [], profile } s) (operation : Operation) :
    operation.LeavesNoTrace s ↔ (operation.Appends s → operation.Applies s) :=
  Store.Recoverable.leavesNoTrace_iff
    (run.invariant (Store.recoverable_new profile) fun recoverable clean taken =>
      recoverable.step clean taken) operation

end Runs

namespace Demo

/-- SHA-256 on what is hashed for the first entry of two journals. -/
@[reducible] def storeSha256 : Sha256 where
  sum s :=
    if s.length = 362 then
      0xb0fb0a099440fa3b54956246f594f9e61cc9705c5b32ba7c404cfa154656b33f
    else 0x2768559351ee56c4f20f44171e10ebf4652b63efb9d6903b0ee7e62471d26ab0

def accepted : Operation := .accept (text "key-1") 17 noon (text "req-1")

/-- Within the cooldown. -/
def tooSoon : Operation := .accept (text "key-2") 17 (noon + 60 * second) (text "req-2")

def unknownRequest : Operation := .recordFailed (text "req-9") (text "reverted") noon

theorem accepted_clean : @StoreLabel.Clean lowerHex start (.call accepted) := by
  let := lowerHex
  refine fun _ => ⟨List.cons_ne_nil _ _, valid_of_all (by decide), ?_, by decide +kernel⟩
  rintro map ⟨⟩ pair member
  have among := SortedMap.mem_ofList member
  have ascii : ∀ pair ∈ (accepted.draft profile).payload,
      pair.1.all (· < 0x80) ∧ pair.2.all (· < 0x80) := by
    decide +kernel
  exact ⟨valid_of_all (ascii pair among).1, valid_of_all (ascii pair among).2⟩

end Demo

theorem failed_operation_leaves_no_trace_iff_demo :
    letI := lowerHex
    letI := Demo.storeSha256
    letI := Demo.timeParser
    let store := (Demo.start.perform ⟨Demo.accepted, none⟩).1
    (store.perform ⟨Demo.tooSoon, none⟩).2.isError = true ∧ Demo.tooSoon.LeavesNoTrace store := by
  let := lowerHex
  let := Demo.storeSha256
  let := Demo.timeParser
  have := lowerHex_checksummed
  refine ⟨by decide +kernel, ?_⟩
  have run : Transition.Run Store.step (fun s label => label.Clean s) [.call Demo.accepted]
      Demo.start (Demo.start.perform ⟨Demo.accepted, none⟩).1 :=
    .single Demo.accepted_clean rfl
  exact (failed_operation_leaves_no_trace_iff run Demo.tooSoon).mpr
    fun _ => List.cons_ne_nil _ _

/-- A failure that is recorded for a request that the store does not have stays in the journal, and
the service does not start again. -/
theorem unknown_request_leaves_trace :
    letI := lowerHex
    letI := Demo.storeSha256
    letI := Demo.timeParser
    let after := Demo.start.perform ⟨Demo.unknownRequest, none⟩
    after.2 = .failed (.unknownRequest .txFailed (text "req-9")) ∧
      after.1.journal.entries.length = 1 ∧
      (startOn after.1.journal.bytes Demo.profile).isNone = true ∧
      ¬ Demo.unknownRequest.LeavesNoTrace Demo.start := by
  let := lowerHex
  let := Demo.storeSha256
  let := Demo.timeParser
  have evaluated : (Demo.start.perform ⟨Demo.unknownRequest, none⟩).2 =
        .failed (.unknownRequest .txFailed (text "req-9")) ∧
      (Demo.start.perform ⟨Demo.unknownRequest, none⟩).1.journal.entries.length = 1 ∧
      (startOn (Demo.start.perform ⟨Demo.unknownRequest, none⟩).1.journal.bytes
        Demo.profile).isNone = true := by
    decide +kernel
  obtain ⟨outcome, entries, stuck⟩ := evaluated
  refine ⟨outcome, entries, stuck, fun noTrace => ?_⟩
  have isError : (Demo.start.perform ⟨Demo.unknownRequest, none⟩).2.isError = true := by
    rw [outcome]
    rfl
  exact (noTrace isError).2 Demo.profile (Option.isNone_iff_eq_none.mp stuck)

end Torium.Faucet
