import Torium.Faucet.Records
import Torium.Lib.Tally

/-!
# The daily budget

An accepted request reserves its amount on the day of its acceptance, until it fails.
What is spent on a day is the amount of a request times the number of requests that
reserve it. The store does not check that a request fails only once, so this depends on
who journals failures.
-/

namespace Torium.Faucet

open Evm Function

/-- What `Validate` demands of the limits. -/
structure Profile.Valid (profile : Profile) : Prop where
  evmChainID : 0 < profile.evmChainID
  amountPerRequest : 0 < profile.amountPerRequest
  amount_le_budget : profile.amountPerRequest ≤ profile.globalDailyBudget
  haltBelow : 0 < profile.haltBelow
  cooldownPerAddress : 0 < profile.cooldownPerAddress
  perAddressDailyCap : 0 < profile.perAddressDailyCap
  queueCapacity : 0 < profile.queueCapacity
  transactionTimeout : 0 < profile.transactionTimeout
  errorRateTripCount : 0 < profile.errorRateTripCount
  tripCount_le_window : profile.errorRateTripCount ≤ profile.errorRateWindow
  rpcTripAfter : 0 < profile.rpcTripAfter

/-- The request was accepted and has not failed. -/
def Status.isLive (status : Status) : Bool := status ≠ .failed ∧ status ≠ .denied

/-- The request reserves its amount on the day. -/
def Request.reserves (day : GoString) (request : Request) : Bool :=
  request.status.isLive && decide (budgetDay request.createdAt = day)

/-- The number of requests that reserve their amount on the day. -/
def Store.reserved (store : Store) (day : GoString) : Nat :=
  Tally.count store.requests (Request.reserves day) store.order

/-- The amount that is spent on the day. -/
def Store.spent (store : Store) (day : GoString) : Int := (store.spentByDay day).getD 0

/-- The requests are listed once. -/
structure Store.Ordered (store : Store) : Prop where
  nodup : store.order.Nodup
  known : ∀ id, id ∈ store.order ↔ (store.requests id).isSome

/-- All requests are of the same amount, and what is spent is reserved. -/
structure Store.Balanced (profile : Profile) (store : Store) : Prop extends store.Ordered where
  deployed : store.profile = profile
  amounts : ∀ id request, store.requests id = some request →
    request.amountBaseUnits = intText profile.amountPerRequest
  spent : ∀ day, store.spent day = profile.amountPerRequest * store.reserved day
  bounded : ∀ day, store.spent day ≤ profile.globalDailyBudget

theorem Store.Balanced.congr {profile : Profile} {s t : Store} (balanced : s.Balanced profile)
    (deployed : t.profile = s.profile) (requests : t.requests = s.requests)
    (order : t.order = s.order) (spent : t.spentByDay = s.spentByDay) : t.Balanced profile := by
  obtain ⟨journal, _, _, _, idempotency, addresses, _, paused, reason, fenced, active⟩ := t
  subst deployed requests order spent
  exact ⟨⟨balanced.nodup, balanced.known⟩, balanced.deployed, balanced.amounts, balanced.spent,
    balanced.bounded⟩

theorem Store.Balanced.of_core {profile : Profile} {s t : Store} (balanced : s.Balanced profile)
    (cores : s.core = t.core) : t.Balanced profile :=
  balanced.congr (eq_of_core cores.symm Store.profile) (requests_of_core cores.symm)
    (eq_of_core cores.symm Store.order) (eq_of_core cores.symm Store.spentByDay)

/-! ## Bookings -/

section Bookings

variable [EthText]

/-- The day and the amount that applying an entry hands to `addSpent`. -/
def Store.booking? (store : Store) (entry : Entry) : Option (GoString × Int) :=
  match entry.type with
  | .requestAccepted =>
    if entry.payload.get "requestId" = [] ∨ entry.payload.get "address" = [] then none
    else (setString? (entry.payload.get "amountBaseUnits")).map fun amount =>
      (budgetDay entry.at_, amount)
  | .txFailed =>
    (store.requests (entry.payload.get "requestId")).bind fun request =>
      (setString? request.amountBaseUnits).map fun amount =>
        (budgetDay request.createdAt, -amount)
  | _ => none

/-- The entry would make the spent amount of its day negative, and `addSpent` cuts it. -/
def Store.Clamps (store : Store) (entry : Entry) : Prop :=
  ∃ day amount, store.booking? entry = some (day, amount) ∧ store.spent day + amount < 0

/-- Applying the entries one after the other never cuts a spent amount. -/
def Store.Unclamped (store : Store) : List Entry → Prop
  | [] => True
  | entry :: entries => ¬ store.Clamps entry ∧ (store.applyEntry entry).1.Unclamped entries

variable {s t : Store} {entry : Entry}

/-- The spent amounts change by what is booked. -/
theorem Store.applyEntry_spent (unclamped : ¬ s.Clamps entry) (day : GoString) :
    (s.applyEntry entry).1.spent day = s.spent day +
      match s.booking? entry with
      | some (booked, amount) => if booked = day then amount else 0
      | none => 0 := by
  have booked (u : Store) (other : GoString) (amount : Int) (same : u.spentByDay = s.spentByDay)
      (whole : ¬ s.spent other + amount < 0) :
      (u.addSpent other amount).spent day =
        s.spent day + if other = day then amount else 0 := by
    unfold spent at whole ⊢
    simp only [addSpent, same, if_neg whole]
    by_cases here : other = day
    · subst here
      simp
    · simp [here, update_of_ne (Ne.symm here)]
  have unbooked (u : Store) (same : u.spentByDay = s.spentByDay) :
      u.spent day = s.spent day + 0 := by
    rw [spent, same, add_zero, spent]
  rw [Clamps] at unclamped
  unfold applyEntry
  cases kind : entry.type with
  | requestAccepted =>
    simp only [booking?, kind] at unclamped ⊢
    simp only [applyAccepted]
    split_ifs with missing
    · exact unbooked _ rfl
    · rw [if_neg missing] at unclamped
      cases valid : setString? (entry.payload.get "amountBaseUnits") with
      | none => exact unbooked _ (by rw [countAccepted_eq]; rfl)
      | some amount =>
        rw [valid] at unclamped
        refine booked _ _ amount (by rw [countAccepted_eq]; rfl) fun cut => unclamped ?_
        exact ⟨_, _, rfl, cut⟩
  | txFailed =>
    simp only [booking?, kind] at unclamped ⊢
    simp only [applyFailed]
    cases known : s.requests (entry.payload.get "requestId") with
    | none => exact unbooked _ rfl
    | some request =>
      rw [known] at unclamped
      cases valid : setString? request.amountBaseUnits with
      | none =>
        simp only [Option.bind_some, valid]
        exact unbooked _ rfl
      | some amount =>
        simp only [Option.bind_some, valid] at unclamped ⊢
        exact booked _ _ (-amount) rfl fun cut => unclamped ⟨_, _, rfl, cut⟩
  | requestDenied =>
    simp only [booking?, kind, applyDenied]
    split_ifs <;> exact unbooked _ rfl
  | txSubmitted =>
    simp only [booking?, kind, applySubmitted]
    split
    · exact unbooked _ rfl
    · split <;> exact unbooked _ rfl
  | txConfirmed =>
    simp only [booking?, kind, applyConfirmed]
    split
    · exact unbooked _ rfl
    · split <;> exact unbooked _ rfl
  | _ =>
    simp only [booking?, kind]
    exact unbooked _ rfl

end Bookings

/-! ## Entries -/

section Ordered

variable {s t : Store} {id : GoString} {old new : Request}

theorem Store.Ordered.congr (ordered : s.Ordered) (requests : t.requests = s.requests)
    (order : t.order = s.order) : t.Ordered :=
  ⟨order ▸ ordered.nodup, order ▸ requests ▸ ordered.known⟩

theorem Store.Ordered.add (ordered : s.Ordered) (fresh : s.requests id = none)
    (requests : t.requests = update s.requests id (some new))
    (order : t.order = s.order ++ [id]) : t.Ordered := by
  constructor
  · rw [order]
    exact List.concat_eq_append ▸ ordered.nodup.concat (by simp [ordered.known, fresh])
  · intro other
    by_cases here : other = id
    · simp [order, requests, here]
    · simp [order, requests, here, ordered.known]

theorem Store.Ordered.rewrite (ordered : s.Ordered) (known : s.requests id = some old)
    (requests : t.requests = update s.requests id (some new))
    (order : t.order = s.order) : t.Ordered := by
  refine ⟨order ▸ ordered.nodup, fun other => ?_⟩
  by_cases here : other = id
  · simp [order, requests, here, ordered.known, known]
  · simp [order, requests, here, ordered.known]

/-- New requests are listed when they are not known yet. -/
theorem Store.Ordered.applyEntry [EthText] {entry : Entry} (ordered : s.Ordered)
    (created : entry.type = .requestAccepted ∨ entry.type = .requestDenied →
      s.requests (entry.payload.get "requestId") = none) : (s.applyEntry entry).1.Ordered := by
  have applied := s.applied entry
  generalize s.applyEntry entry = result at applied ⊢
  cases applied with
  | refused => exact ordered
  | silent => exact ordered.congr rfl rfl
  | accepted kind => exact ordered.add (created (.inl kind)) rfl rfl
  | denied kind named => exact ordered.add (named ▸ created (.inr kind)) rfl rfl
  | submitted _ known | confirmed _ known | failed _ known => exact ordered.rewrite known rfl rfl

end Ordered

/-- What an entry needs in order to keep the balance: new requests have the amount of the
profile and are covered by the budget, and no other entry is about a request that failed. -/
structure Entry.Due (profile : Profile) (store : Store) (entry : Entry) : Prop where
  created : entry.type = .requestAccepted ∨ entry.type = .requestDenied →
    store.requests (entry.payload.get "requestId") = none ∧
      entry.payload.get "amountBaseUnits" = intText profile.amountPerRequest
  affordable : entry.type = .requestAccepted →
    store.spent (budgetDay entry.at_) + profile.amountPerRequest ≤ profile.globalDailyBudget
  live : entry.type = .txSubmitted ∨ entry.type = .txConfirmed ∨ entry.type = .txFailed →
    ∀ request, store.requests (entry.payload.get "requestId") = some request →
      request.status.isLive = true

section Entries

variable {profile : Profile} {s t : Store} {entry : Entry} {id : GoString} {old new : Request}

theorem Store.Balanced.nonneg (balanced : s.Balanced profile) (valid : profile.Valid)
    (day : GoString) : 0 ≤ s.spent day := by
  rw [balanced.spent]
  exact Int.mul_nonneg valid.amountPerRequest.le (Int.natCast_nonneg _)

/-- A request that reserves its amount is covered by what is spent. -/
theorem Store.Balanced.covers (balanced : s.Balanced profile) (valid : profile.Valid)
    (known : s.requests id = some old) (live : old.status.isLive = true) :
    profile.amountPerRequest ≤ s.spent (budgetDay old.createdAt) := by
  have listed : id ∈ s.order := (balanced.known id).mpr (by simp [known])
  have counted : 0 < s.reserved (budgetDay old.createdAt) :=
    List.countP_pos_iff.mpr ⟨id, listed, by simp [known, Request.reserves, live]⟩
  rw [balanced.spent]
  calc profile.amountPerRequest
    _ = profile.amountPerRequest * 1 := (Int.mul_one _).symm
    _ ≤ profile.amountPerRequest * s.reserved (budgetDay old.createdAt) :=
        Int.mul_le_mul_of_nonneg_left (Int.ofNat_le.mpr counted) valid.amountPerRequest.le

/-- The spent amounts of a day change by what the requests reserve on it. -/
theorem Store.Balanced.add (balanced : s.Balanced profile) (fresh : s.requests id = none)
    (amount : new.amountBaseUnits = intText profile.amountPerRequest)
    (requests : t.requests = update s.requests id (some new))
    (order : t.order = s.order ++ [id]) (deployed : t.profile = s.profile)
    (spent : ∀ day, t.spent day = s.spent day +
      profile.amountPerRequest * (new.reserves day).toNat)
    (bounded : ∀ day, t.spent day ≤ profile.globalDailyBudget) : t.Balanced profile := by
  have unlisted : id ∉ s.order := by simp [balanced.known, fresh]
  refine ⟨balanced.toOrdered.add fresh requests order, deployed.trans balanced.deployed, ?_, ?_,
    bounded⟩
  · intro other request known
    by_cases here : other = id
    · subst here
      rw [requests, update_self] at known
      cases known
      exact amount
    · rw [requests, update_of_ne here] at known
      exact balanced.amounts other request known
  · intro day
    rw [spent, balanced.spent, reserved, reserved, requests, order, Tally.count_add unlisted,
      Int.natCast_add, Int.mul_add]

theorem Store.Balanced.rewrite (balanced : s.Balanced profile) (valid : profile.Valid)
    (new : Request) (known : s.requests id = some old) (live : old.status.isLive = true)
    (amount : new.amountBaseUnits = old.amountBaseUnits) (created : new.createdAt = old.createdAt)
    (requests : t.requests = update s.requests id (some new))
    (order : t.order = s.order) (deployed : t.profile = s.profile)
    (spent : ∀ day, t.spent day + profile.amountPerRequest * (old.reserves day).toNat =
      s.spent day + profile.amountPerRequest * (new.reserves day).toNat) :
    t.Balanced profile := by
  have listed : id ∈ s.order := (balanced.known id).mpr (by simp [known])
  refine ⟨balanced.toOrdered.rewrite known requests order, deployed.trans balanced.deployed, ?_,
    ?_, ?_⟩
  · intro other request found
    by_cases here : other = id
    · subst here
      rw [requests, update_self] at found
      cases found
      exact amount.trans (balanced.amounts other old known)
    · rw [requests, update_of_ne here] at found
      exact balanced.amounts other request found
  · intro day
    have moved := Tally.count_update (Request.reserves day) new balanced.nodup listed known
    have spent := spent day
    rw [← requests, ← order, ← reserved, order, ← reserved] at moved
    rw [balanced.spent, ← Int.mul_add, ← Int.natCast_add, ← moved, Int.natCast_add,
      Int.mul_add] at spent
    omega
  · intro day
    have spent := spent day
    have fewer : (new.reserves day).toNat ≤ (old.reserves day).toNat := by
      simp only [Request.reserves, live, created]
      cases new.status.isLive <;> simp
    have less : profile.amountPerRequest * ((new.reserves day).toNat : Int) ≤
        profile.amountPerRequest * (old.reserves day).toNat :=
      Int.mul_le_mul_of_nonneg_left (Int.ofNat_le.mpr fewer) valid.amountPerRequest.le
    have bounded := balanced.bounded day
    omega

/-- What is released was reserved, so nothing is cut. -/
theorem Entry.Due.unclamped (due : entry.Due profile s) (valid : profile.Valid)
    (balanced : s.Balanced profile) : ¬ s.Clamps entry := by
  rintro ⟨day, amount, booking, cut⟩
  unfold Store.booking? at booking
  split at booking
  next kind =>
      split_ifs at booking
      rw [(due.created (.inl kind)).2, setString?_intText] at booking
      cases booking
      have spent := balanced.nonneg valid (budgetDay entry.at_)
      have positive := valid.amountPerRequest
      omega
  next kind =>
      obtain ⟨request, known, booking⟩ := Option.bind_eq_some_iff.mp booking
      rw [balanced.amounts _ request known, setString?_intText] at booking
      cases booking
      have covered := balanced.covers valid known (due.live (.inr (.inr kind)) request known)
      omega
  next => cases booking

/-- A live request that stays live reserves what it has reserved. -/
theorem Store.Balanced.relabel (balanced : s.Balanced profile) (valid : profile.Valid)
    (known : s.requests id = some old) (live : old.status.isLive = true)
    (live' : new.status.isLive = true) (amount : new.amountBaseUnits = old.amountBaseUnits)
    (created : new.createdAt = old.createdAt) : (s.setRequest id new).Balanced profile := by
  refine balanced.rewrite valid new known live amount created rfl rfl rfl fun day => ?_
  rw [Request.reserves, Request.reserves, live, live', created]
  rfl

theorem Store.Balanced.applyEntry [EthText] (balanced : s.Balanced profile) (valid : profile.Valid)
    (due : entry.Due profile s) : (s.applyEntry entry).1.Balanced profile := by
  have spent := applyEntry_spent (due.unclamped valid balanced)
  unfold Store.applyEntry at spent ⊢
  cases kind : entry.type with
  | requestAccepted =>
    obtain ⟨fresh, amount⟩ := due.created (.inl kind)
    have affordable := due.affordable kind
    simp only [kind, booking?, applyAccepted, amount, setString?_intText] at spent ⊢
    split_ifs with missing
    · exact balanced
    · simp only [if_neg missing, Option.map_some] at spent
      refine balanced.add fresh rfl (by rw [countAccepted_eq]; rfl)
        (by rw [countAccepted_eq]; rfl) (by rw [countAccepted_eq]; rfl) (fun day => ?_)
        fun day => ?_
      · rw [spent, Request.reserves]
        by_cases here : budgetDay entry.at_ = day <;> simp [here, Status.isLive]
      · rw [spent]
        have bounded := balanced.bounded day
        split_ifs with here
        · rw [← here]
          exact affordable
        · omega
  | requestDenied =>
    obtain ⟨fresh, amount⟩ := due.created (.inr kind)
    simp only [applyDenied]
    split_ifs
    · exact balanced
    · refine balanced.add fresh amount rfl rfl rfl (fun day => ?_) balanced.bounded
      simp [Request.reserves, Status.isLive, Store.spent, addRequest, setRequest]
  | txSubmitted =>
    have live := due.live (.inl kind)
    simp only [applySubmitted]
    cases known : s.requests (entry.payload.get "requestId") with
    | none => exact balanced
    | some old =>
      cases scanUint64? (entry.payload.get "nonce") <;>
        exact balanced.relabel valid known (live old known) rfl rfl rfl
  | txConfirmed =>
    have live := due.live (.inr (.inl kind))
    simp only [applyConfirmed]
    cases known : s.requests (entry.payload.get "requestId") with
    | none => exact balanced
    | some old =>
      cases scanUint64? (entry.payload.get "blockNumber") <;>
        exact balanced.relabel valid known (live old known) rfl rfl rfl
  | txFailed =>
    have live := due.live (.inr (.inr kind))
    simp only [kind, booking?, applyFailed] at spent ⊢
    cases known : s.requests (entry.payload.get "requestId") with
    | none => exact balanced
    | some old =>
      have amount := balanced.amounts _ old known
      simp only [known, Option.bind_some, amount, setString?_intText, Option.map_some] at spent ⊢
      refine balanced.rewrite valid { old with
        status := .failed
        amountBaseUnits := intText profile.amountPerRequest
        reason := entry.payload.get "reason"
        updatedAt := entry.at_ } known (live old known) amount.symm rfl rfl rfl rfl fun day => ?_
      rw [spent, Request.reserves, Request.reserves, live old known]
      by_cases here : budgetDay old.createdAt = day <;> simp [here, Status.isLive]
  | servicePaused | serviceResumed | signerRotated => exact balanced.congr rfl rfl rfl rfl
  | refillObserved => exact balanced
  | other name => exact balanced

end Entries

/-! ## Operations -/

/-- The store knows the request, and it reserves its amount. -/
def Store.Live (store : Store) (id : GoString) : Prop :=
  ∃ request, store.requests id = some request ∧ request.status.isLive = true

/-- The request of a submission, a confirmation or a failure. -/
def Operation.continued? : Operation → Option GoString
  | .recordSubmitted requestID _ _ _ _ | .recordConfirmed requestID _ _ _
  | .recordFailed requestID _ _ => some requestID
  | .accept _ _ _ _ | .recordDenied _ _ _ _ | .pause _ _ | .resume _ | .recordRotation _ _ _
  | .recordRefill _ _ _ => none

theorem Operation.subject_of_continued {operation : Operation} {id : GoString}
    (continued : operation.continued? = some id) : operation.subject? = some id := by
  cases operation <;> first | exact continued | cases continued

/-- The budget is the last limit that is checked. -/
theorem Store.affordable_of_limitDenial {profile : Profile} {s : Store} {state : AddressState}
    {at_ : Time} (deployed : s.profile = profile) (unlimited : s.limitDenial state at_ = none) :
    s.spent (budgetDay at_) + profile.amountPerRequest ≤ profile.globalDailyBudget := by
  unfold limitDenial at unlimited
  split at unlimited
  · cases unlimited
  · split_ifs at unlimited with capped exhausted
    rw [← deployed]
    exact not_lt.mp exhausted

section Operations

variable [EthText] {profile : Profile} {s t : Store} {entry : Entry}

/-- What an operation journals is due, if it is not about a request that has failed. -/
theorem Operation.draft_due {operation : Operation} (deployed : s.profile = profile)
    (fresh : operation.Fresh s) (admissible : operation.Admissible s)
    (live : ∀ id, operation.continued? = some id → s.Live id)
    (drafted : entry.draft = operation.draft s.profile) : entry.Due profile s := by
  have continues (id : GoString) (here : operation.continued? = some id)
      (same : entry.payload.get "requestId" = id) (request : Request)
      (known : s.requests (entry.payload.get "requestId") = some request) :
      request.status.isLive = true := by
    obtain ⟨request', known', live⟩ := live id here
    rw [same] at known
    cases known.symm.trans known'
    exact live
  rw [deployed] at drafted
  cases operation with
  | accept clientKey address at_ requestID =>
    obtain ⟨sameType, sameTime, samePayload⟩ := Draft.mk.inj drafted
    refine ⟨fun _ => ?_, fun _ => ?_, by simp [sameType]⟩
    · rw [samePayload]
      exact ⟨fresh, rfl⟩
    · rw [sameTime]
      exact Store.affordable_of_limitDenial deployed admissible.2.2
  | recordDenied =>
    obtain ⟨sameType, -, samePayload⟩ := Draft.mk.inj drafted
    refine ⟨fun _ => ?_, by simp [sameType], by simp [sameType]⟩
    rw [samePayload]
    exact ⟨fresh, rfl⟩
  | recordSubmitted | recordConfirmed | recordFailed =>
    obtain ⟨sameType, -, samePayload⟩ := Draft.mk.inj drafted
    refine ⟨by simp [sameType], by simp [sameType], fun _ => continues _ rfl ?_⟩
    rw [samePayload]
    rfl
  | pause | resume | recordRotation | recordRefill =>
    obtain ⟨sameType, -⟩ := Draft.mk.inj drafted
    exact ⟨by simp [sameType], by simp [sameType], by simp [sameType]⟩

omit [EthText] in
theorem Store.Ordered.start : Store.Ordered { journal := openJournal [], profile } :=
  ⟨.nil, fun _ => by simp⟩

omit [EthText] in
theorem Store.Ordered.of_core (ordered : s.Ordered) (cores : s.core = t.core) : t.Ordered :=
  ordered.congr (requests_of_core cores.symm) (eq_of_core cores.symm Store.order)

theorem Store.Ordered.perform [Digest] (ordered : s.Ordered) {call : Call}
    (fresh : call.operation.Fresh s) : (s.perform call).1.Ordered := by
  obtain alike | ⟨entry, error, drafted, -, journals, -⟩ := perform_cases (s := s) call
  · exact ordered.of_core alike.core
  · refine (ordered.applyEntry fun created => ?_).of_core journals.core
    obtain ⟨operation, fault⟩ := call
    obtain ⟨sameType, -, samePayload⟩ := Draft.mk.inj drafted
    rw [samePayload]
    cases operation with
    | accept | recordDenied => exact fresh
    | _ =>
      rw [sameType] at created
      cases created <;> contradiction

/-- Apply the entries, whether they fail or not. -/
def Store.applyAll (store : Store) (entries : List Entry) : Store :=
  entries.foldl (fun store entry => (store.applyEntry entry).1) store

theorem Store.Unclamped.snoc {entries : List Entry} (before : s.Unclamped entries)
    (last : ¬ (s.applyAll entries).Clamps entry) : s.Unclamped (entries ++ [entry]) := by
  induction entries generalizing s with
  | nil => exact ⟨last, trivial⟩
  | cons first rest ih => exact ⟨before.1, ih before.2 last⟩

/-- The journal gives the balance, and giving it never needs a cut. -/
structure Store.Solvent (profile : Profile) (store : Store) : Prop where
  faithful : store.Faithful profile
  balanced : store.Balanced profile
  core : (Store.applyAll { journal := openJournal [], profile } store.journal.entries).core =
    store.core
  unclamped : Store.Unclamped { journal := openJournal [], profile } store.journal.entries

theorem Store.Solvent.alike (solvent : s.Solvent profile) (alike : s.Alike t) :
    t.Solvent profile where
  faithful := solvent.faithful.alike alike
  balanced := solvent.balanced.of_core alike.core
  core := alike.journal ▸ alike.core ▸ solvent.core
  unclamped := alike.journal ▸ solvent.unclamped

theorem Store.Solvent.journals {error : Option StoreError} (solvent : s.Solvent profile)
    (valid : profile.Valid) (due : entry.Due profile s) (journals : s.Journals t entry error) :
    t.Solvent profile where
  faithful := solvent.faithful.journals journals
  balanced := (solvent.balanced.applyEntry valid due).of_core journals.core
  core := by
    rw [journals.entries, applyAll, List.foldl_concat]
    exact (applyEntry_core solvent.core entry).1.trans journals.core
  unclamped := by
    rw [journals.entries]
    refine solvent.unclamped.snoc fun clamps => due.unclamped valid solvent.balanced ?_
    have same : s.requests = _ := (requests_of_core solvent.core).symm
    have spent : s.spent = _ := (eq_of_core solvent.core Store.spent).symm
    obtain ⟨day, amount, booking, cut⟩ := clamps
    refine ⟨day, amount, ?_, spent ▸ cut⟩
    rw [← booking, booking?, booking?, same]

/-- Every operation keeps the balance, unless it is about a request that has failed. -/
theorem Store.Solvent.perform [Digest] (solvent : s.Solvent profile) (valid : profile.Valid)
    {call : Call} (fresh : call.operation.Fresh s)
    (live : ∀ id, call.operation.continued? = some id → s.Live id) :
    (s.perform call).1.Solvent profile := by
  obtain alike | ⟨entry, error, drafted, admissible, journals, -⟩ :=
    perform_cases (s := s) call
  · exact solvent.alike alike
  · have due := Operation.draft_due solvent.balanced.deployed fresh admissible live drafted
    exact solvent.journals valid due journals

theorem Store.Solvent.opened (solvent : s.Solvent profile)
    (opened : newStore (openJournal s.journal.entries) s.journal.entries profile = .ok t) :
    t.Solvent profile := by
  have core : t.core = s.core := solvent.faithful.reopened opened
  have entries : t.journal.entries = s.journal.entries := by
    rw [replay_journal opened, openJournal_entries]
  constructor
  · exact .opened opened
  · exact solvent.balanced.of_core core.symm
  · rw [entries, core]
    exact solvent.core
  · rw [entries]
    exact solvent.unclamped

/-- Before the first start nothing is spent. -/
theorem Store.Solvent.start (valid : profile.Valid) :
    Store.Solvent profile { journal := openJournal [], profile } where
  faithful := .opened (show newStore (openJournal []) [] profile = .ok _ from rfl)
  balanced := by
    refine ⟨.start, rfl, nofun, fun _ => (Int.mul_zero _).symm, fun _ => ?_⟩
    exact valid.amountPerRequest.le.trans valid.amount_le_budget
  core := rfl
  unclamped := trivial

end Operations

end Torium.Faucet
