import Torium.Faucet.Calendar
import Torium.Faucet.Payments

/-!
# Limits for an address

A client key is good for one request of an address on a day, accepted requests of an
address keep the cooldown between them, and there are at most so many on a day. The
handlers read their clocks before they come to the lock of the store, so the times of the
accepted requests need not grow. The limits hold nevertheless, since a request is only
accepted when the cooldown of the last one is over.

The accepted requests are those of the journal; what the store keeps about an address is
a summary of them, before and after a restart.
-/

namespace Torium.Faucet

open Evm Function

/-! ## Keys -/

section Keys

variable [EthText] [EthText.Checksummed]

/-- Different client keys, addresses or days have different keys. -/
theorem idempotencyKeyFor_injective {clientKey clientKey' : GoString} {address address' : Address}
    {at_ at' : Time}
    (same : idempotencyKeyFor clientKey address at_ = idempotencyKeyFor clientKey' address' at') :
    clientKey = clientKey' ∧ address = address' ∧ dayNumber at_ = dayNumber at' := by
  have hexadecimal (address : Address) : 124 ∉ toLower (addressHex address) := by
    rw [EthText.Checksummed.toLower_addressHex]
    intro member
    obtain mark | digit := List.mem_append.mp member
    · exact absurd mark (by decide)
    · exact absurd (hexDigits_digits digit) (by decide)
  have date (at_ : Time) : 124 ∉ budgetDay at_ := by
    have digits (width n : Nat) : 124 ∉ padded width n :=
      fun member => absurd (isDigit_of_mem_padded member) (by decide)
    rw [budgetDay_eq, dateText]
    split_ifs <;> simp [digits]
  have parts (clientKey : GoString) (address : Address) (at_ : Time) :
      idempotencyKeyFor clientKey address at_ =
        toLower (addressHex address) ++ 124 :: (budgetDay at_ ++ 124 :: clientKey) := by
    simp [idempotencyKeyFor, text]
  rw [parts, parts] at same
  obtain ⟨addresses, rest⟩ := eq_of_marked (hexadecimal _) (hexadecimal _) same
  obtain ⟨days, keys⟩ := eq_of_marked (date _) (date _) rest
  refine ⟨keys, ?_, dayNumber_eq_of_budgetDay days⟩
  rw [EthText.Checksummed.toLower_addressHex, EthText.Checksummed.toLower_addressHex] at addresses
  have bound (address : Address) : address.toNat < 16 ^ 40 := address.isLt
  exact BitVec.eq_of_toNat_eq (hexDigits_injective (bound _) (bound _)
    (List.append_cancel_left addresses))

end Keys

/-! ## Accepted requests -/

/-- The entry is applied as an accepted request. -/
def Entry.accepts (entry : Entry) : Bool :=
  entry.type = .requestAccepted ∧ entry.payload.get "requestId" ≠ [] ∧
    entry.payload.get "address" ≠ []

section Entries

variable [EthText]

/-- The entry accepts a request for the address. -/
def Entry.acceptsFor (address : Address) (entry : Entry) : Bool :=
  entry.accepts && decide (hexToAddress (entry.payload.get "address") = address)

/-- The time of the last accepted request for an address; the zero time when there is none. -/
def lastAccepted (address : Address) (entries : List Entry) : Time :=
  match (entries.filter (Entry.acceptsFor address)).getLast? with
  | some last => last.at_
  | none => 0

/-- The number of requests that were accepted for the address on the day. -/
def dailyCount (address : Address) (day : GoString) (entries : List Entry) : Nat :=
  entries.countP fun entry => entry.acceptsFor address && decide (budgetDay entry.at_ = day)

/-- The store knows the requests of the entries under their keys, and sums them up for each
address. -/
structure Store.Indexes (store : Store) (entries : List Entry) : Prop where
  replays : ∀ entry ∈ entries, entry.accepts = true →
    store.idempotency (entry.payload.get "idempotencyKey") =
      some (entry.payload.get "requestId") ∧
    (store.requests (entry.payload.get "requestId")).isSome
  last : ∀ address, (store.stateOf address).lastAccepted = lastAccepted address entries
  count : ∀ address day, (store.stateOf address).dailyCount day = dailyCount address day entries

variable {s t : Store} {entry : Entry} {entries : List Entry}

theorem lastAccepted_snoc (address : Address) : lastAccepted address (entries ++ [entry]) =
    if entry.acceptsFor address then entry.at_ else lastAccepted address entries := by
  simp only [lastAccepted, List.filter_append]
  cases here : entry.acceptsFor address <;> simp [here]

theorem dailyCount_snoc (address : Address) (day : GoString) :
    dailyCount address day (entries ++ [entry]) = dailyCount address day entries +
      if entry.acceptsFor address ∧ budgetDay entry.at_ = day then 1 else 0 := by
  simp [dailyCount, List.countP_append, List.countP_singleton]

/-- What an accepted request changes. -/
theorem Store.applyEntry_accepts (accepts : entry.accepts = true) :
    (s.applyEntry entry).1.idempotency = update s.idempotency
      (entry.payload.get "idempotencyKey") (some (entry.payload.get "requestId")) ∧
    ((s.applyEntry entry).1.requests (entry.payload.get "requestId")).isSome ∧
    (s.applyEntry entry).1.stateOf = update s.stateOf
      (hexToAddress (entry.payload.get "address"))
      ((s.stateOf (hexToAddress (entry.payload.get "address"))).count entry.at_) := by
  obtain ⟨kind, id, address⟩ := of_decide_eq_true accepts
  have states (u : Store) (address : Address) (state : AddressState) :
      Store.stateOf { u with addresses := update u.addresses address (some state) } =
        update u.stateOf address state := by
    funext other
    by_cases here : other = address
    · subst here
      simp [stateOf]
    · simp [stateOf, update_of_ne here]
  simp only [applyEntry, kind, applyAccepted, id, address, or_self, if_false, countAccepted_eq]
  split
  · exact ⟨rfl, by simp [addSpent, addRequest, setRequest], states _ _ _⟩
  · exact ⟨rfl, by simp [addRequest, setRequest], states _ _ _⟩

/-- All other entries change nothing of it. -/
theorem Store.applyEntry_other (other : entry.accepts = false) :
    (s.applyEntry entry).1.idempotency = s.idempotency ∧
      (s.applyEntry entry).1.stateOf = s.stateOf := by
  have applied := s.applied entry
  generalize s.applyEntry entry = result at applied ⊢
  cases applied with
  | accepted kind present =>
    rw [not_or] at present
    exact absurd ⟨kind, present⟩ (of_decide_eq_false other)
  | _ => exact ⟨rfl, rfl⟩

theorem Store.Indexes.of_core (indexes : s.Indexes entries) (cores : s.core = t.core) :
    t.Indexes entries := by
  have states (address : Address) : s.stateOf address = t.stateOf address :=
    Option.some.inj (congrFun (eq_of_core cores fun u => u.core.addresses) address)
  have keys : s.idempotency = t.idempotency := eq_of_core cores Store.idempotency
  refine ⟨?_, ?_, ?_⟩
  · rw [← keys, ← requests_of_core cores]
    exact indexes.replays
  · intro address
    rw [← states]
    exact indexes.last address
  · intro address
    rw [← states]
    exact indexes.count address

/-- One more entry; a new key is not known yet. -/
theorem Store.Indexes.applyEntry (indexes : s.Indexes entries)
    (fresh : entry.accepts = true → s.idempotency (entry.payload.get "idempotencyKey") = none) :
    (s.applyEntry entry).1.Indexes (entries ++ [entry]) := by
  have kept {id : GoString} (known : (s.requests id).isSome) :
      ((s.applyEntry entry).1.requests id).isSome := by
    rw [Option.isSome_iff_exists] at known ⊢
    obtain ⟨old, known⟩ := known
    have holds := (s.applied entry).status.holds ⟨old, known, trivial⟩ fun _ _ => trivial
    exact holds.imp fun _ found => found.1
  cases accepts : entry.accepts with
  | false =>
    obtain ⟨keys, states⟩ := applyEntry_other (s := s) accepts
    have silent (address : Address) : entry.acceptsFor address = false := by
      simp [Entry.acceptsFor, accepts]
    refine ⟨fun other member here => ?_, fun address => ?_, fun address day => ?_⟩
    · obtain old | new := List.mem_append.mp member
      · obtain ⟨indexed, known⟩ := indexes.replays other old here
        exact ⟨keys ▸ indexed, kept known⟩
      · rw [List.mem_singleton.mp new, accepts] at here
        cases here
    · rw [states, lastAccepted_snoc, silent]
      exact indexes.last address
    · rw [states, dailyCount_snoc, silent]
      simpa using indexes.count address day
  | true =>
    obtain ⟨keys, known, states⟩ := applyEntry_accepts (s := s) accepts
    refine ⟨fun other member here => ?_, fun address => ?_, fun address day => ?_⟩
    · obtain old | new := List.mem_append.mp member
      · obtain ⟨indexed, known⟩ := indexes.replays other old here
        refine ⟨?_, kept known⟩
        rw [keys, update_of_ne, indexed]
        intro same
        rw [same, fresh accepts] at indexed
        cases indexed
      · rw [List.mem_singleton.mp new]
        exact ⟨by rw [keys, update_self], known⟩
    · rw [states, lastAccepted_snoc, ← indexes.last address]
      by_cases here : hexToAddress (entry.payload.get "address") = address
      · subst here
        simp [Entry.acceptsFor, accepts, AddressState.count]
      · simp [Entry.acceptsFor, here, update_of_ne (Ne.symm here)]
    · rw [states, dailyCount_snoc, ← indexes.count address day]
      by_cases here : hexToAddress (entry.payload.get "address") = address
      · subst here
        by_cases today : budgetDay entry.at_ = day
        · subst today
          simp [Entry.acceptsFor, accepts, AddressState.count]
        · simp [today, AddressState.count, update_of_ne (Ne.symm today)]
      · simp [Entry.acceptsFor, here, update_of_ne (Ne.symm here)]

/-! ## Limits -/

/-- What holds of the accepted requests. The times of two requests for an address are compared
only if none of them is the zero time, which stands for no request at all. -/
structure Limited (profile : Profile) (entries : List Entry) : Prop where
  keys : ∀ entry ∈ entries, entry.accepts = true → ∃ clientKey,
    entry.payload.get "idempotencyKey" = idempotencyKeyFor clientKey
      (hexToAddress (entry.payload.get "address")) entry.at_
  distinct : entries.Pairwise fun first second => first.accepts = true → second.accepts = true →
    first.payload.get "idempotencyKey" ≠ second.payload.get "idempotencyKey"
  spaced : ∀ address, (∀ entry ∈ entries, entry.acceptsFor address = true → entry.at_ ≠ 0) →
    (entries.filter (Entry.acceptsFor address)).Pairwise fun first second =>
      profile.cooldownPerAddress < 0 ∨ first.at_ + profile.cooldownPerAddress ≤ second.at_
  capped : ∀ address day, dailyCount address day entries ≤ profile.perAddressDailyCap.toNat

variable {profile : Profile}

omit [EthText] in
/-- What an admissible request of an address meets. -/
theorem Store.limits_of_limitDenial {state : AddressState} {now : Time}
    (unlimited : s.limitDenial state now = none) :
    (state.lastAccepted = 0 ∨ state.lastAccepted + s.profile.cooldownPerAddress ≤ now) ∧
      state.dailyCount (budgetDay now) < s.profile.perAddressDailyCap.toNat := by
  unfold limitDenial at unlimited
  split at unlimited
  · cases unlimited
  next cool =>
      split_ifs at unlimited with capped exhausted
      simp only [cooldownDenial] at cool
      split_ifs at cool with early
      refine ⟨?_, by omega⟩
      by_cases zero : state.lastAccepted = 0
      · exact .inl zero
      · refine .inr (not_lt.mp fun soon => early ⟨?_, soon⟩)
        simpa [Time.isZero] using zero

/-- The new request comes after all others of its address. -/
theorem Limited.later {address : Address} (limited : Limited profile entries)
    (nonzero : ∀ entry ∈ entries, entry.acceptsFor address = true → entry.at_ ≠ 0) {now : Time}
    (cool : lastAccepted address entries = 0 ∨
      lastAccepted address entries + profile.cooldownPerAddress ≤ now) :
    ∀ other ∈ entries.filter (Entry.acceptsFor address), profile.cooldownPerAddress < 0 ∨
      other.at_ + profile.cooldownPerAddress ≤ now := by
  intro other member
  have spaced := limited.spaced address nonzero
  obtain ⟨before, last, split⟩ := List.eq_nil_or_concat' (entries.filter (Entry.acceptsFor address))
    |>.resolve_left (List.ne_nil_of_mem member)
  have final : lastAccepted address entries = last.at_ := by
    simp [lastAccepted, split]
  have accepted : last ∈ entries.filter (Entry.acceptsFor address) := by
    simp [split]
  obtain ⟨listed, here⟩ := List.mem_filter.mp accepted
  have elapsed : last.at_ + profile.cooldownPerAddress ≤ now := by
    rw [final] at cool
    exact cool.resolve_left (nonzero last listed here)
  rw [split] at member spaced
  obtain old | new := List.mem_append.mp member
  · obtain none | apart := (List.pairwise_append.mp spaced).2.2 other old last (by simp)
    · exact .inl none
    · by_cases negative : profile.cooldownPerAddress < 0
      · exact .inl negative
      · refine .inr (apart.trans (le_trans ?_ elapsed))
        exact le_add_of_nonneg_right (not_lt.mp negative)
  · rw [List.mem_singleton.mp new]
    exact .inr elapsed

/-- One more entry; a request is only accepted with a new key, after the cooldown and below
the cap. -/
theorem Limited.snoc (limited : Limited profile entries)
    (key : entry.accepts = true → ∃ clientKey, entry.payload.get "idempotencyKey" =
      idempotencyKeyFor clientKey (hexToAddress (entry.payload.get "address")) entry.at_)
    (fresh : entry.accepts = true → ∀ other ∈ entries, other.accepts = true →
      other.payload.get "idempotencyKey" ≠ entry.payload.get "idempotencyKey")
    (cool : ∀ address, entry.acceptsFor address = true → lastAccepted address entries = 0 ∨
      lastAccepted address entries + profile.cooldownPerAddress ≤ entry.at_)
    (room : ∀ address, entry.acceptsFor address = true →
      dailyCount address (budgetDay entry.at_) entries < profile.perAddressDailyCap.toNat) :
    Limited profile (entries ++ [entry]) where
  keys other member accepts := by
    obtain old | new := List.mem_append.mp member
    · exact limited.keys other old accepts
    · cases List.mem_singleton.mp new
      exact key accepts
  distinct := by
    refine List.pairwise_append.mpr ⟨limited.distinct, List.pairwise_singleton _ _, ?_⟩
    intro other member last final accepts accepts'
    cases List.mem_singleton.mp final
    exact fresh accepts' other member accepts
  spaced address nonzero := by
    have before (other : Entry) (member : other ∈ entries) :=
      nonzero other (List.mem_append_left _ member)
    rw [List.filter_append]
    refine List.pairwise_append.mpr ⟨limited.spaced address before, ?_, ?_⟩
    · exact List.Pairwise.filter _ (List.pairwise_singleton _ _)
    · intro other member last final
      obtain ⟨final, here⟩ := List.mem_filter.mp final
      cases List.mem_singleton.mp final
      exact limited.later before (cool address here) other member
  capped address day := by
    rw [dailyCount_snoc]
    split_ifs with here
    · obtain ⟨here, rfl⟩ := here
      exact room address here
    · exact limited.capped address day

end Entries

/-! ## The store -/

section Operations

variable [EthText] {profile : Profile} {s t : Store} {entry : Entry}

/-- The journal keeps the limits, and the store sums it up. -/
structure Store.Limiting (profile : Profile) (store : Store) : Prop where
  faithful : store.Faithful profile
  keyed : store.Keyed
  deployed : store.profile = profile
  indexes : store.Indexes store.journal.entries
  limited : Limited profile store.journal.entries

theorem Store.Limiting.start : Store.Limiting profile { journal := openJournal [], profile } where
  faithful := .opened (show newStore (openJournal []) [] profile = .ok _ from rfl)
  keyed := nofun
  deployed := rfl
  indexes := ⟨nofun, fun _ => rfl, fun _ _ => rfl⟩
  limited := ⟨nofun, .nil, fun _ _ => .nil, fun _ _ => Nat.zero_le _⟩

theorem Store.Limiting.of_core (limiting : s.Limiting profile) (faithful : t.Faithful profile)
    (entries : t.journal.entries = s.journal.entries) (cores : s.core = t.core) :
    t.Limiting profile where
  faithful := faithful
  keyed := fun id request known => limiting.keyed id request (requests_of_core cores ▸ known)
  deployed := (eq_of_core cores Store.profile).symm.trans limiting.deployed
  indexes := entries ▸ limiting.indexes.of_core cores
  limited := entries ▸ limiting.limited

theorem Store.Limiting.opened (limiting : s.Limiting profile)
    (opened : newStore (openJournal s.journal.entries) s.journal.entries profile = .ok t) :
    t.Limiting profile := by
  have entries : t.journal.entries = s.journal.entries := by
    rw [replay_journal opened, openJournal_entries]
  exact limiting.of_core (.opened opened) entries (limiting.faithful.reopened opened).symm

variable [EthText.Lawful]

/-- The only operation that accepts requests. -/
theorem Operation.accepts_draft {operation : Operation} (accepts : entry.accepts = true)
    (drafted : entry.draft = operation.draft profile) :
    ∃ clientKey address at_ requestID, operation = .accept clientKey address at_ requestID ∧
      entry.at_ = at_ ∧ hexToAddress (entry.payload.get "address") = address ∧
      entry.payload.get "idempotencyKey" = idempotencyKeyFor clientKey address at_ := by
  obtain ⟨sameType, sameTime, samePayload⟩ := Draft.mk.inj drafted
  obtain ⟨kind, -⟩ := of_decide_eq_true accepts
  cases operation with
  | accept clientKey address at_ requestID =>
    refine ⟨clientKey, address, at_, requestID, rfl, sameTime, ?_, ?_⟩
    · rw [samePayload]
      exact EthText.Lawful.hexToAddress_addressHex address
    · rw [samePayload]
      rfl
  | _ =>
    rw [sameType] at kind
    cases kind

theorem Store.Limiting.perform [Digest] (limiting : s.Limiting profile) (call : Call) :
    (s.perform call).1.Limiting profile := by
  obtain alike | ⟨entry, error, drafted, admissible, journals, -⟩ := perform_cases (s := s) call
  · exact limiting.of_core (limiting.faithful.alike alike) (by rw [alike.journal]) alike.core
  have admitted (accepts : entry.accepts = true) : ∃ clientKey,
      entry.payload.get "idempotencyKey" = idempotencyKeyFor clientKey
        (hexToAddress (entry.payload.get "address")) entry.at_ ∧
      s.idempotency (entry.payload.get "idempotencyKey") = none ∧
      s.limitDenial (s.stateOf (hexToAddress (entry.payload.get "address"))) entry.at_ = none := by
    obtain ⟨clientKey, address, at_, requestID, same, rfl, rfl, key⟩ :=
      Operation.accepts_draft accepts drafted
    rw [same] at admissible
    obtain ⟨fresh, -, unlimited⟩ := admissible
    exact ⟨clientKey, key, key ▸ fresh, unlimited⟩
  have limits (address : Address) (here : entry.acceptsFor address = true) :
      (lastAccepted address s.journal.entries = 0 ∨
        lastAccepted address s.journal.entries + profile.cooldownPerAddress ≤ entry.at_) ∧
      dailyCount address (budgetDay entry.at_) s.journal.entries <
        profile.perAddressDailyCap.toNat := by
    obtain ⟨accepts, rfl⟩ : entry.accepts = true ∧
        hexToAddress (entry.payload.get "address") = address := by
      simpa [Entry.acceptsFor] using here
    obtain ⟨clientKey, key, fresh, unlimited⟩ := admitted accepts
    have limits := limits_of_limitDenial unlimited
    rwa [limiting.indexes.last, limiting.indexes.count, limiting.deployed] at limits
  have fresh (accepts : entry.accepts = true) :
      s.idempotency (entry.payload.get "idempotencyKey") = none := by
    obtain ⟨clientKey, key, fresh, unlimited⟩ := admitted accepts
    exact fresh
  refine ⟨limiting.faithful.journals journals, perform_keyed limiting.keyed call, ?_, ?_, ?_⟩
  · exact (eq_of_core journals.core Store.profile).symm.trans
      ((s.applied entry).profile.trans limiting.deployed)
  · rw [journals.entries]
    exact (limiting.indexes.applyEntry fresh).of_core journals.core
  · rw [journals.entries]
    refine limiting.limited.snoc (fun accepts => ?_) (fun accepts other member accepts' same => ?_)
      (fun address here => (limits address here).1) fun address here => (limits address here).2
    · obtain ⟨clientKey, key, -⟩ := admitted accepts
      exact ⟨clientKey, key⟩
    · have known := (limiting.indexes.replays other member accepts').1
      rw [same, fresh accepts] at known
      cases known

end Operations

/-! ## The service -/

section Service

variable [EthText]

/-- The entry accepts a request for the address, on the day, with the key of the client. -/
def Entry.AcceptsKey (clientKey : GoString) (address : Address) (day : Int) (entry : Entry) :
    Prop :=
  entry.acceptsFor address = true ∧ dayNumber entry.at_ = day ∧
    entry.payload.get "idempotencyKey" = idempotencyKeyFor clientKey address entry.at_

theorem idempotencyKeyFor_of_dayNumber {at_ at' : Time} (same : dayNumber at_ = dayNumber at')
    (clientKey : GoString) (address : Address) :
    idempotencyKeyFor clientKey address at_ = idempotencyKeyFor clientKey address at' := by
  rw [idempotencyKeyFor, idempotencyKeyFor, budgetDay_eq, budgetDay_eq, same]

variable [Digest]

/-- What holds of the requests that were accepted so far. Each of them has a client key, which
is good for one request of an address on a day: when it comes again, the request is returned.
The requests of an address keep the cooldown, in any order of their times, and the daily cap. -/
structure Store.KeepsLimits (profile : Profile) (store : Store) : Prop where
  keys : ∀ entry ∈ store.journal.entries, entry.accepts = true → ∃ clientKey,
    entry.AcceptsKey clientKey (hexToAddress (entry.payload.get "address")) (dayNumber entry.at_)
  once : ∀ clientKey address day, store.journal.entries.Pairwise fun first second =>
    ¬ (first.AcceptsKey clientKey address day ∧ second.AcceptsKey clientKey address day)
  replays : ∀ clientKey address day, ∀ entry ∈ store.journal.entries,
    entry.AcceptsKey clientKey address day → ∃ request,
      request.id = entry.payload.get "requestId" ∧
      ∀ at_, dayNumber at_ = day → store.findReplay clientKey address at_ = some request ∧
        ∀ fault requestID, store.accept fault clientKey address at_ requestID =
          (store, .request request true)
  spaced : ∀ address,
    (∀ entry ∈ store.journal.entries, entry.acceptsFor address = true → entry.at_ ≠ 0) →
    (store.journal.entries.filter (Entry.acceptsFor address)).Pairwise fun first second =>
      profile.cooldownPerAddress ≤ Int.natAbs (second.at_ - first.at_)
  capped : ∀ address day, store.journal.entries.countP (fun entry =>
    entry.acceptsFor address && decide (dayNumber entry.at_ = day)) ≤
      profile.perAddressDailyCap.toNat

variable {profile : Profile} {store : Store}

theorem Store.Limiting.keepsLimits (limiting : store.Limiting profile) :
    store.KeepsLimits profile where
  keys entry member accepts := by
    obtain ⟨clientKey, key⟩ := limiting.limited.keys entry member accepts
    exact ⟨clientKey, by simp [Entry.acceptsFor, accepts], rfl, key⟩
  once clientKey address day := by
    refine limiting.limited.distinct.imp fun {first second} distinct ⟨here, there⟩ => ?_
    obtain ⟨accepts, today, key⟩ := here
    obtain ⟨accepts', today', key'⟩ := there
    refine distinct (Bool.and_eq_true_iff.mp accepts).1 (Bool.and_eq_true_iff.mp accepts').1 ?_
    rw [key, key', idempotencyKeyFor_of_dayNumber (today.trans today'.symm)]
  replays clientKey address day entry member here := by
    obtain ⟨accepts, today, key⟩ := here
    obtain ⟨indexed, known⟩ :=
      limiting.indexes.replays entry member (Bool.and_eq_true_iff.mp accepts).1
    obtain ⟨request, known⟩ := Option.isSome_iff_exists.mp known
    refine ⟨request, limiting.keyed _ _ known, fun at_ same => ?_⟩
    rw [key, idempotencyKeyFor_of_dayNumber (today.trans same.symm)] at indexed
    constructor
    · rw [findReplay, indexed, Option.bind_some, known]
    · intro fault requestID
      simp only [accept, indexed, known]
  spaced address nonzero := by
    refine (limiting.limited.spaced address nonzero).imp fun {first second} apart => ?_
    obtain negative | apart := apart
    · exact negative.le.trans (Int.natCast_nonneg _)
    · exact (Int.le_sub_left_of_add_le apart).trans Int.le_natAbs
  capped address day := by
    by_cases empty : ∃ entry ∈ store.journal.entries, dayNumber entry.at_ = day
    · obtain ⟨entry, -, rfl⟩ := empty
      refine le_trans (List.countP_mono_left fun other _ here => ?_)
        (limiting.limited.capped address (budgetDay entry.at_))
      obtain ⟨here, same⟩ := Bool.and_eq_true_iff.mp here
      rw [here, budgetDay_eq, budgetDay_eq, of_decide_eq_true same]
      simp
    · rw [List.countP_eq_zero.mpr]
      · exact Nat.zero_le _
      · intro entry member here
        exact empty ⟨entry, member, of_decide_eq_true (Bool.and_eq_true_iff.mp here).2⟩

variable [EthText.Lawful]

theorem step_limiting {system system' : System} {label : Label}
    (limiting : system.world.store.Limiting profile)
    (taken : system.step profile label = some system') :
    system'.world.store.Limiting profile :=
  System.step_store limiting taken (fun _ _ _ _ => limiting.perform _)
    fun _ opened => limiting.opened opened

/-- In every run the accepted requests keep the limits, and the keys of the requests are
different for different client keys, addresses or days. -/
theorem limits_kept [EthText.Checksummed] {start system : System} {labels : List Label}
    (initial : start.Initial profile)
    (run : Transition.Run (System.step profile) Transition.Free labels start system) :
    system.world.store.KeepsLimits profile ∧
      ∀ clientKey clientKey' address address' at_ at',
        idempotencyKeyFor clientKey address at_ = idempotencyKeyFor clientKey' address' at' →
        clientKey = clientKey' ∧ address = address' ∧ dayNumber at_ = dayNumber at' := by
  refine ⟨Store.Limiting.keepsLimits ?_, fun _ _ _ _ _ _ => idempotencyKeyFor_injective⟩
  refine run.invariant (I := fun system => system.world.store.Limiting profile) ?_
    fun limiting _ taken => step_limiting limiting taken
  obtain ⟨signer, nonces, height, rfl⟩ := initial
  exact .start

end Service

namespace Demo

/-- A handler accepts a request. -/
def handle (index : Nat) (now : Time) (requestID : GoString) : List Label :=
  List.map (.handler index) [.clock now, .ok, .ok, .ok, .identifier requestID, .ok, .ok]

def started : List Label := [.start 32, .main .ok, .main .ok]

/-- The clock stands at the zero time when the first request comes. -/
def acceptedAtZero : List Label :=
  started ++ .open_ (.fund (text "key-0001") 17) :: handle 0 0 (text "req-1") ++
    .open_ (.fund (text "key-0002") 17) :: handle 1 second (text "req-2")

/-- The first handler reads its clock and waits until the second one is done. The request that
is accepted an hour later, after a restart, is the last one of the day. -/
def acceptedInTurn : List Label :=
  started ++ [.open_ (.fund (text "key-0001") 17), .handler 0 (.clock (noon - second))] ++
    .open_ (.fund (text "key-0002") 17) :: handle 1 noon (text "req-2") ++
    [.handler 0 .ok, .crash] ++ started ++ .main .ok ::
    .open_ (.fund (text "key-0003") 17) :: handle 0 (noon + 3600 * second) (text "req-3")

end Demo

theorem cooldown_skipped_at_zero :
    Demo.system.Initial Demo.profile ∧ ∃ system,
      @Transition.Run _ _ (@System.step lowerHex Digest.numbered Demo.profile) Transition.Free
        Demo.acceptedAtZero Demo.system system ∧
      ¬ (system.world.store.journal.entries.filter (@Entry.acceptsFor lowerHex 17)).Pairwise
        fun first second => Demo.profile.cooldownPerAddress ≤
          Int.natAbs (second.at_ - first.at_) := by
  obtain ⟨system, run, apart⟩ := Transition.run_of_execute_any
    (show (Transition.execute (@System.step lowerHex Digest.numbered Demo.profile)
      Demo.acceptedAtZero Demo.system).any (fun system =>
        (system.world.store.journal.entries.filter (@Entry.acceptsFor lowerHex 17)).map
          Entry.at_ = [0, second]) by decide +kernel)
  refine ⟨⟨32, _, _, rfl⟩, system, run, fun spaced => ?_⟩
  have times := List.pairwise_map (f := Entry.at_) (R := fun first second : Time =>
    Demo.profile.cooldownPerAddress ≤ Int.natAbs (second - first)) |>.mpr spaced
  rw [of_decide_eq_true apart] at times
  exact absurd times (by decide)

theorem limits_kept_demo :
    ∃ system, @Transition.Run _ _ (@System.step lowerHex Digest.numbered Demo.profile)
        Transition.Free Demo.acceptedInTurn Demo.system system ∧
      (system.world.store.journal.entries.filter (@Entry.acceptsFor lowerHex 17)).length = 2 ∧
      @Store.KeepsLimits lowerHex Digest.numbered Demo.profile system.world.store := by
  obtain ⟨system, run, accepted⟩ := Transition.run_of_execute_any
    (show (Transition.execute (@System.step lowerHex Digest.numbered Demo.profile)
      Demo.acceptedInTurn Demo.system).any (fun system =>
        (system.world.store.journal.entries.filter (@Entry.acceptsFor lowerHex 17)).length = 2)
      by decide +kernel)
  have kept := @limits_kept lowerHex Digest.numbered _ lowerHex_lawful lowerHex_checksummed _ _ _
    ⟨32, _, _, rfl⟩ run
  exact ⟨system, run, of_decide_eq_true accepted, kept.1⟩

end Torium.Faucet
