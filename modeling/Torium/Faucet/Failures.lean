import Torium.Faucet.Attribution
import Torium.Faucet.Ownership

/-!
# Requests that may fail

A request may be reported as failed when nothing that was sent for it has succeeded or can
still land. The worker concludes this from the receipt of the recorded submission, and it
recognises errors that came before anything was sent by a mark in their text.
-/

namespace Torium.Faucet

open Evm Concurrent Attempt

/-! ## Texts -/

section Texts

variable {needle : GoString}

theorem contains_iff {s : GoString} : contains needle s = true ↔ needle <:+: s := by
  induction s with
  | nil => simp [contains]
  | cons first rest ih =>
    rw [contains, Bool.or_eq_true, ih, List.infix_cons_iff, List.isPrefixOf_iff_prefix]

/-- A text does not run across a byte that it does not have. -/
theorem infix_of_separated {before after : GoString} {mark : UInt8} (missing : mark ∉ needle)
    (occurs : needle <:+: before ++ mark :: after) : needle <:+: before ∨ needle <:+: after := by
  obtain ⟨front, back, same⟩ := occurs
  obtain ⟨rest, rfl, -⟩ | ⟨rest, left, right⟩ := List.append_eq_append_iff.mp same
  · exact .inl ⟨front, rest, rfl⟩
  · cases rest with
    | nil => exact .inl ⟨front, [], by simpa using left⟩
    | cons _ rest =>
      obtain ⟨rfl, rfl⟩ := List.cons.inj right
      obtain ⟨rest', -, rfl⟩ | ⟨rest', -, split⟩ := List.append_eq_append_iff.mp left
      · exact absurd (by simp) missing
      · cases rest' with
        | nil =>
          rw [List.nil_append] at split
          subst split
          exact absurd (by simp) missing
        | cons _ rest' =>
          obtain ⟨-, rfl⟩ := List.cons.inj split
          exact .inr ⟨rest', back, rfl⟩

/-- An error with words before it is terminal only if it was. -/
theorem isTerminalFundingError_wrap {error : GoError} {context : String} {words : GoString}
    (blank : text context = words ++ [32]) (silent : contains (text "terminal:") words = false)
    (clear : isTerminalFundingError error = false) :
    isTerminalFundingError (error.wrap context) = false := by
  refine eq_false_of_ne_true fun terminal => ?_
  have occurs := contains_iff.mp terminal
  rw [GoError.wrap, blank, List.append_assoc] at occurs
  obtain before | after := infix_of_separated (by decide) occurs
  · exact absurd (contains_iff.mpr before) (ne_true_of_eq_false silent)
  · exact absurd (contains_iff.mpr after) (ne_true_of_eq_false clear)

/-- An error about a transaction is terminal only if what it ends with is. -/
theorem isTerminalFundingError_hash [EthText] [EthText.Hexadecimal] {error : GoError}
    {context : String} {words rest : GoString} {hash : Bytes32}
    (message : error.message = text context ++ hashHex hash ++ text ": " ++ rest)
    (blank : text context = words ++ [32]) (silent : contains (text "terminal:") words = false)
    (clear : contains (text "terminal:") rest = false) :
    isTerminalFundingError error = false := by
  refine eq_false_of_ne_true fun terminal => ?_
  have occurs := contains_iff.mp terminal
  have parts : error.message = words ++ 32 :: ((hashHex hash ++ [58]) ++ 32 :: rest) := by
    rw [message, blank]
    simp [text]
  rw [parts] at occurs
  obtain before | after := infix_of_separated (by decide) occurs
  · exact absurd (contains_iff.mpr before) (ne_true_of_eq_false silent)
  · obtain before | after := infix_of_separated (by decide) after
    · -- Hashes have no letter `t`.
      have first : (116 : UInt8) ∈ hashHex hash ++ [58] := before.subset (by decide)
      obtain digit | colon := List.mem_append.mp first
      · exact absurd (EthText.Hexadecimal.hashHex_digits hash 116 digit) (by decide)
      · exact absurd colon (by decide)
    · exact absurd (contains_iff.mpr after) (ne_true_of_eq_false clear)

end Texts

/-! ## Records -/

/-- The record of a submission names a transaction that was signed, with its slot. -/
def World.Vouched [EthText] (request : Request) (world : World) : Prop :=
  ∃ transaction ∈ world.signed, transaction.hash = hexToHash request.transactionHash ∧
    transaction.slot = request.slot

/-- Submissions are vouched for, and requests that failed are not paid and never will be. -/
structure World.Honest [EthText] (world : World) : Prop where
  submitted : ∀ id request, world.store.requests id = some request → request.status = .submitted →
    world.Vouched request
  failed : ∀ id request, world.store.requests id = some request → request.status = .failed →
    world.AllDead id

/-- What all but the worker may do. -/
structure World.Mild (before after : World) : Prop where
  harmless : before.Harmless after
  signed : before.signed ⊆ after.signed

/-- The request that a command lets fail. -/
def Command.fails? : Command → Option GoString
  | .perform (.recordFailed requestID _ _) => some requestID
  | _ => none

theorem Command.fails_of_neutral {c : Command} (neutral : c.neutral = true) : c.fails? = none := by
  cases c with
  | perform operation => cases operation <;> first | rfl | cases neutral
  | _ => rfl

section Records

variable [EthText] {s t : Store} {id : GoString} {request : Request} {world world' : World}

theorem World.Vouched.mild (vouched : world.Vouched request) (mild : world.Mild world') :
    world'.Vouched request := by
  obtain ⟨transaction, signed, rest⟩ := vouched
  exact ⟨transaction, mild.signed signed, rest⟩

/-- What an entry that is no submission writes is not submitted, and it has failed only if the
entry says so. -/
theorem Store.applyEntry_status {entry : Entry} (other : entry.type ≠ .txSubmitted)
    (known : (s.applyEntry entry).1.requests id = some request) :
    s.requests id = some request ∨ request.status ≠ .submitted ∧
      (request.status = .failed → entry.type = .txFailed ∧ id = entry.payload.get "requestId") := by
  refine ((s.applied entry).status.cases known).imp_right fun ⟨here, status⟩ => ?_
  constructor <;> intro same <;> rw [same] at status
  · cases kind : entry.type <;> rw [kind] at status <;> first | exact other kind | cases status
  · refine ⟨?_, here⟩
    cases kind : entry.type <;> rw [kind] at status <;> first | rfl | cases status

variable [Digest]

theorem Store.perform_status {operation : Operation} {fault : Option GoString}
    (other : operation.isSubmission = false)
    (known : (s.perform ⟨operation, fault⟩).1.requests id = some request) :
    s.requests id = some request ∨ request.status ≠ .submitted ∧
      (request.status = .failed → (Command.perform operation).fails? = some id) := by
  obtain alike | ⟨entry, error, drafted, -, journals, -⟩ :=
    perform_cases (s := s) ⟨operation, fault⟩
  · rw [alike.requests] at known
    exact .inl known
  · rw [journals.requests] at known
    have submits : (operation.draft s.profile).type ≠ .txSubmitted := by
      cases operation with
      | recordSubmitted => cases other
      | _ => exact nofun
    rw [← drafted] at submits
    refine (applyEntry_status submits known).imp_right fun ⟨unsubmitted, failed⟩ => ?_
    refine ⟨unsubmitted, fun status => ?_⟩
    obtain ⟨kind, rfl⟩ := failed status
    cases operation with
    | recordFailed =>
      rw [(Draft.mk.inj drafted).2.2]
      rfl
    | _ => exact absurd ((congrArg Draft.type drafted).symm.trans kind) nofun

/-- The errors of confirming a request that is known. -/
theorem Store.recordConfirmed_error {fault : Option GoString} {hash : Bytes32} {blockNumber : Nat}
    {at_ : Time} {error : StoreError} (known : s.requests id = some request)
    (failed : (s.recordConfirmed fault id hash blockNumber at_).2 = some error) :
    (∃ message, fault = some message ∧ error = .journal (.write message)) ∨
      (∃ year, error = .journal (.encode year)) ∨ error = .invalidBlockNumber := by
  simp only [recordConfirmed, transition] at failed
  split at failed
  next refused appended =>
      cases failed
      simp only [Journal.append, entryHash] at appended
      split_ifs at appended
      · cases fault with
        | none => cases appended
        | some message =>
          cases appended
          exact .inl ⟨message, rfl, rfl⟩
      · cases appended
        exact .inr (.inl ⟨_, rfl⟩)
  next entry journal appended =>
      obtain ⟨-, -, drafted⟩ := Journal.append_reopens appended
      obtain ⟨kind, -, payload⟩ := Draft.mk.inj drafted
      have named : entry.payload.get "requestId" = id := by
        rw [payload]
        rfl
      simp only [applyEntry, kind, applyConfirmed, named, known] at failed
      split at failed
      · cases failed
      · cases failed
        exact .inr (.inr rfl)

end Records

/-! ## Steps of the others -/

namespace World

section Steps

variable [EthText] [EthText.Lawful] [Digest] {profile : Profile} {world world' : World}
variable {id : GoString}

/-- A quiet command keeps the records honest; a request may fail when nothing can land. -/
theorem Honest.quiet {c : Command} {choice : Choice} {response : Response c}
    (honest : world.Honest) (quiet : c.quiet = true)
    (fails : ∀ id, c.fails? = some id → world.AllDead id)
    (executed : execute c choice world = some (response, world')) :
    world'.Honest ∧ world.Mild world' := by
  have mild : world.Mild world' :=
    ⟨quiet_harmless quiet executed, (execute_effect executed).signed_subset⟩
  refine ⟨?_, mild⟩
  have old {id request} (known : world.store.requests id = some request) :
      (request.status = .submitted → world'.Vouched request) ∧
        (request.status = .failed → world'.AllDead id) :=
    ⟨fun status => (honest.submitted id request known status).mild mild,
      fun status => (honest.failed id request known status).harmless mild.harmless⟩
  by_cases store : ∃ operation, c = .perform operation
  · obtain ⟨operation, rfl⟩ := store
    obtain ⟨fault, -, -, rfl⟩ := perform_cases executed
    have other : operation.isSubmission = false := by simpa [Command.quiet] using quiet
    constructor
    · intro id request known status
      obtain before | ⟨unsubmitted, -⟩ := Store.perform_status other known
      · exact (old before).1 status
      · exact absurd status unsubmitted
    · intro id request known status
      obtain before | ⟨-, failed⟩ := Store.perform_status other known
      · exact (old before).2 status
      · exact (fails id (failed status)).harmless mild.harmless
  · have untouched := execute_untouched quiet (fun operation same => store ⟨operation, same⟩)
      executed
    constructor
    · intro id request known
      rw [untouched.store] at known
      exact (old known).1
    · intro id request known
      rw [untouched.store] at known
      exact (old known).2

omit [EthText.Lawful] [Digest] in
/-- Nothing was sent for a request that is still queued. -/
theorem Accounted.unsent (accounted : world.Accounted profile) (queued : world.store.Queued id) :
    world.AllDead id := by
  intro transaction sent
  obtain ⟨request, known, status⟩ := queued
  obtain ⟨request', known', recorded, -⟩ := accounted.covered id transaction sent
  cases known.symm.trans known'
  exact absurd status recorded.1

omit [EthText.Lawful] [Digest] in
/-- A submission that has landed without success leaves nothing that could land. -/
theorem Accounted.reverted {slot : Address × Nat} {transaction : Transaction} {receipt : Receipt}
    (accounted : world.Accounted profile) (signatures : world.Signatures)
    (records : world.Records id slot) (signed : transaction ∈ world.signed)
    (slots : transaction.slot = slot) (landed : receipt ∈ world.chain.landed)
    (hash : receipt.transaction.hash = transaction.hash) (failed : receipt.successful = false) :
    world.AllDead id := by
  have same : receipt.transaction = transaction :=
    signatures.unique _ (signatures.landed receipt landed) _ signed hash
  intro other sent
  obtain ⟨request, known, -, here⟩ := records
  obtain ⟨request', known', -, dead | there⟩ := accounted.covered id other sent
  · exact dead
  · cases known.symm.trans known'
    have shared : other.slot = receipt.transaction.slot := by rw [there, here, same, slots]
    obtain ⟨sender, nonce⟩ := Prod.mk.inj shared
    refine ⟨?_, ?_⟩
    · rw [sender, nonce]
      exact accounted.chain.used receipt landed
    · rintro ⟨second, landed', rfl, success⟩
      -- Only one transaction of the slot has landed.
      rw [accounted.chain.eq_of_slot landed' landed shared, failed] at success
      cases success

end Steps

end World

end Torium.Faucet
