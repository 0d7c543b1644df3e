import Torium.Faucet.Conduct
import Torium.Faucet.Payments

/-!
# Who signed a submission

A submission is journaled with a signer and a nonce. The key that signs can be rotated at
any time, so the signer that `fundOnce` or `replaceSubmission` has read need not be the
one that signs. `fundOnce` compares the two; `replaceSubmission` does not.

The tokens of the protocol are transactions that were signed. Only these are handed to the
node, so a hash on the chain identifies its transaction.
-/

namespace Torium.Faucet

open Evm Concurrent Attempt

/-- Hashes identify transactions, and the chain only has transactions that were signed. -/
structure World.Signatures (world : World) : Prop where
  unique : ∀ first ∈ world.signed, ∀ second ∈ world.signed, first.hash = second.hash →
    first = second
  pool : ∀ transaction ∈ world.chain.pool, transaction ∈ world.signed
  landed : ∀ receipt ∈ world.chain.landed, receipt.transaction ∈ world.signed

theorem World.Signatures.lands {world : World} {step : ChainStep} {chain : Chain}
    (signatures : world.Signatures) (taken : world.chain.step step = some chain) :
    Signatures { world with chain } := by
  obtain ⟨account, rfl⟩ | ⟨receipt, pooled, -, rfl⟩ := Chain.step_cases taken
  · exact ⟨signatures.unique, signatures.pool, signatures.landed⟩
  · refine ⟨signatures.unique, signatures.pool, fun other member => ?_⟩
    obtain old | new := List.mem_append.mp member
    · exact signatures.landed other old
    · rw [List.mem_singleton.mp new]
      exact signatures.pool _ pooled

section Attribution

variable [EthText]

/-- The entry names a transaction, its sender and its nonce. -/
def Entry.Names (entry : Entry) (transaction : Transaction) : Prop :=
  entry.payload.get "transactionHash" = hashHex transaction.hash ∧
    entry.payload.get "signerAddress" = addressHex transaction.sender ∧
    entry.payload.get "nonce" = natText transaction.nonce

instance (entry : Entry) (transaction : Transaction) : Decidable (entry.Names transaction) :=
  inferInstanceAs (Decidable (_ ∧ _ ∧ _))

/-- Every submission in the journal names a transaction that was signed. -/
def World.Attributed (world : World) : Prop :=
  ∀ entry ∈ world.store.journal.entries, entry.type = .txSubmitted →
    ∃ transaction ∈ world.signed, entry.Names transaction

instance (world : World) : Decidable world.Attributed :=
  inferInstanceAs (Decidable (∀ entry ∈ _, _))

/-- The request whose replacement a command signs. -/
def Command.replaced? : Command → Option Request
  | .sign (.replace request) _ => some request
  | _ => none

/-- A replacement is signed by the key that the request records. -/
def Command.SignsAsRecorded (world : World) (c : Command) : Prop :=
  ∀ request ∈ c.replaced?, hexToAddress request.signerAddress = world.signer

instance (world : World) (c : Command) : Decidable (c.SignsAsRecorded world) :=
  inferInstanceAs (Decidable (∀ request ∈ c.replaced?, _))

/-- Replacements are signed by the recorded key. -/
def System.SignsAsRecorded (system : System) (label : Label) : Prop :=
  ∀ c ∈ system.stage.next? label, c.SignsAsRecorded system.world

instance (system : System) (label : Label) : Decidable (system.SignsAsRecorded label) :=
  inferInstanceAs (Decidable (∀ c ∈ system.stage.next? label, _))

variable {world world' : World}

theorem World.Attributed.mono (attributed : world.Attributed)
    (signed : world.signed ⊆ world'.signed)
    (journal : world'.store.journal.entries = world.store.journal.entries) :
    world'.Attributed := by
  intro entry member submitted
  rw [journal] at member
  obtain ⟨transaction, found, names⟩ := attributed entry member submitted
  exact ⟨transaction, signed found, names⟩

variable [Digest] {c : Command}

def attribution : Protocol (F := service) execute Transaction where
  invariant owned world := (∀ transaction ∈ owned, transaction ∈ world.signed) ∧
    world.Signatures ∧ world.Attributed
  permitted c _ world := c.SignsAsRecorded world
  drop := fun _ _ _ _ ⟨signed, kept⟩ =>
    ⟨fun transaction member => signed transaction (Multiset.mem_add.mpr (.inr member)), kept⟩

theorem World.Effect.signed_subset (effect : world.Effect c world') :
    world.signed ⊆ world'.signed := by
  cases effect with
  | signed => exact List.subset_append_left _ _
  | _ => exact List.Subset.refl _

theorem World.Effect.journal (effect : world.Effect c world')
    (other : ∀ operation, c ≠ .perform operation) :
    world'.store.journal.entries = world.store.journal.entries := by
  cases effect with
  | store => exact absurd rfl (other _)
  | _ => rfl

/-- Only transactions that were signed may be sent. -/
theorem World.Signatures.effect (signatures : world.Signatures) (effect : world.Effect c world')
    (sends : ∀ purpose transaction, c = .sendTransaction purpose transaction →
      transaction ∈ world.signed) : world'.Signatures := by
  cases effect with
  | signed fresh =>
    refine ⟨fun first here second there same => ?_, fun transaction member => ?_,
      fun receipt member => ?_⟩
    · obtain old | new := List.mem_append.mp here
      · obtain old' | new' := List.mem_append.mp there
        · exact signatures.unique first old second old' same
        · rw [List.mem_singleton.mp new'] at same ⊢
          exact fresh first old same
      · rw [List.mem_singleton.mp new] at same ⊢
        obtain old' | new' := List.mem_append.mp there
        · exact (fresh second old' same.symm).symm
        · exact (List.mem_singleton.mp new').symm
    · exact List.mem_append_left _ (signatures.pool transaction member)
    · exact List.mem_append_left _ (signatures.landed receipt member)
  | @sent purpose transaction reached =>
    refine ⟨signatures.unique, fun other member => ?_, signatures.landed⟩
    simp only [World.send] at member
    split_ifs at member
    · obtain old | new := List.mem_append.mp member
      · exact signatures.pool other old
      · rw [List.mem_singleton.mp new]
        exact sends purpose transaction rfl
    · exact signatures.pool other member
  | _ => exact ⟨signatures.unique, signatures.pool, signatures.landed⟩

/-- One more operation: it attributes its entry if that is a submission. -/
theorem World.Attributed.perform {call : Call} (attributed : world.Attributed)
    (names : ∀ entry : Entry, entry.draft = call.operation.draft world.store.profile →
      entry.type = .txSubmitted → ∃ transaction ∈ world.signed, entry.Names transaction) :
    World.Attributed { world with store := (world.store.perform call).1 } := by
  obtain alike | ⟨entry, error, drafted, -, journals, -⟩ :=
    Store.perform_cases (s := world.store) call
  · refine attributed.mono (List.Subset.refl _) ?_
    exact congrArg Journal.entries alike.journal.symm
  · intro other member submitted
    change other ∈ (world.store.perform call).1.journal.entries at member
    rw [journals.entries, List.mem_append, List.mem_singleton] at member
    obtain old | rfl := member
    · exact attributed other old submitted
    · exact names other drafted submitted

/-! ## Programs -/

/-- Everything but to record or to send a submission may be done without a token. -/
theorem attribution_respects (plain : c.plain = true) : Respects attribution c := by
  intro owned world choice response world' ⟨signed, signatures, attributed⟩ _ executed
  have effect := execute_effect executed
  obtain ⟨quiet, silent⟩ := Bool.and_eq_true_iff.mp plain
  refine ⟨trivial, fun transaction member => effect.signed_subset (signed transaction member),
    signatures.effect effect ?_, ?_⟩
  · rintro purpose transaction rfl
    cases silent
  · by_cases performs : ∃ operation, c = .perform operation
    · obtain ⟨operation, rfl⟩ := performs
      cases effect with
      | nothing | breakers => exact attributed
      | store fresh =>
        refine attributed.perform fun entry drafted submitted => ?_
        cases operation with
        | recordSubmitted => cases quiet
        | _ => exact absurd ((congrArg Draft.type drafted).symm.trans submitted) nofun
    · refine attributed.mono effect.signed_subset (effect.journal fun operation same => ?_)
      exact performs ⟨operation, same⟩

/-- A program of plain commands needs no token. -/
theorem IsPlain.attribution {α : Type} {program : Program service α}
    {owned : Multiset Transaction} {post : α → Multiset Transaction → Prop}
    (plain : IsPlain program) (holds : ∀ value, post value owned) :
    Follows Faucet.attribution program post owned :=
  .respects trivial (Program.Only.mono (fun _ => attribution_respects) plain) holds

/-- A signature gives a token. -/
theorem sign_attribution {context : String} {purpose : Purpose} {unsigned : UnsignedTransaction} :
    FollowsAttempt attribution (rpc context (call (.sign purpose unsigned)))
      (fun result owned => owned = {result.1} ∧ result.1.slot = (result.2, unsigned.nonce) ∧
        ∀ request, purpose = .replace request → hexToAddress request.signerAddress = result.2)
      (fun _ _ => True) 0 := by
  refine follows_rpc (.command trivial ?_)
  intro others world choice response world' ⟨signed, signatures, attributed⟩ recorded executed
  have effect := execute_effect (c := .sign purpose unsigned) executed
  have kept : world'.Signatures ∧ world'.Attributed :=
    ⟨signatures.effect effect (fun _ _ same => nomatch same),
      attributed.mono effect.signed_subset (effect.journal fun _ same => nomatch same)⟩
  have others' : ∀ transaction ∈ others, transaction ∈ world'.signed := fun transaction member =>
    effect.signed_subset (signed transaction (Multiset.mem_add.mpr (.inr member)))
  cases response with
  | error error =>
    refine ⟨trivial, 0, ⟨?_, kept⟩, trivial⟩
    rwa [zero_add]
  | ok result =>
    obtain ⟨transaction, signedBy⟩ := result
    obtain ⟨member, key, slot⟩ := World.sign_signed executed
    refine ⟨trivial, {transaction}, ⟨?_, kept⟩, rfl, slot, ?_⟩
    · intro other found
      obtain here | there := Multiset.mem_add.mp found
      · rw [Multiset.mem_singleton.mp here]
        exact member
      · exact others' other there
    · rintro request rfl
      exact (recorded request rfl).trans key.symm

/-- A transaction that was signed may be recorded, with its sender and its nonce. -/
theorem record_attribution {context : String} {requestID : GoString} {transaction : Transaction}
    {signer : Address} {nonce : Nat} (slot : transaction.slot = (signer, nonce)) :
    FollowsAttempt attribution
      (record context (.recordSubmitted requestID transaction.hash nonce signer))
      (fun _ owned => owned = {transaction}) (fun _ _ => True) {transaction} := by
  obtain ⟨rfl, rfl⟩ := Prod.mk.inj slot
  refine follows_record trivial (attribution_respects rfl) fun time => .command trivial ?_
  intro others world choice outcome world' ⟨signed, signatures, attributed⟩ _ executed
  have effect := execute_effect executed
  have token : transaction ∈ world.signed :=
    signed transaction (Multiset.mem_add.mpr (.inl (Multiset.mem_singleton_self _)))
  refine ⟨trivial, {transaction}, ⟨fun other member => ?_,
    signatures.effect effect (fun _ _ same => nomatch same), ?_⟩, by cases outcome <;> trivial⟩
  · exact effect.signed_subset (signed other member)
  · cases effect with
    | nothing | breakers => exact attributed
    | store fresh =>
      refine attributed.perform fun entry drafted _ => ⟨transaction, token, ?_⟩
      obtain ⟨-, -, same⟩ := Draft.mk.inj drafted
      rw [Entry.Names, same]
      exact ⟨rfl, rfl, rfl⟩

/-- A transaction that was signed may be sent. -/
theorem broadcast_attribution {purpose : Purpose} {transaction : Transaction}
    {context : GoError → String} :
    FollowsAttempt attribution (broadcast purpose transaction context) (fun _ _ => True)
      (fun _ _ => True) {transaction} := by
  have sent : Follows attribution (call (.sendTransaction purpose transaction)) (fun _ _ => True)
      {transaction} := by
    refine .command trivial fun {others world choice error world'} holds _ executed => ?_
    obtain ⟨signed, signatures, attributed⟩ := holds
    have effect := execute_effect (c := .sendTransaction purpose transaction) executed
    refine ⟨trivial, {transaction}, ⟨fun other member => ?_, signatures.effect effect ?_,
      attributed.mono effect.signed_subset (effect.journal fun _ same => nomatch same)⟩, trivial⟩
    · exact effect.signed_subset (signed other member)
    · rintro _ _ ⟨⟩
      exact signed transaction (Multiset.mem_add.mpr (.inl (Multiset.mem_singleton_self _)))
  refine .bind (.lift (sent.mono fun answer owned _ => ?_))
  cases answer <;> exact .done trivial

/-- A step that needs no token, before the rest of a program. -/
theorem plain_attribution {α β : Type} {first : Attempt α} {next : α → Attempt β}
    {owned : Multiset Transaction} (plain : IsPlain first.run) (rest : ∀ value,
      FollowsAttempt attribution (next value) (fun _ _ => True) (fun _ _ => True) owned) :
    FollowsAttempt attribution (first >>= next) (fun _ _ => True) (fun _ _ => True) owned := by
  refine .bind (plain.attribution fun result => ?_)
  cases result with
  | ok value => exact rest value
  | error error => trivial

variable {profile : Profile}

/-- The signer that was read is compared with the one that has signed. -/
theorem fundOnce_attribution (requestID : GoString) :
    FollowsAttempt attribution (fundOnce profile requestID) (fun _ _ => True)
      (fun _ _ => True) 0 := by
  refine plain_attribution (only_ask rfl) fun found => ?_
  refine plain_attribution only_must fun request => ?_
  refine plain_attribution only_must fun amount => ?_
  refine plain_attribution (only_rpc (only_call rfl)) fun chainID => ?_
  refine plain_attribution only_require fun _ => ?_
  refine plain_attribution (only_ask rfl) fun signerAddress => ?_
  refine plain_attribution (only_rpc (only_call rfl)) fun nonce => ?_
  refine plain_attribution (only_rpc (only_call rfl)) fun baseFee => ?_
  refine plain_attribution idle_suggestedTip.inert.plain fun tip => ?_
  refine .andThen sign_attribution ?_
  rintro ⟨signed, signedBy⟩ _ ⟨rfl, slot, -⟩
  refine .bind (follows_require (fun same => ?_) trivial)
  subst same
  refine .andThen (record_attribution slot) ?_
  rintro _ _ rfl
  refine .andThen broadcast_attribution fun _ owned _ => ?_
  refine plain_attribution idle_waitForReceipt.inert.plain fun receipt => ?_
  refine plain_attribution only_require fun _ => ?_
  refine IsPlain.attribution (only_record rfl fun _ => rfl) fun result => ?_
  cases result <;> trivial

/-- The recorded signer is the one that signs, if the signature is permitted. -/
theorem replaceSubmission_attribution (request : Request) (bump : Int) :
    FollowsAttempt attribution (replaceSubmission profile request bump) (fun _ _ => True)
      (fun _ _ => True) 0 := by
  refine plain_attribution only_must fun amount => ?_
  refine plain_attribution (only_rpc (only_call rfl)) fun chainID => ?_
  refine plain_attribution only_require fun _ => ?_
  refine plain_attribution (only_ask rfl) fun signerAddress => ?_
  refine plain_attribution only_require fun _ => ?_
  refine plain_attribution (only_rpc (only_call rfl)) fun baseFee => ?_
  refine plain_attribution idle_suggestedTip.inert.plain fun tip => ?_
  refine .andThen sign_attribution ?_
  rintro ⟨signed, signedBy⟩ _ ⟨rfl, slot, recorded⟩
  have same : signedBy = hexToAddress request.signerAddress := (recorded request rfl).symm
  subst same
  refine .andThen (record_attribution slot) ?_
  rintro _ _ rfl
  exact broadcast_attribution

theorem drain_attribution (reserve : Address) :
    FollowsAttempt attribution (drain profile reserve) (fun _ _ => True) (fun _ _ => True) 0 := by
  refine plain_attribution (only_ask rfl) fun paused => ?_
  refine plain_attribution only_require fun _ => ?_
  refine plain_attribution (only_rpc (only_call rfl)) fun chainID => ?_
  refine plain_attribution only_require fun _ => ?_
  refine plain_attribution (only_ask rfl) fun signerAddress => ?_
  refine plain_attribution (only_rpc (only_call rfl)) fun balance => ?_
  refine plain_attribution (only_rpc (only_call rfl)) fun nonce => ?_
  refine plain_attribution (only_rpc (only_call rfl)) fun baseFee => ?_
  refine plain_attribution idle_suggestedTip.inert.plain fun tip => ?_
  refine plain_attribution only_require fun _ => ?_
  refine .andThen sign_attribution ?_
  rintro ⟨signed, signedBy⟩ _ ⟨rfl, -⟩
  refine .andThen broadcast_attribution fun _ owned _ => ?_
  refine plain_attribution idle_waitForReceipt.inert.plain fun receipt => ?_
  exact plain_attribution only_require fun _ => .done trivial

theorem handler_attribution (request : ClientRequest) :
    Follows attribution (request.handler profile) (fun _ _ => True) 0 := by
  cases request with
  | fund idempotencyKey recipient =>
    exact (discreet_handleFund idempotencyKey recipient).plain.attribution fun _ => trivial
  | drain reserve =>
    refine .bind ((drain_attribution reserve).mono fun result owned _ => ?_)
    cases result <;> exact .done trivial
  | pause | resume | rotate =>
    exact (inert_handler profile ⟨fun _ _ => by simp, fun _ => by simp⟩).plain.attribution
      fun _ => trivial

theorem drives_attribution : Drives attribution profile fun _ => 0 where
  inert inert := attribution_respects (Command.plain_of_inert inert)
  dequeue := IsPlain.attribution (only_call rfl) fun _ _ _ => rfl
  get _ := IsPlain.attribution (only_call rfl) fun _ => ⟨rfl, fun _ _ => rfl⟩
  settle request := by
    refine (plain_settleSubmission request).attribution fun result => ?_
    cases result with
    | ok outcome => exact fun _ => rfl
    | error error => rfl
  replace request bump := by
    refine (Follows.release trivial ((replaceSubmission_attribution request bump).mono
      fun _ _ _ => trivial)).mono fun result owned released => ?_
    cases result <;> exact released
  fund requestID := by
    refine (Follows.release trivial ((fundOnce_attribution requestID).mono
      fun _ _ _ => trivial)).mono fun result owned released => ?_
    cases result <;> [exact released; trivial]
  fail _ _ _ := IsPlain.attribution (only_call rfl) fun _ => trivial

theorem conduct_attribution (profile : Profile) :
    Conduct (.uniform attribution) profile (WorkerState.hands 0 fun _ => 0) where
  boots := by
    rintro world key system ⟨signed, signatures, attributed⟩ taken
    obtain ⟨store, opened, -, rfl⟩ := boot_cases taken
    refine ⟨0, ⟨signed, ⟨signatures.unique, signatures.pool, signatures.landed⟩,
      attributed.mono (List.Subset.refl _) ?_⟩, _, rfl,
      discreet_reconcile.plain.attribution fun _ => trivial⟩
    change store.journal.entries = _
    rw [Store.replay_journal opened, openJournal_entries]
  ready := by
    rintro owned world ⟨-, kept⟩
    exact ⟨fun _ member => absurd member (Multiset.notMem_zero _), kept⟩
  stops role _ _ holds := by
    cases role <;>
      exact ⟨holds.1, ⟨holds.2.1.unique, holds.2.1.pool, holds.2.1.landed⟩, holds.2.2⟩
  lands role _ _ _ _ holds taken := by
    cases role <;> exact ⟨holds.1, holds.2.1.lands taken, holds.2.2⟩
  waiting := rfl
  worker := (drives_attribution.tends trivial).workerTurn
  probe probed := (idle_probeOnce profile probed).inert.plain.attribution fun _ => trivial
  handler := handler_attribution

theorem run_attribution {start system : System} {labels : List Label}
    (initial : start.Initial profile)
    (run : Transition.Run (System.step profile) System.SignsAsRecorded labels start system) :
    system.world.Signatures ∧ system.world.Attributed := by
  have starts : start.Follows (.uniform attribution) (WorkerState.hands 0 fun _ => 0) := by
    obtain ⟨signer, nonces, height, rfl⟩ := initial
    exact ⟨fun _ member => absurd member (Multiset.notMem_zero _), ⟨nofun, nofun, nofun⟩, nofun⟩
  have follows := run.invariant starts fun {_ label _} follows recorded taken =>
    ((conduct_attribution profile).step follows (fun c next => by
      cases label <;> exact recorded c next) taken).1
  exact ((conduct_attribution profile).dropped follows).2

/-- In every run in which replacements are signed by the recorded key, every submission in
the journal names the key that has signed it, and its nonce. -/
theorem submissions_attributed {start system : System} {labels : List Label}
    (initial : start.Initial profile)
    (run : Transition.Run (System.step profile) System.SignsAsRecorded labels start system) :
    system.world.Attributed :=
  (run_attribution initial run).2

end Attribution

namespace Demo

/-- The signer is rotated. -/
def rotating (index : Nat) (newAddress : Address) : List Label :=
  .open_ (.rotate newAddress) :: List.map (.handler index) [.ok, .ok, .ok]

/-- The signer is rotated after `replaceSubmission` has compared it with the recorded one
and before the replacement is signed. -/
def replacedByOther : List Label :=
  sentWithTimeout ++ worker [.ok, .ok, .clock noon, .ok, .ok] ++ goingRound ++
    worker [.ok, .ok, .clock (noon + 60 * second), .answer 7777, .ok] ++ rotating 1 48 ++
    worker [.answer 7, .answer 1, .hash 2, .clock noon, .ok]

end Demo

theorem replacement_misattributed :
    Demo.system.Initial Demo.profile ∧ ∃ system,
      @Transition.Run _ _ (@System.step lowerHex Digest.numbered Demo.profile) Transition.Free
        Demo.replacedByOther Demo.system system ∧ ¬ @World.Attributed lowerHex system.world := by
  refine ⟨⟨32, _, _, rfl⟩, ?_⟩
  obtain ⟨system, run, wrong⟩ := Transition.run_of_execute_any
    (show (Transition.execute (@System.step lowerHex Digest.numbered Demo.profile)
      Demo.replacedByOther Demo.system).any
        (fun system => ¬ @World.Attributed lowerHex system.world) by decide +kernel)
  exact ⟨system, run, of_decide_eq_true wrong⟩

theorem submissions_attributed_demo :
    ∃ system, @Transition.Run _ _ (@System.step lowerHex Digest.numbered Demo.profile)
        (@System.SignsAsRecorded lowerHex) Demo.replaced Demo.system system ∧
      system.world.signed.length = 2 ∧ @World.Attributed lowerHex system.world := by
  obtain ⟨system, run, signed⟩ := Transition.run_of_execute_any
    (show (Transition.execute
      (@Transition.restrict _ _ (@System.step lowerHex Digest.numbered Demo.profile)
        (@System.SignsAsRecorded lowerHex) fun _ _ => inferInstance)
      Demo.replaced Demo.system).any (fun system => system.world.signed.length = 2) by
        decide +kernel)
  refine ⟨system, run.of_restrict, of_decide_eq_true signed, ?_⟩
  exact @submissions_attributed lowerHex Digest.numbered _ _ _ _ ⟨32, _, _, rfl⟩ run.of_restrict

end Torium.Faucet
