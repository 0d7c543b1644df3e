import Torium.LocalFaucet.Quota

/-!
# Payments and records

A funding is recorded when its receipt has been read. If the handler gives up between the
broadcast and the receipt, or if the answer to the broadcast is lost, the transaction is left to
the chain, which may include it at any later time, and nothing is recorded.

As long as no handler leaves a transaction behind like this, every payment has a record of its
own. And whenever one does, the chain can make a payment of it that is not counted.
-/

namespace Torium.LocalFaucet

open Evm Faucet SlidingWindow Transition

variable {policy : Policy} {expectedChainID : Int} {s t : State} {label : Label}
  {labels : List Label} {index : Nat} {status : Status} {transaction : Transaction}

/-- Every payment has a record with its recipient and its amount, or the handler that made it
still holds the lock and waits for the receipt. -/
def Counted (s : State) : Prop :=
  ∀ index transaction, s.chain[index]? = some (transaction, .succeeded) →
    (∃ recorded ∈ s.recorded, recorded.transaction = index ∧
      recorded.recipient = transaction.recipient ∧
      recorded.record.amount = transaction.value) ∨
    ∃ handler, s.handler = some handler ∧ handler.phase = .receipt index

/-- The handler leaves a transaction behind that the node has accepted and that has not failed. -/
def State.abandons (s : State) : Label → Bool
  | .sentUnanswered => true
  | .failed =>
    match s.handler with
    | some ⟨_, _, _, .receipt index⟩ =>
      match s.chain[index]? with
      | some (_, .failed) => false
      | _ => true
    | _ => false
  | _ => false

/-! ## Records belong to transactions -/

/-- What a record and a waiting handler say about the chain. -/
structure Linked (s : State) : Prop where
  builds : ∀ handler transaction, s.handler = some handler → handler.phase = .send transaction →
    transaction.recipient = handler.recipient ∧ transaction.value = handler.amount
  waits : ∀ handler index, s.handler = some handler → handler.phase = .receipt index →
    (∃ transaction status, s.chain[index]? = some (transaction, status) ∧
      transaction.recipient = handler.recipient ∧ transaction.value = handler.amount) ∧
    ∀ recorded ∈ s.recorded, recorded.transaction ≠ index
  known : ∀ recorded ∈ s.recorded, recorded.transaction < s.chain.length

theorem linked_initial : Linked .initial := by
  refine ⟨fun _ _ absent => ?_, fun _ _ absent => ?_, fun _ absent => ?_⟩
  · cases absent
  · cases absent
  · cases absent

/-- A handler that is gone owes nothing. -/
theorem Linked.of_idle (idle : t.handler = none)
    (known : ∀ recorded ∈ t.recorded, recorded.transaction < t.chain.length) : Linked t := by
  refine ⟨fun _ _ active => ?_, fun _ _ active => ?_, known⟩
  · rw [idle] at active
    cases active
  · rw [idle] at active
    cases active

theorem check_chain {recipient : Address} {amount : Int} {now : Time} :
    (s.check policy recipient amount now).chain = s.chain := by
  simp only [State.check]
  split <;> rfl

/-- Including a transaction changes no other transaction, and only the status of this one. -/
theorem settle_getElem? {other : Nat} {sent : Transaction} {before : Status}
    (found : s.chain[index]? = some (transaction, before))
    (there : s.chain[other]? = some (sent, status)) (succeeded : Bool) :
    ∃ status', (s.settle index transaction succeeded).chain[other]? = some (sent, status') := by
  simp only [State.settle]
  by_cases here : index = other
  · subst here
    obtain ⟨rfl, -⟩ := Prod.mk.inj (Option.some.inj (found.symm.trans there))
    rw [List.getElem?_set_self (List.getElem?_eq_some_iff.mp found).1]
    exact ⟨_, rfl⟩
  · rw [List.getElem?_set_ne here]
    exact ⟨status, there⟩

theorem Linked.step (linked : Linked s) (taken : step policy expectedChainID s label = some t) :
    Linked t := by
  have later {chain : List (Transaction × Status)} (longer : s.chain.length ≤ chain.length) :
      ∀ recorded ∈ s.recorded, recorded.transaction < chain.length :=
    fun recorded present => (linked.known recorded present).trans_le longer
  cases effect_of_step taken with
  | checked recipient value now amount idle parsed result =>
    subst result
    refine ⟨fun handler transaction active sends => ?_, fun handler index active waits => ?_, ?_⟩
    · obtain ⟨rfl, -⟩ := check_handler idle active
      cases sends
    · obtain ⟨rfl, -⟩ := check_handler idle active
      cases waits
    · rw [check_recorded, check_chain]
      exact linked.known
  | awaits _ handler phase active builds unsent result =>
    subst result
    refine ⟨fun after transaction same sends => ?_, fun after index same waits => ?_,
      linked.known⟩
    · obtain rfl := Option.some.inj same
      exact builds transaction sends
    · obtain rfl := Option.some.inj same
      exact absurd waits (unsent index).1
  | sent handler transaction active ready result =>
    subst result
    refine ⟨fun after other same sends => ?_, fun after index same waits => ?_,
      later (by simp [State.accept, State.await])⟩
    · obtain rfl := Option.some.inj same
      cases sends
    · obtain rfl := Option.some.inj same
      obtain rfl := Phase.receipt.inj waits
      refine ⟨⟨transaction, .pending, ?_, linked.builds handler transaction active ready⟩, ?_⟩
      · exact List.getElem?_concat_length
      · exact fun recorded present => (linked.known recorded present).ne
  | unanswered handler transaction active ready result =>
    subst result
    exact .of_idle rfl (later (by simp [State.accept, State.release]))
  | released _ handler active reason result =>
    subst result
    exact .of_idle rfl linked.known
  | polled result =>
    subst result
    exact linked
  | recorded handler index transaction active waiting found result =>
    subst result
    refine .of_idle rfl fun recorded present => ?_
    obtain old | new := List.mem_append.mp present
    · exact linked.known recorded old
    · rw [List.mem_singleton] at new
      subst new
      exact (List.getElem?_eq_some_iff.mp found).1
  | included index succeeded transaction found result =>
    subst result
    refine ⟨linked.builds, fun handler other active waits => ?_, later (by simp [State.settle])⟩
    obtain ⟨⟨sent, status, there, same⟩, unrecorded⟩ := linked.waits handler other active waits
    refine ⟨?_, unrecorded⟩
    obtain ⟨status', there'⟩ := settle_getElem? found there succeeded
    exact ⟨sent, status', there', same⟩

theorem linked_of_run (run : Run (step policy expectedChainID) Free labels .initial s) :
    Linked s :=
  run.invariant linked_initial fun linked _ taken => linked.step taken

/-! ## Payments are counted -/

/-- Every transaction that has not failed has a record or a handler that waits for it. -/
def Covered (s : State) : Prop :=
  ∀ index transaction status, s.chain[index]? = some (transaction, status) → status ≠ .failed →
    (∃ recorded ∈ s.recorded, recorded.transaction = index ∧
      recorded.recipient = transaction.recipient ∧
      recorded.record.amount = transaction.value) ∨
    ∃ handler, s.handler = some handler ∧ handler.phase = .receipt index

theorem Covered.counted (covered : Covered s) : Counted s :=
  fun index transaction found => covered index transaction .succeeded found Status.noConfusion

/-- A handler that does not wait for a receipt is not needed. -/
theorem Covered.of_recorded (covered : Covered s)
    (busy : ∀ handler index, s.handler = some handler → handler.phase ≠ .receipt index)
    (recorded : t.recorded = s.recorded) (chain : t.chain = s.chain) : Covered t := by
  intro index transaction status found alive
  rw [chain] at found
  obtain counted | ⟨handler, active, waits⟩ := covered index transaction status found alive
  · exact .inl (recorded ▸ counted)
  · exact absurd waits (busy handler index active)

theorem getElem?_accept {other : Transaction}
    (found : (s.accept transaction).chain[index]? = some (other, status)) :
    s.chain[index]? = some (other, status) ∨ index = s.chain.length ∧ other = transaction := by
  simp only [State.accept, List.getElem?_append, List.getElem?_singleton] at found
  split_ifs at found with old new
  · exact .inl found
  · obtain ⟨rfl, -⟩ := Prod.mk.inj (Option.some.inj found)
    exact .inr ⟨by omega, rfl⟩

theorem getElem?_settle {other : Nat} {sent : Transaction} {before : Status} {succeeded : Bool}
    (found : s.chain[index]? = some (transaction, before))
    (there : (s.settle index transaction succeeded).chain[other]? = some (sent, status)) :
    s.chain[other]? = some (sent, status) ∨ other = index ∧ sent = transaction := by
  simp only [State.settle] at there
  by_cases here : index = other
  · subst here
    rw [List.getElem?_set_self (List.getElem?_eq_some_iff.mp found).1] at there
    exact .inr ⟨rfl, (Prod.mk.inj (Option.some.inj there)).1.symm⟩
  · rw [List.getElem?_set_ne here] at there
    exact .inl there

theorem failed_of_not_abandons {handler : Handler} (holds : s.abandons .failed = false)
    (active : s.handler = some handler) (waits : handler.phase = .receipt index) :
    ∃ transaction, s.chain[index]? = some (transaction, .failed) := by
  obtain ⟨recipient, amount, now, phase⟩ := handler
  obtain rfl : phase = .receipt index := waits
  simp only [State.abandons, active] at holds
  split at holds
  · rename_i transaction found
    exact ⟨transaction, found⟩
  · cases holds

theorem Covered.step (linked : Linked s) (covered : Covered s)
    (holds : s.abandons label = false)
    (taken : step policy expectedChainID s label = some t) : Covered t := by
  cases effect_of_step taken with
  | checked recipient value now amount idle parsed result =>
    subst result
    refine covered.of_recorded (fun handler index active => ?_) check_recorded check_chain
    rw [idle] at active
    cases active
  | awaits _ handler phase active builds unsent result =>
    subst result
    refine covered.of_recorded (fun other index same => ?_) rfl rfl
    obtain rfl := Option.some.inj (active.symm.trans same)
    exact (unsent index).2
  | sent handler transaction active ready result =>
    subst result
    intro index other status found alive
    obtain old | ⟨rfl, -⟩ := getElem?_accept found
    · obtain counted | ⟨before, same, waits⟩ := covered index other status old alive
      · exact .inl counted
      · obtain rfl := Option.some.inj (active.symm.trans same)
        cases ready.symm.trans waits
    · exact .inr ⟨_, rfl, rfl⟩
  | unanswered handler transaction active ready result => cases holds
  | released _ handler active reason result =>
    subst result
    intro index transaction status found alive
    obtain counted | ⟨before, same, waits⟩ := covered index transaction status found alive
    · exact .inl counted
    · obtain rfl := Option.some.inj (active.symm.trans same)
      have dead : ∃ transaction, s.chain[index]? = some (transaction, .failed) := by
        obtain rfl | reason := reason
        · exact failed_of_not_abandons holds active waits
        · exact reason index waits
      obtain ⟨_, dead⟩ := dead
      exact absurd (Prod.mk.inj (Option.some.inj (found.symm.trans dead))).2 alive
  | polled result =>
    subst result
    exact covered
  | recorded handler index transaction active waiting found result =>
    subst result
    intro other sent status there alive
    refine .inl ?_
    obtain ⟨recorded, present, same⟩ | ⟨before, same, waits⟩ :=
      covered other sent status there alive
    · exact ⟨recorded, List.mem_append_left _ present, same⟩
    · obtain rfl := Option.some.inj (active.symm.trans same)
      obtain rfl := Phase.receipt.inj (waiting.symm.trans waits)
      obtain ⟨⟨_, _, there', recipient, amount⟩, -⟩ := linked.waits handler index active waiting
      obtain ⟨rfl, -⟩ := Prod.mk.inj (Option.some.inj (there.symm.trans there'))
      exact ⟨_, List.mem_append_right _ List.mem_cons_self, rfl, recipient.symm, amount.symm⟩
  | included index succeeded transaction found result =>
    subst result
    intro other sent status there alive
    obtain same | ⟨rfl, rfl⟩ := getElem?_settle found there
    · exact covered other sent status same alive
    · exact covered other sent .pending found Status.noConfusion

theorem covered_of_run (run : Run (step policy expectedChainID)
    (fun s label => s.abandons label = false) labels .initial s) : Covered s := by
  have start : Linked State.initial ∧ Covered State.initial :=
    ⟨linked_initial, fun _ _ _ absent => by cases absent⟩
  refine (run.invariant (I := fun s => Linked s ∧ Covered s) start ?_).2
  intro s label t both holds taken
  exact ⟨both.1.step taken, both.2.step both.1 holds taken⟩

/-! ## Transactions that are left behind -/

/-- A pending or successful transaction without a record and without a handler. -/
theorem not_counted_later (found : s.chain[index]? = some (transaction, status))
    (alive : status ≠ .failed) (unrecorded : ∀ recorded ∈ s.recorded, recorded.transaction ≠ index)
    (idle : s.handler = none) :
    ∃ labels' t, Run (step policy expectedChainID) Free labels' s t ∧ ¬Counted t := by
  have uncounted {t : State} (paid : t.chain[index]? = some (transaction, .succeeded))
      (recorded : t.recorded = s.recorded) (handler : t.handler = s.handler) : ¬Counted t := by
    intro counted
    obtain ⟨record, present, same, -⟩ | ⟨active, there, -⟩ := counted index transaction paid
    · exact unrecorded record (recorded ▸ present) same
    · rw [handler, idle] at there
      cases there
  cases status with
  | failed => exact absurd rfl alive
  | succeeded => exact ⟨[], s, .refl s, uncounted found rfl rfl⟩
  | pending =>
    refine ⟨[.included index true], s.settle index transaction true, .single trivial ?_,
      uncounted ?_ rfl rfl⟩
    · simp only [step, found]
    · exact List.getElem?_set_self (List.getElem?_eq_some_iff.mp found).1

theorem waits_of_abandons (left : s.abandons .failed = true) :
    ∃ index handler, s.handler = some handler ∧ handler.phase = .receipt index ∧
      ∀ transaction, s.chain[index]? ≠ some (transaction, .failed) := by
  simp only [State.abandons] at left
  split at left
  · rename_i recipient amount now index active
    refine ⟨index, _, active, rfl, fun transaction dead => ?_⟩
    rw [dead] at left
    cases left
  · cases left

theorem not_counted_of_abandons (linked : Linked s) (left : s.abandons label = true)
    (taken : step policy expectedChainID s label = some t) :
    ∃ labels' t', Run (step policy expectedChainID) Free labels' t t' ∧ ¬Counted t' := by
  cases label with
  | sentUnanswered =>
    obtain ⟨handler, active, answered⟩ := Option.bind_eq_some_iff.mp taken
    simp only [State.answer] at answered
    split at answered
    · rename_i transaction ready
      obtain rfl := Option.some.inj answered
      have accepted : (s.accept transaction).release.chain[s.chain.length]? =
          some (transaction, .pending) := List.getElem?_concat_length
      exact not_counted_later accepted Status.noConfusion
        (fun recorded present => (linked.known recorded present).ne) rfl
    · cases answered
  | failed =>
    obtain ⟨index, handler, active, waits, alive⟩ := waits_of_abandons left
    obtain ⟨⟨transaction, status, found, -⟩, unrecorded⟩ :=
      linked.waits handler index active waits
    obtain ⟨other, same, answered⟩ := Option.bind_eq_some_iff.mp taken
    obtain rfl := Option.some.inj (active.symm.trans same)
    simp only [State.answer, waits] at answered
    obtain rfl := Option.some.inj answered
    have left : s.release.chain[index]? = some (transaction, status) := found
    exact not_counted_later left (fun dead => alive transaction (dead ▸ found)) unrecorded rfl
  | _ => cases left

/-- In every run in which no transaction is left behind, every payment is counted. And from every
step that leaves a transaction behind, a state can be reached in which a payment is not. -/
theorem payments_counted (policy : Policy) (expectedChainID : Int) :
    (∀ labels s, Run (step policy expectedChainID) (fun s label => s.abandons label = false)
      labels .initial s → Counted s) ∧
    ∀ labels s label t, Run (step policy expectedChainID) Free labels .initial s →
      step policy expectedChainID s label = some t → s.abandons label = true →
      ∃ labels' t', Run (step policy expectedChainID) Free labels' t t' ∧ ¬Counted t' :=
  ⟨fun _ _ run => (covered_of_run run).counted,
    fun _ _ _ _ run taken left => not_counted_of_abandons (linked_of_run run) left taken⟩

namespace Demo

/-- The client disconnects while the handler waits for the receipt. -/
def disconnect : List Label :=
  [.request 7 [] 0, .chainID chainID, .pendingNonce 0, .header (some 7), .tip none, .sent,
    .receiptNotFound, .failed, .included 0 true]

def unrecorded : Transaction where
  nonce := 0
  gasTipCap := defaultTip
  gasFeeCap := 7 * 2 + defaultTip
  recipient := 7
  value := defaultPolicy.defaultAmount

end Demo

/-- The transaction is included after the client has disconnected, and nothing is recorded. -/
theorem disconnect_leaves_payment_uncounted : ∃ s,
    Run (step defaultPolicy Demo.chainID) Free Demo.disconnect .initial s ∧
      s.chain = [(Demo.unrecorded, .succeeded)] ∧ s.recorded = [] ∧ s.handler = none ∧
      ¬Counted s := by
  obtain ⟨s, run, facts⟩ := run_of_execute_any
    (show (execute (step defaultPolicy Demo.chainID) Demo.disconnect .initial).any
      (fun s => s.chain = [(Demo.unrecorded, .succeeded)] ∧ s.recorded = [] ∧ s.handler = none)
      by decide +kernel)
  obtain ⟨chain, recorded, idle⟩ := of_decide_eq_true facts
  refine ⟨s, run, chain, recorded, idle, fun counted => ?_⟩
  have paid : s.chain[0]? = some (Demo.unrecorded, .succeeded) := by rw [chain]; rfl
  obtain ⟨record, present, -⟩ | ⟨handler, active, -⟩ := counted 0 Demo.unrecorded paid
  · rw [recorded] at present
    cases present
  · rw [idle] at active
    cases active

theorem payments_counted_demo : ∃ s,
    Run (step defaultPolicy Demo.chainID) (fun s label => s.abandons label = false)
      (Demo.funding 7 0 0) .initial s ∧ s.chain.length = 1 ∧ Counted s := by
  obtain ⟨s, run, facts⟩ := run_of_execute_any
    (show (execute (restrict (step defaultPolicy Demo.chainID)
        (fun s label => s.abandons label = false)) (Demo.funding 7 0 0) .initial).any
      (fun s => s.chain.length = 1) by decide +kernel)
  have kept := Run.of_restrict run
  exact ⟨s, kept, of_decide_eq_true facts, (payments_counted defaultPolicy Demo.chainID).1 _ s kept⟩

end Torium.LocalFaucet
