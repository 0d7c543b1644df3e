import Mathlib.Algebra.Order.Group.Abs
import Torium.LocalFaucet.Service

/-!
# Window quota and cooldown

What a check needs are the fundings of the window before its own reading of the clock. Another
check with a later reading may have dropped some of them, and if its funding then fails, nothing
in the list shows that they are missing.

As long as each check still finds what it needs, the fundings of an address are a cooldown apart
and keep to the quota in every window. If the readings of the clock never go back, each check
finds what it needs.
-/

namespace Torium.LocalFaucet

open Evm Faucet SlidingWindow Transition

variable {policy : Policy} {expectedChainID : Int} {s t : State} {label : Label}

/-! ## The limiter and what is recorded -/

/-- A step that neither checks nor records. A handler that is active has been active before. -/
structure State.Keeps (s t : State) : Prop where
  limiter : t.limiter = s.limiter
  recorded : t.recorded = s.recorded
  lastReading : t.lastReading = s.lastReading
  panicked : t.panicked = s.panicked
  handler : ∀ handler, t.handler = some handler → ∃ before, s.handler = some before ∧
    handler = { before with phase := handler.phase }

theorem State.Keeps.release {chain : List (Transaction × Status)} :
    s.Keeps { s with chain, handler := none } :=
  ⟨rfl, rfl, rfl, rfl, fun handler active => by cases active⟩

theorem State.Keeps.await {chain : List (Transaction × Status)} {handler : Handler} {phase : Phase}
    (active : s.handler = some handler) :
    s.Keeps { s with chain, handler := some { handler with phase } } := by
  refine ⟨rfl, rfl, rfl, rfl, fun after same => ⟨handler, active, ?_⟩⟩
  obtain rfl := Option.some.inj same
  rfl

theorem State.Keeps.chain {chain : List (Transaction × Status)} : s.Keeps { s with chain } :=
  ⟨rfl, rfl, rfl, rfl, fun handler active => ⟨handler, active, rfl⟩⟩

/-- Only a check and a receipt change the limiter. -/
theorem Effect.outline (effect : Effect policy s t label) :
    (∃ recipient value now amount, label = .request recipient value now ∧ s.handler = none ∧
      parseAmount policy value = .ok amount ∧ t = s.check policy recipient amount now) ∨
    (∃ handler index, s.handler = some handler ∧ t = s.record handler index) ∨ s.Keeps t := by
  cases effect with
  | checked recipient value now amount idle parsed result =>
    exact .inl ⟨recipient, value, now, amount, rfl, idle, parsed, result⟩
  | recorded handler index transaction active waiting found result =>
    exact .inr (.inl ⟨handler, index, active, result⟩)
  | awaits _ handler phase active builds unsent result =>
    exact .inr (.inr (result ▸ .await active))
  | sent handler transaction active ready result => exact .inr (.inr (result ▸ .await active))
  | unanswered handler transaction active ready result => exact .inr (.inr (result ▸ .release))
  | released _ handler active reason result => exact .inr (.inr (result ▸ .release))
  | polled result => exact .inr (.inr (result ▸ .chain))
  | included index succeeded transaction found result =>
    exact .inr (.inr (result ▸ .chain))

theorem State.Keeps.history (keeps : s.Keeps t) (address : Address) :
    t.history address = s.history address := by
  rw [State.history, keeps.recorded, ← State.history]

theorem history_record (handler : Handler) (index : Nat) (address : Address) :
    (s.record handler index).history address = s.history address ++
      if handler.recipient = address then [⟨handler.now, handler.amount⟩] else [] := by
  simp only [State.record, State.history, List.filter_append, List.map_append]
  by_cases same : handler.recipient = address <;> simp [same]

section Check

variable {recipient : Address} {amount : Int} {now : Time}

theorem check_limiter : (s.check policy recipient amount now).limiter =
    Function.update s.limiter recipient
      (recent policy.addressWindow now (s.limiter recipient)) := by
  simp only [State.check, checkLocked]
  split <;> rfl

theorem check_recorded : (s.check policy recipient amount now).recorded = s.recorded := by
  simp only [State.check]
  split <;> rfl

theorem check_lastReading : (s.check policy recipient amount now).lastReading = some now := by
  simp only [State.check]
  split <;> rfl

theorem check_history (address : Address) :
    (s.check policy recipient amount now).history address = s.history address := by
  rw [State.history, check_recorded, ← State.history]

/-- A handler that goes on has passed the check. -/
theorem check_handler {handler : Handler} (idle : s.handler = none)
    (active : (s.check policy recipient amount now).handler = some handler) :
    handler = ⟨recipient, amount, now, .chainID⟩ ∧
      checkKept policy (recent policy.addressWindow now (s.limiter recipient)) amount now =
        .passed := by
  simp only [State.check, checkLocked] at active
  split at active
  · rename_i passed
    exact ⟨(Option.some.inj active).symm, passed⟩
  · rw [idle] at active
    cases active
  · rw [idle] at active
    cases active

theorem check_panicked (fits : amount ≤ policy.maximumAmountPerWindow) :
    (s.check policy recipient amount now).panicked = s.panicked := by
  have possible : checkKept policy (recent policy.addressWindow now (s.limiter recipient)) amount
      now ≠ .indexOutOfRange := checkKept_ne_indexOutOfRange fits
  simp only [State.check, checkLocked]
  split
  · rfl
  · rfl
  · rename_i impossible
    exact absurd impossible possible

end Check

theorem not_panicked (valid : policy.Valid) {labels : List Label}
    (run : Run (step policy expectedChainID) Free labels .initial s) : s.panicked = false := by
  refine run.invariant (I := fun s => s.panicked = false) rfl ?_
  intro s label t fine _ taken
  obtain ⟨recipient, value, now, amount, -, -, parsed, rfl⟩ | ⟨handler, index, -, rfl⟩ | keeps :=
    (effect_of_step taken).outline
  · rw [check_panicked ((parseAmount_bounds valid parsed).2.trans valid.request_le), fine]
  · exact fine
  · rw [keeps.panicked, fine]

/-! ## Runs in which each check finds what it needs -/

/-- The list of the address still has all fundings of the window before the reading. -/
def Remembers (policy : Policy) (s : State) (label : Label) : Prop :=
  ∀ check ∈ label.reading?, recent policy.addressWindow check.2 (s.limiter check.1) =
    recent policy.addressWindow check.2 (s.history check.1)

instance (policy : Policy) (s : State) (label : Label) : Decidable (Remembers policy s label) :=
  inferInstanceAs (Decidable (∀ check ∈ label.reading?, _ = _))

/-- What is recorded keeps to the policy, and so does the funding in progress. -/
structure Kept (policy : Policy) (s : State) : Prop where
  paced : ∀ address, Paced policy.addressWindow policy.cooldown policy.maximumAmountPerWindow
    (s.history address)
  nonneg : ∀ address, ∀ record ∈ s.history address, 0 ≤ record.amount
  active : ∀ handler, s.handler = some handler → 0 ≤ handler.amount ∧
    checkKept policy (recent policy.addressWindow handler.now (s.history handler.recipient))
      handler.amount handler.now = .passed

theorem kept_initial : Kept policy .initial :=
  ⟨fun _ => .nil, fun _ _ absent => absurd absent List.not_mem_nil, fun _ absent => by cases absent⟩

theorem Kept.keeps (kept : Kept policy s) (keeps : s.Keeps t) : Kept policy t := by
  refine ⟨fun address => ?_, fun address => ?_, fun handler active => ?_⟩
  · rw [keeps.history]
    exact kept.paced address
  · rw [keeps.history]
    exact kept.nonneg address
  · obtain ⟨before, active, same⟩ := keeps.handler handler active
    rw [same, keeps.history]
    exact kept.active before active

theorem Kept.record (kept : Kept policy s) {handler : Handler} (active : s.handler = some handler)
    (index : Nat) : Kept policy (s.record handler index) := by
  obtain ⟨nonneg, passed⟩ := kept.active handler active
  obtain ⟨apart, left⟩ := checkKept_eq_passed passed
  refine ⟨fun address => ?_, fun address record present => ?_, fun other absent => by cases absent⟩
  · rw [history_record]
    split_ifs with same
    · subst same
      exact (kept.paced _).snoc apart left
    · rw [List.append_nil]
      exact kept.paced address
  · rw [history_record] at present
    split_ifs at present with same
    · obtain old | new := List.mem_append.mp present
      · exact kept.nonneg address record old
      · rw [List.mem_singleton] at new
        exact new ▸ nonneg
    · rw [List.append_nil] at present
      exact kept.nonneg address record present

theorem Kept.step (valid : policy.Valid) (kept : Kept policy s)
    (remembers : Remembers policy s label)
    (taken : step policy expectedChainID s label = some t) : Kept policy t := by
  obtain ⟨recipient, value, now, amount, rfl, idle, parsed, rfl⟩ | ⟨handler, index, active, rfl⟩ |
    keeps := (effect_of_step taken).outline
  · refine ⟨fun address => ?_, fun address => ?_, fun handler active => ?_⟩
    · rw [check_history]
      exact kept.paced address
    · rw [check_history]
      exact kept.nonneg address
    · obtain ⟨rfl, passed⟩ := check_handler idle active
      rw [check_history]
      rw [remembers _ rfl] at passed
      exact ⟨(parseAmount_bounds valid parsed).1.le, passed⟩
  · exact kept.record active index
  · exact kept.keeps keeps

/-! ## Readings in order -/

/-- No reading of the clock is earlier than one before it. -/
def InOrder (s : State) (label : Label) : Prop :=
  ∀ check ∈ label.reading?, ∀ reading ∈ s.lastReading, reading ≤ check.2

instance (s : State) (label : Label) : Decidable (InOrder s label) :=
  inferInstanceAs (Decidable (∀ check ∈ label.reading?, ∀ reading ∈ s.lastReading, _ ≤ _))

/-- The list of each address has all that later readings need. -/
def Complete (policy : Policy) (s : State) : Prop :=
  ∀ address now, (∀ reading ∈ s.lastReading, reading ≤ now) →
    recent policy.addressWindow now (s.limiter address) =
      recent policy.addressWindow now (s.history address)

theorem Complete.step (complete : Complete policy s) (inOrder : InOrder s label)
    (taken : step policy expectedChainID s label = some t) : Complete policy t := by
  intro address later readings
  obtain ⟨recipient, value, now, amount, rfl, idle, -, rfl⟩ | ⟨handler, index, active, rfl⟩ |
    keeps := (effect_of_step taken).outline
  · rw [check_lastReading] at readings
    have order := readings now rfl
    have known := complete address later fun reading before =>
      (inOrder _ rfl reading before).trans order
    rw [check_history, check_limiter]
    by_cases here : address = recipient
    · subst here
      rw [Function.update_self, recent_recent order, known]
    · rw [Function.update_of_ne here, known]
  · have known := complete address later readings
    rw [history_record]
    change recent _ _ (recordLocked _ _ _ _ _) = _
    unfold recordLocked
    by_cases here : address = handler.recipient
    · subst here
      rw [Function.update_self, if_pos rfl]
      unfold recent at known ⊢
      rw [List.filter_append, List.filter_append, known]
    · rw [Function.update_of_ne here, if_neg (Ne.symm here), List.append_nil, known]
  · rw [keeps.limiter, keeps.history]
    exact complete address later (keeps.lastReading ▸ readings)

/-- If each check finds what it needs, then in every state every window keeps to the quota, and
fundings in one window are a cooldown apart. A check never looks at a record that is not there. -/
theorem local_quota_of_remembers (policy : Policy) (validated : policy.validate = .ok ())
    (expectedChainID : Int) :
    (∀ labels s, Run (step policy expectedChainID) Free labels .initial s → s.panicked = false) ∧
    ∀ labels s, Run (step policy expectedChainID) (Remembers policy) labels .initial s →
      ∀ address,
        (∀ start, total ((s.history address).filter fun record =>
            start ≤ record.at_ ∧ record.at_ < start + policy.addressWindow) ≤
          policy.maximumAmountPerWindow) ∧
        (∀ start, total ((s.history address).filter fun record =>
            start < record.at_ ∧ record.at_ ≤ start + policy.addressWindow) ≤
          policy.maximumAmountPerWindow) ∧
        (s.history address).Pairwise fun record other =>
          |other.at_ - record.at_| < policy.addressWindow →
            policy.cooldown ≤ |other.at_ - record.at_| := by
  have valid := Policy.valid_of_validate validated
  refine ⟨fun labels s run => not_panicked valid run, fun labels s run address => ?_⟩
  have kept : Kept policy s := run.invariant kept_initial (Kept.step valid)
  have window {chosen : FundingRecord → Bool}
      (narrow : ∀ a b, chosen a = true → chosen b = true → b.at_ - a.at_ < policy.addressWindow) :
      total ((s.history address).filter chosen) ≤ policy.maximumAmountPerWindow := by
    refine (kept.paced address).total_filter_le (kept.nonneg address) ?_ narrow
    exact (valid.minimum_pos.trans_le (valid.minimum_le.trans
      (valid.default_le.trans valid.request_le))).le
  refine ⟨fun start => window ?_, fun start => window ?_, ?_⟩
  · intro a b inA inB
    rw [decide_eq_true_iff] at inA inB
    exact sub_lt_iff_lt_add'.mpr (inB.2.trans_le (add_le_add inA.1 le_rfl))
  · intro a b inA inB
    rw [decide_eq_true_iff] at inA inB
    exact sub_lt_iff_lt_add'.mpr (inB.2.trans_lt (add_lt_add_of_lt_of_le inA.1 le_rfl))
  · refine ((kept.paced address).pairwise valid.cooldown_pos valid.cooldown_lt.le).imp ?_
    intro record other apart _
    exact (le_sub_iff_add_le'.mpr apart).trans (le_abs_self _)

namespace Demo

def chainID : Int := 1414484556

/-- A funding from the check to the receipt. -/
def funding (recipient : Address) (now : Time) (index : Nat) : List Label :=
  [.request recipient [] now, .chainID chainID, .pendingNonce index, .header (some 7), .tip none,
    .sent, .receiptNotFound, .included index true, .receipt]

end Demo

/-- A check with a later reading drops the first funding and then fails, so that a check with an
earlier reading does not see it. -/
theorem later_check_hides_funding : defaultPolicy.validate = .ok () ∧ ∃ s,
    Run (step defaultPolicy Demo.chainID) Free
        (Demo.funding 7 0 0 ++ [.request 7 [] (3600 * second), .failed] ++
          Demo.funding 7 (10 * second) 1) .initial s ∧
      (s.history 7).map SlidingWindow.Entry.at_ = [0, 10 * second] ∧
      10 * second < defaultPolicy.cooldown := by
  refine ⟨defaultPolicy_validate, ?_⟩
  obtain ⟨s, run, recorded⟩ := run_of_execute_any
    (show (execute (step defaultPolicy Demo.chainID) (Demo.funding 7 0 0 ++
        [.request 7 [] (3600 * second), .failed] ++ Demo.funding 7 (10 * second) 1)
      .initial).any (fun s => (s.history 7).map SlidingWindow.Entry.at_ = [0, 10 * second]) by
        decide +kernel)
  exact ⟨s, run, of_decide_eq_true recorded, by decide⟩

theorem local_quota_of_remembers_demo : ∃ labels s,
    Run (step defaultPolicy Demo.chainID) (Remembers defaultPolicy) labels .initial s ∧
      (s.history 7).length = 2 ∧
      ∀ start, total ((s.history 7).filter fun record =>
        start ≤ record.at_ ∧ record.at_ < start + defaultPolicy.addressWindow) ≤
          defaultPolicy.maximumAmountPerWindow := by
  obtain ⟨s, run, recorded⟩ := run_of_execute_any
    (show (execute (restrict (step defaultPolicy Demo.chainID) (Remembers defaultPolicy))
        (Demo.funding 7 0 0 ++ Demo.funding 7 (30 * second) 1) .initial).any
      (fun s => (s.history 7).length = 2) by decide +kernel)
  have remembered := Run.of_restrict run
  exact ⟨_, s, remembered, of_decide_eq_true recorded, ((local_quota_of_remembers defaultPolicy
    defaultPolicy_validate Demo.chainID).2 _ s remembered 7).1⟩

end Torium.LocalFaucet
