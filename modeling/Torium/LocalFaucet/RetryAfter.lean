import Torium.LocalFaucet.Quota

/-!
# The hint of a denied request

A denied client is told how long to wait. The hint of a cooldown looks at the record that the
denial is due to. The hint of the quota looks at the oldest record of the window, although the
amounts of several records may have to leave the window before there is room for the request.
-/

namespace Torium.LocalFaucet

open Evm Faucet SlidingWindow Transition

variable {policy : Policy} {expectedChainID : Int} {s t : State} {label : Label}
  {labels : List Label}

/-! ## Runs in order -/

/-- Nothing is recorded for a time after the last reading. -/
def Past (s : State) : Prop :=
  ∀ now, (∀ reading ∈ s.lastReading, reading ≤ now) →
    (∀ address, ∀ record ∈ s.history address, record.at_ ≤ now) ∧
      ∀ handler, s.handler = some handler → handler.now ≤ now

theorem Past.step (past : Past s) (inOrder : InOrder s label)
    (taken : step policy expectedChainID s label = some t) : Past t := by
  intro later readings
  obtain ⟨recipient, value, now, amount, rfl, idle, -, rfl⟩ | ⟨handler, index, active, rfl⟩ |
    keeps := (effect_of_step taken).outline
  · rw [check_lastReading] at readings
    have order := readings now rfl
    refine ⟨fun address => ?_, fun handler active => ?_⟩
    · rw [check_history]
      exact (past later fun reading before => (inOrder _ rfl reading before).trans order).1 address
    · obtain ⟨rfl, -⟩ := check_handler idle active
      exact order
  · obtain ⟨records, handlers⟩ := past later readings
    refine ⟨fun address record present => ?_, fun other absent => by cases absent⟩
    rw [history_record] at present
    obtain old | new := List.mem_append.mp present
    · exact records address record old
    · split_ifs at new
      · rw [List.mem_singleton] at new
        exact new ▸ handlers handler active
      · cases new
  · rw [keeps.lastReading] at readings
    obtain ⟨records, handlers⟩ := past later readings
    refine ⟨fun address => ?_, fun handler active => ?_⟩
    · rw [keeps.history]
      exact records address
    · obtain ⟨before, active, same⟩ := keeps.handler handler active
      rw [same]
      exact handlers before active

/-- What holds in every state of a run in order. -/
structure Ordered (policy : Policy) (s : State) : Prop where
  complete : Complete policy s
  past : Past s
  kept : Kept policy s

theorem ordered_of_run (valid : policy.Valid)
    (run : Run (step policy expectedChainID) InOrder labels .initial s) : Ordered policy s := by
  have start : Ordered policy .initial := by
    refine ⟨fun _ _ _ => rfl, fun _ _ => ⟨fun _ _ absent => ?_, fun _ absent => ?_⟩, kept_initial⟩
    · cases absent
    · cases absent
  refine run.invariant start ?_
  intro s label t ordered inOrder taken
  refine ⟨ordered.complete.step inOrder taken, ordered.past.step inOrder taken, ?_⟩
  exact ordered.kept.step valid
    (fun check asked => ordered.complete check.1 check.2 (inOrder check asked)) taken

/-! ## Waiting -/

theorem Time.sub_eq {t u : Time} (order : u ≤ t) (fits : t - u ≤ maxDuration) :
    Time.sub t u = t - u := by
  have negative : minDuration ≤ 0 := by decide
  rw [Time.sub, min_eq_right fits, max_eq_right (negative.trans (sub_nonneg.mpr order))]

theorem checkQuota_ne_cooldown {kept : List FundingRecord} {amount : Int} {now : Time}
    {retryAfter : Duration} :
    checkQuota policy kept amount now ≠ .denied retryAfter .cooldown := by
  unfold checkQuota
  split_ifs
  · split
    · exact fun same => LimitError.noConfusion (Check.denied.inj same).2
    · exact Check.noConfusion
  · exact Check.noConfusion

/-- What is known about the records in the window of an address in a run in order. -/
structure Orderly (policy : Policy) (kept : List FundingRecord) (now : Time) : Prop where
  sorted : kept.Pairwise fun earlier later => earlier.at_ + policy.cooldown ≤ later.at_
  nonneg : ∀ record ∈ kept, 0 ≤ record.amount
  past : ∀ record ∈ kept, record.at_ ≤ now
  young : ∀ record ∈ kept, now - policy.addressWindow < record.at_

theorem Ordered.orderly (valid : policy.Valid) (ordered : Ordered policy s) {now : Time}
    (readings : ∀ reading ∈ s.lastReading, reading ≤ now) (address : Address) :
    Orderly policy (recent policy.addressWindow now (s.history address)) now where
  sorted := ((ordered.kept.paced address).pairwise valid.cooldown_pos valid.cooldown_lt.le).sublist
    List.filter_sublist
  nonneg record present := ordered.kept.nonneg address record (mem_recent.mp present).1
  past record present := (ordered.past now readings).1 address record (mem_recent.mp present).1
  young _ present := (mem_recent.mp present).2

/-- What the records in the window have to be like for the hint of a denial to be long enough. The
time until the end of the cooldown, or until the oldest record leaves the window, can be rounded up
to seconds in 64 bits; and for the quota, the records that are left then make room. -/
def HintSuffices (policy : Policy) (kept : List FundingRecord) (amount : Int) (now : Time) :
    LimitError → Prop
  | .cooldown => ∀ last ∈ kept.getLast?, last.at_ + policy.cooldown - now + second - 1 ≤ maxDuration
  | .quota => ∀ oldest ∈ kept.head?,
      let wait := oldest.at_ + policy.addressWindow - now
      wait + second - 1 ≤ maxDuration ∧
        total (recent policy.addressWindow (now + roundUp wait) kept) + amount ≤
          policy.maximumAmountPerWindow

instance decidableHintSuffices (policy : Policy) (kept : List FundingRecord) (amount : Int)
    (now : Time) : DecidablePred (HintSuffices policy kept amount now)
  | .cooldown => kept.getLast?.decidableForallMem
  | .quota => kept.head?.decidableForallMem

namespace Orderly

variable {kept : List FundingRecord} {amount : Int} {now later : Time}
  {retryAfter again : Duration}

theorem le_last (orderly : Orderly policy kept now) (positive : 0 < policy.cooldown)
    {last record : FundingRecord} (final : last ∈ kept.getLast?) (present : record ∈ kept) :
    record.at_ ≤ last.at_ := by
  obtain ⟨front, rfl⟩ := List.getLast?_eq_some_iff.mp final
  obtain before | same := List.mem_append.mp present
  · have apart := (List.pairwise_append.mp orderly.sorted).2.2 record before last (by simp)
    exact (le_add_of_nonneg_right positive.le).trans apart
  · rw [List.mem_singleton] at same
    exact same ▸ le_rfl

/-- The hint of a cooldown is the time until the end of the cooldown. -/
theorem cooldown_over (orderly : Orderly policy kept now) (valid : policy.Valid)
    (denied : checkKept policy kept amount now = .denied retryAfter .cooldown)
    (enough : HintSuffices policy kept amount now .cooldown)
    (wait : now + retrySeconds retryAfter * second ≤ later) :
    checkKept policy (recent policy.addressWindow later kept) amount later ≠
      .denied again .cooldown := by
  intro refused
  obtain ⟨last, final, early, outcome⟩ | ⟨-, outcome⟩ := checkKept_cases policy kept amount now
  · obtain ⟨rfl, -⟩ := Check.denied.inj (outcome.symm.trans denied)
    have known := orderly.past last (List.mem_of_getLast? final)
    have rest : Time.sub (last.at_ + policy.cooldown) now = last.at_ + policy.cooldown - now := by
      refine Time.sub_eq early.le (le_trans ?_ (valid.cooldown_lt.le.trans policy.window_fits))
      exact sub_le_iff_le_add'.mpr (add_le_add known le_rfl)
    rw [rest] at wait
    have waited : last.at_ + policy.cooldown ≤ later :=
      (sub_le_iff_le_add'.mp (le_retrySeconds (sub_pos.mpr early) (enough last final))).trans wait
    obtain ⟨last', final', early', -⟩ | ⟨-, outcome'⟩ := checkKept_cases policy
      (recent policy.addressWindow later kept) amount later
    · have present := (mem_recent.mp (List.mem_of_getLast? final')).1
      have before := orderly.le_last valid.cooldown_pos final present
      exact absurd ((add_le_add before le_rfl).trans waited) (not_le.mpr early')
    · exact absurd (outcome'.symm.trans refused) checkQuota_ne_cooldown
  · exact absurd (outcome.symm.trans denied) checkQuota_ne_cooldown

/-- The hint of the quota is the time until the oldest record leaves the window. -/
theorem quota_freed (orderly : Orderly policy kept now)
    (fits : amount ≤ policy.maximumAmountPerWindow)
    (denied : checkKept policy kept amount now = .denied retryAfter .quota)
    (enough : HintSuffices policy kept amount now .quota)
    (wait : now + retrySeconds retryAfter * second ≤ later) :
    checkKept policy (recent policy.addressWindow later kept) amount later ≠
      .denied again .quota := by
  intro refused
  obtain ⟨last, -, -, outcome⟩ | ⟨-, outcome⟩ := checkKept_cases policy kept amount now
  · exact absurd (Check.denied.inj (outcome.symm.trans denied)).2 LimitError.noConfusion
  obtain ⟨-, passed⟩ | ⟨-, oldest, first, hint⟩ := checkQuota_cases fits
  · cases passed.symm.trans (outcome.symm.trans denied)
  obtain ⟨rfl, -⟩ := Check.denied.inj (hint.symm.trans (outcome.symm.trans denied))
  have present := List.mem_of_head? first
  have positive : 0 < oldest.at_ + policy.addressWindow - now :=
    sub_pos.mpr (sub_lt_iff_lt_add.mp (orderly.young oldest present))
  have bounded : oldest.at_ + policy.addressWindow - now ≤ maxDuration :=
    (sub_le_iff_le_add'.mpr (add_le_add (orderly.past oldest present) le_rfl)).trans
      policy.window_fits
  obtain ⟨rounds, room⟩ := enough oldest first
  rw [Time.sub_eq (sub_pos.mp positive).le bounded, retrySeconds_eq_roundUp positive rounds] at wait
  have less : total (recent policy.addressWindow later kept) ≤ total (recent policy.addressWindow
      (now + roundUp (oldest.at_ + policy.addressWindow - now)) kept) := by
    rw [← recent_recent wait]
    refine total_le_of_sublist List.filter_sublist fun record present => ?_
    exact orderly.nonneg record (mem_recent.mp present).1
  obtain ⟨_, -, -, outcome'⟩ | ⟨-, outcome'⟩ := checkKept_cases policy
    (recent policy.addressWindow later kept) amount later
  · exact LimitError.noConfusion (Check.denied.inj (outcome'.symm.trans refused)).2
  · rw [outcome', checkQuota, if_neg (not_lt.mpr ((add_le_add less le_rfl).trans room))] at refused
    cases refused

end Orderly

/-! ## The hint -/

/-- If nothing is recorded for the address in the meantime, the request is not denied for the
same reason when the time of the hint is over. -/
def HintHelps (policy : Policy) (expectedChainID : Int) (s : State) (recipient : Address)
    (amount : Int) (now : Time) (retryAfter : Duration) (limitErr : LimitError) : Prop :=
  ∀ labels s', Run (step policy expectedChainID) InOrder labels
      (s.check policy recipient amount now) s' →
    s'.history recipient = s.history recipient →
    ∀ later, (∀ reading ∈ s'.lastReading, reading ≤ later) →
      now + retrySeconds retryAfter * second ≤ later →
      ∀ again, (checkLocked s'.limiter recipient amount later policy).2 ≠ .denied again limitErr

namespace Demo

/-- A funding of a given amount from the check to the receipt. -/
def payment (recipient : Address) (value : String) (now : Time) (index : Nat) : List Label :=
  [.request recipient (text value) now, .chainID chainID, .pendingNonce index, .header (some 7),
    .tip none, .sent, .included index true, .receipt]

/-- Four fundings that use up the quota of the window. -/
def equalPayments : List Label :=
  payment 7 "25000000000000000000" 0 0 ++ payment 7 "25000000000000000000" (30 * second) 1 ++
    payment 7 "25000000000000000000" (60 * second) 2 ++
    payment 7 "25000000000000000000" (90 * second) 3

/-- Five fundings that use up the quota of the window, the first of them a small one. -/
def payments : List Label :=
  payment 7 "1000000000000000000" 0 0 ++ payment 7 "25000000000000000000" (30 * second) 1 ++
    payment 7 "25000000000000000000" (60 * second) 2 ++
    payment 7 "25000000000000000000" (90 * second) 3 ++
    payment 7 "24000000000000000000" (120 * second) 4

end Demo

end Torium.LocalFaucet
