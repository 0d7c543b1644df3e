import Torium.Rewards.Ledger

/-!
# Phases of an epoch

An epoch is published, then claimed from, then clawed back from, in this order
and with the delays between. The times of the successful calls are those of the
logs. Everything here holds without any assumption on the hash function.
-/

namespace Torium.Rewards

open Evm CallStack Transition

/-- What later worlds keep of an earlier one, as long as it is not rolled back. -/
structure Extends (w w' : World) : Prop where
  logs : w.logs <+: w'.logs
  time : w.now.toNat ≤ w'.now.toNat
  terms (e : Word) : Published w.storage e →
    (w'.storage.epochs e).terms = (w.storage.epochs e).terms

variable {p : Publication} {cfg : Config} {event : Event}

namespace Extends

variable {stack : List (Open Frame World)} {w w' w'' : World} {e : Word}

theorem refl (w : World) : Extends w w := ⟨List.prefix_rfl, Nat.le_refl _, fun _ _ => rfl⟩

section

variable (grown : Extends w w') (present : Published w.storage e)

include grown present

theorem rootHash :
    (w'.storage.epochs e).rootHash = (w.storage.epochs e).rootHash :=
  congrArg (·.1) (grown.terms e present)

theorem published :
    Published w'.storage e := by
  rw [Published, grown.rootHash present]
  exact present

theorem claimStart :
    (w'.storage.epochs e).claimStart = (w.storage.epochs e).claimStart :=
  congrArg (·.2.2.1) (grown.terms e present)

theorem claimEnd :
    (w'.storage.epochs e).claimEnd = (w.storage.epochs e).claimEnd :=
  congrArg (·.2.2.2) (grown.terms e present)

end

theorem trans (first : Extends w w') (second : Extends w' w'') : Extends w w'' :=
  ⟨first.logs.trans second.logs, first.time.trans second.time, fun e present =>
    (second.terms e (first.published present)).trans (first.terms e present)⟩

theorem emit (w : World) (event : Event) : Extends w (w.emit event) :=
  ⟨List.prefix_append _ _, Nat.le_refl _, fun _ _ => rfl⟩

/-- Storage that keeps its epochs. -/
theorem of_epochs (logs : w'.logs = w.logs) (time : w.now.toNat ≤ w'.now.toNat)
    (epochs : w'.storage.epochs = w.storage.epochs) : Extends w w' :=
  ⟨logs ▸ List.prefix_rfl, time, fun _ _ => epochs ▸ rfl⟩

theorem publish (registered : Registered w.storage) {next total : Word}
    (ready : Publishable cfg w p next total) : Extends w (w.publish p next total) := by
  refine ⟨List.prefix_rfl, Nat.le_refl _, fun e present => ?_⟩
  have old : e ≠ p.epochId := fun same =>
    registered.not_published_next (ready.id ▸ same ▸ present)
  rw [publish_epochs_of_ne old]

theorem of_act (registered : Registered w.storage) (does : Act cfg stack w w') :
    Extends w w' := by
  cases does with
  | block timestamp later => exact of_epochs rfl later rfl
  | force | setRoles => exact of_epochs rfl (Nat.le_refl _) rfl
  | setPaused => exact ⟨List.prefix_append _ _, Nat.le_refl _, fun _ _ => rfl⟩
  | publish _ _ _ _ _ ready =>
    exact ((publish registered ready).trans (emit _ _)).trans (emit _ _)

theorem of_call [Keccak] {f : Frame} (does : Call cfg w f w') : Extends w w' := by
  cases does with
  | claim => exact ⟨List.prefix_rfl, Nat.le_refl _, fun _ _ => payClaim_terms⟩
  | clawback => exact ⟨List.prefix_rfl, Nat.le_refl _, fun _ _ => payClawback_terms⟩
  | other => exact refl _

theorem of_commit {f : Frame} (does : Commit cfg f w w') : Extends w w' := by
  cases does with
  | claim => exact ((emit _ _).trans (emit _ _)).trans (of_epochs rfl (Nat.le_refl _) rfl)
  | clawback => exact ((emit _ _).trans (emit _ _)).trans (of_epochs rfl (Nat.le_refl _) rfl)
  | other => exact refl _

theorem preserved [Keccak] (cfg : Config) (base : World) :
    Preserved (rules cfg) (fun _ w => Registered w.storage) fun _ w => Extends base w where
  act registered grown does := grown.trans (of_act registered does)
  call _ grown does := grown.trans (of_call does)
  commit _ grown does := grown.trans (of_commit does)

end Extends

/-- Between transactions nothing is open, so nothing before can be rolled back. -/
theorem Reachable.extends_of_run [Keccak] {m m' : Machine} {ls : List Label}
    (reached : Reachable cfg m) (between : m.stack = []) (run : Run (step cfg) Free ls m m') :
    Extends m.current m'.current := by
  obtain ⟨w, stack⟩ := m
  obtain rfl := between
  have both := run.invariant
    (I := fun m => Reachable cfg m ∧ Holds (fun _ w' => Extends w w') m)
    ⟨reached, Extends.refl w⟩ fun holds _ taken => ⟨holds.1.next taken,
      (Extends.preserved cfg w).step (step_obeys taken) holds.1.registered holds.2⟩
  exact both.2.top

/-! ## Times of the logs -/

/-- An event at a time agrees with the epoch it is about. -/
def Event.Timely (cfg : Config) (s : Storage) (t : Word) : Event → Prop
  | .epochPublished e rootHash _ funded claimStart claimEnd =>
    Published s e ∧ (s.epochs e).terms = (rootHash, funded, claimStart, claimEnd) ∧
      t.toNat + cfg.publicationDelay.toNat ≤ (s.epochs e).claimStart.toNat
  | .rewardClaimed e _ _ _ _ _ =>
    Published s e ∧ (s.epochs e).claimStart.toNat ≤ t.toNat ∧
      t.toNat < (s.epochs e).claimEnd.toNat
  | .epochClawedBack e _ _ _ _ _ =>
    Published s e ∧ (s.epochs e).claimEnd.toNat + cfg.clawbackDelay.toNat ≤ t.toNat
  | _ => True

/-- An open call is still in the phase that it checked for. -/
def Frame.Timely (cfg : Config) (s : Storage) (now : Word) : Frame → Prop
  | .claim e _ =>
    Published s e ∧ (s.epochs e).claimStart.toNat ≤ now.toNat ∧
      now.toNat < (s.epochs e).claimEnd.toNat
  | .clawback _ e _ =>
    Published s e ∧ (s.epochs e).claimEnd.toNat + cfg.clawbackDelay.toNat ≤ now.toNat
  | .other => True

def Event.publishes (e : Word) : Event → Bool
  | .epochPublished e' _ _ _ _ _ => e = e'
  | _ => false

section Timely

variable {w w' : World} {t : Word}

theorem Event.Timely.extend (timely : event.Timely cfg w.storage t) (grown : Extends w w') :
    event.Timely cfg w'.storage t := by
  cases event with
  | epochPublished =>
    obtain ⟨present, terms, early⟩ := timely
    refine ⟨grown.published present, (grown.terms _ present).trans terms, ?_⟩
    rwa [grown.claimStart present]
  | rewardClaimed =>
    obtain ⟨present, started, unfinished⟩ := timely
    refine ⟨grown.published present, ?_⟩
    rw [grown.claimStart present, grown.claimEnd present]
    exact ⟨started, unfinished⟩
  | epochClawedBack =>
    obtain ⟨present, late⟩ := timely
    refine ⟨grown.published present, ?_⟩
    rwa [grown.claimEnd present]
  | accountingReconciled | paused | unpaused => trivial

theorem Frame.Timely.extend {frame : Frame} (timely : frame.Timely cfg w.storage t)
    (grown : Extends w w') : frame.Timely cfg w'.storage t := by
  cases frame with
  | claim =>
    obtain ⟨present, started, unfinished⟩ := timely
    refine ⟨grown.published present, ?_⟩
    rw [grown.claimStart present, grown.claimEnd present]
    exact ⟨started, unfinished⟩
  | clawback =>
    obtain ⟨present, late⟩ := timely
    refine ⟨grown.published present, ?_⟩
    rwa [grown.claimEnd present]
  | other => trivial

theorem Event.timely_of_quiet {s : Storage} (quiet : event.quiet) :
    event.Timely cfg s t := by
  cases event <;> trivial

end Timely

/-- The logs in the order of time, each at a time that fits its epoch. -/
structure Timeline (cfg : Config) (stack : List (Open Frame World)) (w : World) : Prop where
  ordered : w.logs.Pairwise fun a b => a.1.toNat ≤ b.1.toNat
  past : ∀ l ∈ w.logs, l.1.toNat ≤ w.now.toNat
  events : ∀ l ∈ w.logs, l.2.Timely cfg w.storage l.1
  frames : ∀ o ∈ stack, o.frame.Timely cfg w.storage w.now
  published (e : Word) : Published w.storage e → ∃ l ∈ w.logs, l.2.publishes e

namespace Timeline

variable {stack : List (Open Frame World)} {w w' : World}

/-- A step that logs nothing. -/
theorem advance (timeline : Timeline cfg stack w) (grown : Extends w w')
    (logs : w'.logs = w.logs) (now : w'.now = w.now)
    (old : ∀ e, Published w'.storage e → Published w.storage e) : Timeline cfg stack w' where
  ordered := logs ▸ timeline.ordered
  past := logs ▸ now ▸ timeline.past
  events := logs ▸ fun l member => (timeline.events l member).extend grown
  frames := now ▸ fun o member => (timeline.frames o member).extend grown
  published e present := logs ▸ timeline.published e (old e present)

/-- A step that logs one event, now. -/
theorem log (timeline : Timeline cfg stack w) (grown : Extends w w')
    (logs : w'.logs = w.logs ++ [(w.now, event)]) (now : w'.now = w.now)
    (timely : event.Timely cfg w'.storage w.now)
    (news : ∀ e, Published w'.storage e → Published w.storage e ∨ event.publishes e) :
    Timeline cfg stack w' where
  ordered := by
    rw [logs, List.pairwise_append]
    refine ⟨timeline.ordered, List.pairwise_singleton _ _, fun a before b last => ?_⟩
    rw [List.mem_singleton.mp last]
    exact timeline.past a before
  past := by
    rw [logs, now]
    intro l member
    rcases List.mem_append.mp member with before | last
    · exact timeline.past l before
    · rw [List.mem_singleton.mp last]
  events := by
    rw [logs]
    intro l member
    rcases List.mem_append.mp member with before | last
    · exact (timeline.events l before).extend grown
    · rw [List.mem_singleton.mp last]
      exact timely
  frames := now ▸ fun o member => (timeline.frames o member).extend grown
  published e present := by
    rw [logs]
    rcases news e present with old | new
    · obtain ⟨l, member, publishes⟩ := timeline.published e old
      exact ⟨l, List.mem_append_left _ member, publishes⟩
    · exact ⟨_, List.mem_append_right _ List.mem_cons_self, new⟩

theorem emit (timeline : Timeline cfg stack w) (timely : event.Timely cfg w.storage w.now) :
    Timeline cfg stack (w.emit event) :=
  timeline.log (.emit w event) rfl rfl timely fun _ => .inl

theorem release (timeline : Timeline cfg stack w) : Timeline cfg stack w.release :=
  timeline.advance (.of_epochs rfl (Nat.le_refl _) rfl) rfl rfl fun _ => id

/-- An open frame may be forgotten, and one in its phase may be added. -/
theorem pop {o : Open Frame World} (timeline : Timeline cfg (o :: stack) w) :
    Timeline cfg stack w :=
  { timeline with frames := fun o member => timeline.frames o (List.mem_cons_of_mem _ member) }

theorem push {o : Open Frame World} (timeline : Timeline cfg stack w)
    (timely : o.frame.Timely cfg w.storage w.now) : Timeline cfg (o :: stack) w :=
  { timeline with
    frames := fun o' member => by
      rcases List.mem_cons.mp member with rfl | below
      · exact timely
      · exact timeline.frames o' below }

theorem publish (timeline : Timeline cfg stack w) (registered : Registered w.storage)
    {next total : Word} (ready : Publishable cfg w p next total) (sender : Address) :
    Timeline cfg stack ((w.publish p next total).emit
      (.epochPublished p.epochId p.rootHash sender p.rootSum p.claimStart p.claimEnd)) := by
  refine timeline.log ((Extends.publish registered ready).trans (.emit _ _)) rfl rfl ?_
    fun e present => ?_
  · rw [Event.Timely, emit_storage, Published, publish_epochs_self]
    exact ⟨ready.root, rfl, ready.start⟩
  · by_cases new : e = p.epochId
    · exact .inr (decide_eq_true new)
    · rw [emit_storage, Published, publish_epochs_of_ne new] at present
      exact .inl present

theorem preserved [Keccak] (cfg : Config) :
    Preserved (rules cfg) (fun _ w => Registered w.storage) (Timeline cfg) where
  act := by
    intro stack w w' registered timeline does
    have grown := Extends.of_act registered does
    cases does with
    | block timestamp later =>
      exact { timeline with
        past := fun l member => (timeline.past l member).trans later
        frames := nofun }
    | force | setRoles => exact timeline.advance grown rfl rfl fun _ => id
    | setPaused _ _ quiet =>
      exact timeline.log grown rfl rfl (Event.timely_of_quiet quiet) fun _ => .inl
    | publish sender _ _ _ _ ready quiet =>
      exact (timeline.publish registered ready sender).emit (Event.timely_of_quiet quiet)
  call := by
    intro stack w f w' _ timeline does
    have grown := Extends.of_call does
    cases does with
    | claim epochId claim _ _ _ ready =>
      refine (timeline.advance grown rfl rfl fun e present => ?_).push ?_
      · exact (published_of_terms payClaim_terms).mp present
      · exact Frame.Timely.extend ⟨ready.published, ready.started, ready.unfinished⟩ grown
    | clawback _ epochId _ _ _ _ ready =>
      refine (timeline.advance grown rfl rfl fun e present => ?_).push ?_
      · exact (published_of_terms payClawback_terms).mp present
      · exact Frame.Timely.extend ⟨ready.published, ready.ready⟩ grown
    | other => exact timeline.push trivial
  commit := by
    intro stack f saved w w' _ timeline does
    have timely := timeline.frames _ List.mem_cons_self
    cases does with
    | claim _ _ _ quiet =>
      refine ((timeline.pop.emit ?_).emit (Event.timely_of_quiet quiet)).release
      exact timely
    | clawback _ _ _ _ quiet =>
      refine ((timeline.pop.emit ?_).emit (Event.timely_of_quiet quiet)).release
      exact timely
    | other => exact timeline.pop

end Timeline

theorem Reachable.timeline [Keccak] {m : Machine} (reached : Reachable cfg m) :
    Holds (Timeline cfg) m := by
  refine reached.holds Reachable.registered (fun initial => ?_) (Timeline.preserved cfg)
  obtain ⟨hasRole, balance, now, rfl⟩ := initial.world
  exact ⟨.nil, nofun, nofun, nofun, fun _ present => absurd rfl present⟩

/-! ## One clawback for each epoch -/

def Event.clawsBack (e : Word) : Event → Bool
  | .epochClawedBack e' _ _ _ _ _ => e = e'
  | _ => false

def Frame.clawsBack (e : Word) : Frame → Bool
  | .clawback _ e' _ => e = e'
  | _ => false

/-- The clawbacks of an epoch that have succeeded. -/
def clawbacks (w : World) (e : Word) : Nat := w.logs.countP (·.2.clawsBack e)

/-- The clawbacks of an epoch that are in their payout. -/
def openClawbacks (stack : List (Open Frame World)) (e : Word) : Nat :=
  stack.countP (·.frame.clawsBack e)

/-- A clawback was made, or is in its payout, exactly when something was clawed. -/
def Swept (stack : List (Open Frame World)) (w : World) : Prop :=
  ∀ e, clawbacks w e + openClawbacks stack e =
    if (w.storage.epochs e).clawed = 0 then 0 else 1

namespace Swept

variable {stack : List (Open Frame World)} {w w' : World}

theorem clawbacks_emit (w : World) (event : Event) (e : Word) :
    clawbacks (w.emit event) e = clawbacks w e + (event.clawsBack e).toNat := by
  rw [clawbacks, emit_logs, List.countP_append, List.countP_singleton]
  cases event.clawsBack e <;> rfl

theorem emit_of_quiet (swept : Swept stack w) (quiet : event.quiet) :
    Swept stack (w.emit event) := by
  intro e
  have silent : event.clawsBack e = false := by
    cases event <;> first | rfl | exact absurd quiet Bool.false_ne_true
  rw [clawbacks_emit, silent]
  exact swept e

theorem release (swept : Swept stack w) : Swept stack w.release := swept

theorem openClawbacks_cons (o : Open Frame World) (stack : List (Open Frame World)) (e : Word) :
    openClawbacks (o :: stack) e = openClawbacks stack e + (o.frame.clawsBack e).toNat := by
  rw [openClawbacks, List.countP_cons]
  cases o.frame.clawsBack e <;> rfl

theorem clawed_publish (registered : Registered w.storage) {next total : Word}
    (ready : Publishable cfg w p next total) (e : Word) :
    ((w.publish p next total).storage.epochs e).clawed = (w.storage.epochs e).clawed := by
  by_cases new : e = p.epochId
  · rw [new, publish_epochs_self, registered.blank _ (ready.id ▸ registered.not_published_next)]
  · rw [publish_epochs_of_ne new]

theorem clawed_payClaim {epochId e : Word} {claim : Claim} {epochTotal total balance : Word} :
    ((w.payClaim epochId claim epochTotal total balance).storage.epochs e).clawed =
      (w.storage.epochs e).clawed := by
  by_cases same : e = epochId
  · rw [same, payClaim_epochs_self]
  · rw [payClaim_epochs_of_ne same]

/-- Something is left when a clawback begins, so nothing was clawed before. -/
theorem clawed_eq_zero (settled : Settled cfg w) {e amount epochClawed totalClawed balance : Word}
    (ready : Clawable cfg w e amount epochClawed totalClawed balance) :
    (w.storage.epochs e).clawed = 0 := by
  by_contra clawed
  have spent := (settled e clawed).2
  have rest := ready.rest
  exact ready.positive (BitVec.eq_of_toNat_eq (show amount.toNat = 0 by omega))

theorem payClawback (swept : Swept stack w) (settled : Settled cfg w)
    {epochId amount epochClawed totalClawed balance : Word}
    (ready : Clawable cfg w epochId amount epochClawed totalClawed balance) (sender : Address) :
    Swept (⟨.clawback sender epochId amount, w⟩ :: stack)
      (w.payClawback epochId epochClawed totalClawed balance) := by
  intro e
  have before := swept e
  rw [openClawbacks_cons]
  change clawbacks w e + (openClawbacks stack e + (decide (e = epochId)).toNat) = _
  by_cases same : e = epochId
  · subst same
    have first := clawed_eq_zero settled ready
    have some : epochClawed ≠ 0 := by
      intro zero
      have sum := ready.epoch
      rw [zero, first] at sum
      exact ready.positive (BitVec.eq_of_toNat_eq (Nat.eq_zero_of_add_eq_zero_left sum))
    rw [payClawback_epochs_self, if_neg some, decide_eq_true rfl]
    rw [if_pos first] at before
    change clawbacks w e + (openClawbacks stack e + 1) = 1
    omega
  · rw [payClawback_epochs_of_ne same, decide_eq_false same]
    exact before

/-- The frame of a clawback becomes its log. -/
theorem close {f : Frame} {saved : World} (swept : Swept (⟨f, saved⟩ :: stack) w)
    (same : ∀ e, event.clawsBack e = f.clawsBack e) : Swept stack (w.emit event) := by
  intro e
  have before := swept e
  rw [openClawbacks_cons] at before
  rw [clawbacks_emit, same, emit_storage, ← before]
  dsimp only
  omega

theorem preserved [Keccak] (cfg : Config) :
    Preserved (rules cfg) (fun _ w => Registered w.storage ∧ Settled cfg w) Swept where
  act := by
    intro stack w w' known swept does
    cases does with
    | block | force | setRoles => exact swept
    | setPaused _ _ quiet => exact emit_of_quiet swept quiet
    | publish sender p _ _ _ ready quiet =>
      refine emit_of_quiet (fun e => ?_) quiet
      rw [clawbacks_emit, emit_storage, clawed_publish known.1 ready]
      exact swept e
  call := by
    intro stack w f w' known swept does
    cases does with
    | claim =>
      intro e
      rw [openClawbacks_cons, clawed_payClaim]
      exact swept e
    | clawback sender _ _ _ _ _ ready => exact swept.payClawback known.2 ready sender
    | other =>
      intro e
      rw [openClawbacks_cons]
      exact swept e
  commit := by
    intro stack f saved w w' _ swept does
    cases does with
    | claim _ _ _ quiet =>
      refine Swept.release ((swept.close ?_).emit_of_quiet quiet)
      exact fun _ => rfl
    | clawback _ _ _ _ quiet =>
      refine Swept.release ((swept.close ?_).emit_of_quiet quiet)
      exact fun _ => rfl
    | other =>
      intro e
      have before := swept e
      rwa [openClawbacks_cons] at before

end Swept

theorem Reachable.swept [Keccak] {m : Machine} (reached : Reachable cfg m) :
    Holds Swept m := by
  refine reached.holds (fun reached => reached.registered.and reached.settled) (fun initial => ?_)
    (Swept.preserved cfg)
  obtain ⟨hasRole, balance, now, rfl⟩ := initial.world
  exact fun _ => rfl

/-! ## The phases as callers see them -/

section Phases

variable [Keccak] {m : Machine} {e : Word}

/-- An epoch with a successful clawback has nothing left. -/
theorem spent_of_clawback (reached : Reachable cfg m) (made : clawbacks m.current e ≠ 0) :
    (m.current.storage.epochs e).clawed ≠ 0 := by
  intro none
  have swept := reached.swept.top e
  rw [if_pos none] at swept
  omega

theorem claim_reverts_of_clawback (reached : Reachable cfg m)
    (made : clawbacks m.current e ≠ 0) (claim : Claim) :
    ∃ error, beginClaim cfg e claim m.current = .error error := by
  cases begun : beginClaim cfg e claim m.current with
  | error error => exact ⟨error, rfl⟩
  | ok w =>
    have late := (reached.settled.top e (spent_of_clawback reached made)).1
    cases beginClaim_effect begun with
    | claim _ _ _ _ _ ready =>
      have := ready.unfinished
      omega

/-- By the times of the two events, no claim follows a clawback of its epoch. -/
theorem no_claim_after_clawback (reached : Reachable cfg m) :
    m.current.logs.Pairwise fun a b =>
      ∀ e, a.2.clawsBack e = true → b.2.payment?.map (·.epochId) ≠ some e := by
  have timeline := reached.timeline.top
  refine (List.Pairwise.and_mem.mp timeline.ordered).imp ?_
  rintro ⟨t, first⟩ ⟨t', second⟩ ⟨inLogs, inLogs', order⟩ e claws pays
  have timely := timeline.events _ inLogs
  have timely' := timeline.events _ inLogs'
  cases first with
  | epochClawedBack e₁ =>
    cases second with
    | rewardClaimed e₂ =>
      obtain rfl : e = e₁ := of_decide_eq_true claws
      obtain rfl : e₂ = e := Option.some.inj pays
      have late := timely.2.trans order
      have early := timely'.2.2
      omega
    | _ => exact absurd pays nofun
  | _ => exact absurd claws Bool.false_ne_true

end Phases

/-- Phases never overlap or go back. Claims succeed within the window of their
epoch, which opens only after the publication delay; clawbacks succeed only
after the window and their own delay, at most once for each epoch, and no claim
of it succeeds from then on. What an epoch was published with never changes, the
published ids are consecutive and their root hashes are different. -/
theorem epoch_phases [Keccak] (cfg : Config) (m : Machine) (reached : Reachable cfg m) :
    (∀ t e i account amount epochClaimed total,
      (t, Event.rewardClaimed e i account amount epochClaimed total) ∈ m.current.logs →
      (m.current.storage.epochs e).claimStart.toNat ≤ t.toNat ∧
      t.toNat < (m.current.storage.epochs e).claimEnd.toNat ∧ Published m.current.storage e) ∧
    (∀ e, Published m.current.storage e →
      (∃ l ∈ m.current.logs, l.2.publishes e = true) ∧
      ∀ l ∈ m.current.logs, l.2.publishes e = true →
        l.1.toNat + cfg.publicationDelay.toNat ≤ (m.current.storage.epochs e).claimStart.toNat) ∧
    (∀ e, ∀ l ∈ m.current.logs, l.2.clawsBack e = true →
      (m.current.storage.epochs e).claimEnd.toNat + cfg.clawbackDelay.toNat ≤ l.1.toNat) ∧
    (∀ e, clawbacks m.current e ≤ 1) ∧
    (∀ e, clawbacks m.current e = 1 →
      (m.current.storage.epochs e).claimed.toNat + (m.current.storage.epochs e).clawed.toNat =
        (m.current.storage.epochs e).funded.toNat ∧
      ∀ claim, ∃ error, beginClaim cfg e claim m.current = .error error) ∧
    (m.current.logs.Pairwise fun a b =>
      ∀ e, a.2.clawsBack e = true → b.2.payment?.map (·.epochId) ≠ some e) ∧
    (∀ e, Published m.current.storage e ↔
      1 ≤ e.toNat ∧ e.toNat < m.current.storage.nextEpochId.toNat) ∧
    (∀ e e', Published m.current.storage e → e ≠ e' →
      (m.current.storage.epochs e).rootHash ≠ (m.current.storage.epochs e').rootHash) ∧
    ∀ ls m', m.stack = [] → Run (step cfg) Free ls m m' →
      m.current.logs <+: m'.current.logs ∧
      ∀ e, Published m.current.storage e →
        (m'.current.storage.epochs e).terms = (m.current.storage.epochs e).terms ∧
        (clawbacks m.current e = 1 → clawbacks m'.current e = 1) := by
  have timeline := reached.timeline.top
  have registered := reached.registered.top
  have once {m : Machine} (reached : Reachable cfg m) (e) : clawbacks m.current e ≤ 1 := by
    have swept := reached.swept.top e
    split at swept <;> omega
  refine ⟨?_, fun e present => ⟨timeline.published e present, ?_⟩, ?_, once reached,
    fun e made => ?_, no_claim_after_clawback reached, registered.published_iff,
    fun e e' present different same => different (registered.distinct e e' present same),
    fun ls m' between run => ?_⟩
  · intro t e i account amount epochClaimed total member
    obtain ⟨present, started, unfinished⟩ := timeline.events _ member
    exact ⟨started, unfinished, present⟩
  · rintro ⟨t, event⟩ member publishes
    have timely := timeline.events _ member
    cases event with
    | epochPublished e' =>
      obtain rfl : e = e' := of_decide_eq_true publishes
      exact timely.2.2
    | _ => exact absurd publishes Bool.false_ne_true
  · rintro e ⟨t, event⟩ member claws
    have timely := timeline.events _ member
    cases event with
    | epochClawedBack e' =>
      obtain rfl : e = e' := of_decide_eq_true claws
      exact timely.2
    | _ => exact absurd claws Bool.false_ne_true
  · have some : clawbacks m.current e ≠ 0 := by omega
    exact ⟨(reached.settled.top e (spent_of_clawback reached some)).2,
      claim_reverts_of_clawback reached some⟩
  · have later := reached.extends_of_run between run
    refine ⟨later.logs, fun e present => ⟨later.terms e present, fun made => ?_⟩⟩
    have kept : clawbacks m.current e ≤ clawbacks m'.current e :=
      later.logs.sublist.countP_le
    have := once (reached.run run) e
    omega

theorem epoch_phases_demo :
    letI := Keccak.rolling
    ∃ m, Reachable Demo.cfg m ∧ clawbacks m.current 1 = 1 ∧
      ∀ claim, ∃ error, beginClaim Demo.cfg 1 claim m.current = .error error := by
  let := Keccak.rolling
  obtain ⟨m, run, evaluated⟩ := run_of_execute_any
    (show (execute (step Demo.cfg) Demo.labels Demo.start).any
      (fun m => clawbacks m.current 1 = 1) by decide +kernel)
  have made : clawbacks m.current 1 = 1 := of_decide_eq_true evaluated
  have reached : Reachable Demo.cfg m := ⟨_, _, Demo.start_initial, run⟩
  exact ⟨m, reached, made, ((epoch_phases Demo.cfg m reached).2.2.2.2.1 1 made).2⟩

end Torium.Rewards
