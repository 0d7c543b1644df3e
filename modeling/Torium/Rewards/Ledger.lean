import Torium.Rewards.Epochs

/-!
# The claim ledger

Which claims were paid is recorded in a bitmap with one bit for each pair of
epoch and index: word `index >> 8`, bit `index & 255`. The ledger ties the
bitmap, the totals of the epochs and the logs to the history of payouts, in
every state, also while a payout is in progress.
-/

namespace Torium.Rewards

open Evm CallStack Transition

/-! ## The packed bitmap -/

theorem toNat_and_255 (index : Word) : (index &&& 255).toNat = index.toNat % 256 := by
  rw [BitVec.toNat_and]
  exact Nat.and_two_pow_sub_one_eq_mod index.toNat 8

theorem getLsbD_claimMask (index : Word) (j : Nat) :
    (claimMask index).getLsbD j = decide (j = index.toNat % 256) := by
  have bound := Nat.mod_lt index.toNat (show 256 > 0 by decide)
  rw [claimMask, BitVec.shiftLeft_eq', toNat_and_255, BitVec.getLsbD_shiftLeft]
  by_cases same : j = index.toNat % 256
  · subst same
    simp [bound]
  · by_cases below : j < index.toNat % 256
    · simp [same, below]
    · have : ¬ j - index.toNat % 256 = 0 := by omega
      simp [same, this]

/-- A mask has one bit, so it is contained in a word when the word has that bit. -/
theorem and_claimMask_eq (word index : Word) :
    (word &&& claimMask index == claimMask index) = word.getLsbD (index.toNat % 256) := by
  rw [Bool.eq_iff_iff, beq_iff_eq]
  constructor
  · intro contained
    have bit := congrArg (·.getLsbD (index.toNat % 256)) contained
    simpa [BitVec.getLsbD_and, getLsbD_claimMask] using bit
  · intro bit
    apply BitVec.eq_of_getLsbD_eq
    intro j _
    rw [BitVec.getLsbD_and, getLsbD_claimMask]
    by_cases same : j = index.toNat % 256
    · simp [same, bit]
    · simp [same]

theorem isClaimed_eq (s : Storage) (epochId index : Word) :
    isClaimed s epochId index =
      (s.claimedBitMaps epochId (index >>> 8)).getLsbD (index.toNat % 256) :=
  and_claimMask_eq _ _

/-- An index is determined by its word and its bit. -/
theorem index_eq_of_word_bit {index index' : Word} (word : index >>> 8 = index' >>> 8)
    (bit : index.toNat % 256 = index'.toNat % 256) : index = index' := by
  have word := congrArg BitVec.toNat word
  rw [BitVec.toNat_ushiftRight, BitVec.toNat_ushiftRight, Nat.shiftRight_eq_div_pow,
    Nat.shiftRight_eq_div_pow] at word
  apply BitVec.eq_of_toNat_eq
  omega

/-- Marking one pair changes the answer for that pair only. -/
theorem isClaimed_setClaimed {s s' : Storage} {epochId index : Word}
    (marked : s'.claimedBitMaps = setClaimed s epochId index) (e i : Word) :
    isClaimed s' e i = true ↔ isClaimed s e i = true ∨ (e, i) = (epochId, index) := by
  rw [isClaimed_eq, isClaimed_eq, marked, setClaimed, Prod.mk.injEq]
  by_cases epoch : e = epochId
  · subst epoch
    by_cases word : i >>> 8 = index >>> 8
    · simp only [Function.update_self, word, BitVec.getLsbD_or, getLsbD_claimMask, Bool.or_eq_true,
        decide_eq_true_eq, true_and]
      refine or_congr_right ⟨index_eq_of_word_bit word, fun same => same ▸ rfl⟩
    · have different : i ≠ index := fun same => word (same ▸ rfl)
      simp [word, different]
  · simp [epoch]

theorem payClaim_bitMaps {w : World} {epochId : Word} {claim : Claim}
    {epochClaimed totalClaimed balance : Word} :
    (w.payClaim epochId claim epochClaimed totalClaimed balance).storage.claimedBitMaps =
      setClaimed w.storage epochId claim.index := rfl

/-! ## Paid claims -/

/-- The pair under which a claim is recorded. -/
def claimKey (paid : Word × Claim) : Word × Word := (paid.1, paid.2.index)

/-- What the history of payouts says about the storage. -/
structure Ledger [Keccak] (w : World) : Prop where
  distinct : (w.paid.map claimKey).Nodup
  claimed_iff (e i : Word) : isClaimed w.storage e i = true ↔ (e, i) ∈ w.paid.map claimKey
  accepted : ∀ p ∈ w.paid, Published w.storage p.1 ∧ p.2.amount ≠ 0 ∧
    processProof p.1 p.2.index p.2.account p.2.amount p.2.proof =
      .ok ((w.storage.epochs p.1).rootHash, (w.storage.epochs p.1).funded)
  total (e : Word) : (w.storage.epochs e).claimed.toNat =
    ((w.paid.filter (·.1 = e)).map (·.2.amount.toNat)).sum

namespace Ledger

variable [Keccak] {cfg : Config} {w w' : World}

/-- Nothing else is read from the terms and totals of the epochs. -/
theorem of_terms (ledger : Ledger w) (paid : w'.paid = w.paid)
    (bits : w'.storage.claimedBitMaps = w.storage.claimedBitMaps)
    (terms : ∀ e, Published w.storage e →
      (w'.storage.epochs e).terms = (w.storage.epochs e).terms)
    (claimed : ∀ e, (w'.storage.epochs e).claimed = (w.storage.epochs e).claimed) : Ledger w' := by
  refine ⟨paid ▸ ledger.distinct, fun e i => ?_, fun p member => ?_, fun e => ?_⟩
  · rw [isClaimed_eq, bits, ← isClaimed_eq, paid]
    exact ledger.claimed_iff e i
  · rw [paid] at member
    obtain ⟨present, positive, proof⟩ := ledger.accepted p member
    have root := congrArg (·.1) (terms p.1 present)
    have funded := congrArg (·.2.1) (terms p.1 present)
    simp only [Epoch.terms] at root funded
    rw [Published, root, funded]
    exact ⟨present, positive, proof⟩
  · rw [claimed, paid]
    exact ledger.total e

theorem payClaim (ledger : Ledger w) {epochId : Word} {claim : Claim}
    {epochClaimed totalClaimed balance : Word}
    (ready : Claimable w epochId claim epochClaimed totalClaimed balance) :
    Ledger (w.payClaim epochId claim epochClaimed totalClaimed balance) := by
  have terms (e) := @payClaim_terms w epochId e claim epochClaimed totalClaimed balance
  have root (e) := congrArg (·.1) (terms e)
  have funded (e) := congrArg (·.2.1) (terms e)
  simp only [Epoch.terms] at root funded
  have new : (epochId, claim.index) ∉ w.paid.map claimKey := by
    rw [← ledger.claimed_iff, ready.unclaimed]
    exact Bool.false_ne_true
  refine ⟨?_, fun e i => ?_, fun p member => ?_, fun e => ?_⟩
  · change ((w.paid ++ [(epochId, claim)]).map claimKey).Nodup
    rw [List.map_append, List.nodup_append]
    refine ⟨ledger.distinct, List.nodup_singleton _, fun a before b last same => ?_⟩
    rw [List.map_singleton, List.mem_singleton] at last
    have recorded : a = (epochId, claim.index) := same.trans last
    exact new (recorded ▸ before)
  · change isClaimed _ e i = true ↔ (e, i) ∈ (w.paid ++ [(epochId, claim)]).map claimKey
    rw [isClaimed_setClaimed (@payClaim_bitMaps w epochId claim epochClaimed totalClaimed balance),
      ledger.claimed_iff, List.map_append, List.mem_append, List.map_singleton,
      List.mem_singleton, claimKey]
  · rw [Published, root, funded]
    rcases List.mem_append.mp member with before | last
    · exact ledger.accepted p before
    · obtain rfl := List.mem_singleton.mp last
      exact ⟨ready.published, ready.positive, ready.proof⟩
  · change _ = (((w.paid ++ [(epochId, claim)]).filter (·.1 = e)).map (·.2.amount.toNat)).sum
    rw [List.filter_append, List.map_append, List.sum_append, ← ledger.total e]
    by_cases same : e = epochId
    · subst same
      rw [payClaim_epochs_self]
      simp [ready.epoch]
    · rw [payClaim_epochs_of_ne same]
      simp [Ne.symm same]

theorem publish (ledger : Ledger w) (registered : Registered w.storage) {p : Publication}
    {next total : Word} (ready : Publishable cfg w p next total) :
    Ledger (w.publish p next total) := by
  have absent : ¬Published w.storage p.epochId := ready.id ▸ registered.not_published_next
  refine ledger.of_terms rfl rfl (fun e present => ?_) fun e => ?_
  · rw [publish_epochs_of_ne fun same => absent (same ▸ present)]
  · by_cases same : e = p.epochId
    · rw [same, publish_epochs_self, registered.blank _ absent]
    · rw [publish_epochs_of_ne same]

theorem payClawback (ledger : Ledger w) {epochId epochClawed totalClawed balance : Word} :
    Ledger (w.payClawback epochId epochClawed totalClawed balance) := by
  refine ledger.of_terms rfl rfl (fun _ _ => payClawback_terms) fun e => ?_
  by_cases same : e = epochId
  · rw [same, payClawback_epochs_self]
  · rw [payClawback_epochs_of_ne same]

theorem preserved (cfg : Config) :
    Preserved (rules cfg) (fun _ w => Registered w.storage) fun _ w => Ledger w where
  act := by
    intro stack w w' registered ledger does
    cases does with
    | block => exact ledger.of_terms rfl rfl (fun _ _ => rfl) fun _ => rfl
    | force | setRoles | setPaused => exact ledger.of_terms rfl rfl (fun _ _ => rfl) fun _ => rfl
    | publish _ _ _ _ _ ready =>
      exact (ledger.publish registered ready).of_terms rfl rfl (fun _ _ => rfl) fun _ => rfl
  call := by
    intro stack w f w' _ ledger does
    cases does with
    | claim _ _ _ _ _ ready => exact ledger.payClaim ready
    | clawback => exact ledger.payClawback
    | other => exact ledger
  commit := by
    intro stack f saved w w' _ ledger does
    cases does with
    | claim | clawback => exact ledger.of_terms rfl rfl (fun _ _ => rfl) fun _ => rfl
    | other => exact ledger

end Ledger

theorem Reachable.ledger [Keccak] {cfg : Config} {m : Machine} (reached : Reachable cfg m) :
    Holds (fun _ w => Ledger w) m := by
  refine reached.holds Reachable.registered (fun initial => ?_) (Ledger.preserved cfg)
  obtain ⟨hasRole, balance, now, rfl⟩ := initial.world
  refine ⟨List.nodup_nil, fun e i => ?_, nofun, fun _ => rfl⟩
  rw [isClaimed_eq]
  exact iff_of_false (by simp) List.not_mem_nil

/-! ## Open and successful calls -/

/-- A payment as the log of a successful claim shows it. -/
structure Payment where
  epochId : Word
  index : Word
  account : Address
  amount : Word
  deriving DecidableEq

def Payment.ofClaim (epochId : Word) (claim : Claim) : Payment :=
  ⟨epochId, claim.index, claim.account, claim.amount⟩

def Event.payment? : Event → Option Payment
  | .rewardClaimed epochId index account amount _ _ => some ⟨epochId, index, account, amount⟩
  | _ => none

def Frame.payment? : Frame → Option Payment
  | .claim epochId paid => some (.ofClaim epochId paid)
  | _ => none

/-- The claim calls that have succeeded. -/
def succeeded (w : World) : List Payment := w.logs.filterMap (·.2.payment?)

/-- The claim calls that are in their payout. -/
def inPayout (stack : List (Open Frame World)) : List Payment :=
  stack.filterMap (·.frame.payment?)

/-- The bitmap that an open call of the distributor left behind. -/
def Frame.bitMaps (frame : Frame) (saved : World) : Word → Word → Word :=
  match frame with
  | .claim epochId paid => setClaimed saved.storage epochId paid.index
  | _ => saved.storage.claimedBitMaps

/-- The open calls, the guard and the logs agree with the history of payouts. -/
structure Calls (stack : List (Open Frame World)) (w : World) : Prop where
  guard : stack.countP (·.frame.guarded) = w.storage.entered.toNat
  logged : w.paid.map (fun p => Payment.ofClaim p.1 p.2) = succeeded w ++ inPayout stack
  marked : ∀ o ∈ stack, o.frame.guarded → w.storage.claimedBitMaps = o.frame.bitMaps o.saved

namespace Calls

variable {stack : List (Open Frame World)} {w w' : World}

theorem unguarded (calls : Calls stack w) (free : w.storage.entered = false) :
    ∀ o ∈ stack, o.frame.guarded = false := by
  have none := calls.guard
  rw [free, Bool.toNat_false, List.countP_eq_zero] at none
  exact fun o member => Bool.eq_false_iff.mpr (none o member)

theorem inPayout_cons (o : Open Frame World) (stack : List (Open Frame World)) :
    inPayout (o :: stack) = o.frame.payment?.toList ++ inPayout stack := by
  cases payment : o.frame.payment? <;> simp [inPayout, payment]

theorem inPayout_eq_nil (unguarded : ∀ o ∈ stack, o.frame.guarded = false) :
    inPayout stack = [] := by
  rw [inPayout, List.filterMap_eq_nil_iff]
  intro o member
  have plain := unguarded o member
  cases frame : o.frame <;> simp_all [Frame.guarded, Frame.payment?]

/-- At most one claim is in its payout. -/
theorem inPayout_length (calls : Calls stack w) : (inPayout stack).length ≤ 1 := by
  have bound : (inPayout stack).length ≤ stack.countP (·.frame.guarded) := by
    rw [inPayout, List.length_filterMap_eq_countP]
    refine List.countP_mono_left fun o _ paying => ?_
    cases frame : o.frame <;> simp_all [Frame.guarded, Frame.payment?]
  have guard := calls.guard
  have := Bool.toNat_le w.storage.entered
  omega

/-- Steps that pay nothing and log no claim. -/
theorem of_eq (calls : Calls stack w) (entered : w'.storage.entered = w.storage.entered)
    (bits : w'.storage.claimedBitMaps = w.storage.claimedBitMaps) (paid : w'.paid = w.paid)
    (logs : succeeded w' = succeeded w) : Calls stack w' :=
  ⟨entered ▸ calls.guard, paid ▸ logs ▸ calls.logged, bits ▸ calls.marked⟩

/-- A guarded call that opens is the only one. -/
theorem opened {frame : Frame} (calls : Calls stack w) (free : w.storage.entered = false)
    (guarded : frame.guarded = true) (entered : w'.storage.entered = true)
    (bits : w'.storage.claimedBitMaps = frame.bitMaps w)
    (paid : w'.paid.map (fun p => Payment.ofClaim p.1 p.2) =
      w.paid.map (fun p => Payment.ofClaim p.1 p.2) ++ frame.payment?.toList)
    (logs : succeeded w' = succeeded w) : Calls (⟨frame, w⟩ :: stack) w' := by
  have plain := calls.unguarded free
  refine ⟨?_, ?_, fun o member held => ?_⟩
  · have none := calls.guard
    rw [free] at none
    rw [List.countP_cons_of_pos (by exact guarded), none, entered]
    rfl
  · rw [paid, calls.logged, logs, inPayout_cons, inPayout_eq_nil plain, List.append_nil,
      List.append_nil]
  · rcases List.mem_cons.mp member with rfl | below
    · exact bits
    · exact absurd held (by simp [plain o below])

/-- The guarded call that closes was the only one. -/
theorem closed {o : Open Frame World} (calls : Calls (o :: stack) w)
    (guarded : o.frame.guarded = true) (free : w'.storage.entered = false)
    (paid : w'.paid = w.paid)
    (logs : succeeded w' = succeeded w ++ o.frame.payment?.toList) : Calls stack w' := by
  have count := calls.guard
  rw [List.countP_cons_of_pos (by exact guarded)] at count
  have none : stack.countP (·.frame.guarded) = 0 := by
    have := Bool.toNat_le w.storage.entered
    omega
  have plain : ∀ o ∈ stack, o.frame.guarded = false := by
    rw [List.countP_eq_zero] at none
    exact fun o member => Bool.eq_false_iff.mpr (none o member)
  refine ⟨by rw [none, free]; rfl, ?_, fun o member held => ?_⟩
  · have logged := calls.logged
    rw [inPayout_cons, inPayout_eq_nil plain, List.append_nil] at logged
    rw [paid, logged, logs, inPayout_eq_nil plain, List.append_nil]
  · exact absurd held (by simp [plain o member])

theorem succeeded_emit (w : World) (event : Event) :
    succeeded (w.emit event) = succeeded w ++ event.payment?.toList := by
  cases payment : event.payment? <;> simp [succeeded, payment]

theorem succeeded_emit_of_quiet (w : World) {event : Event} (quiet : event.quiet) :
    succeeded (w.emit event) = succeeded w := by
  rw [succeeded_emit]
  cases event <;> simp_all [Event.quiet, Event.payment?]

theorem preserved [Keccak] (cfg : Config) : Preserved (rules cfg) (fun _ _ => True) Calls where
  act := by
    intro stack w w' _ calls does
    cases does with
    | block | force | setRoles => exact calls.of_eq rfl rfl rfl rfl
    | setPaused _ _ quiet => exact calls.of_eq rfl rfl rfl (succeeded_emit_of_quiet _ quiet)
    | publish _ _ _ _ _ _ quiet =>
      refine calls.of_eq rfl rfl rfl ?_
      rw [succeeded_emit_of_quiet _ quiet, succeeded_emit]
      exact List.append_nil _
  call := by
    intro stack w f w' _ calls does
    cases does with
    | claim epochId claim _ _ _ ready =>
      exact calls.opened ready.free rfl rfl rfl List.map_append rfl
    | clawback _ _ _ _ _ _ ready =>
      exact calls.opened ready.free rfl rfl rfl (List.append_nil _).symm rfl
    | other =>
      refine ⟨?_, ?_, fun o member held => ?_⟩
      · rw [List.countP_cons_of_neg (by exact Bool.false_ne_true)]
        exact calls.guard
      · exact inPayout_cons ⟨.other, w⟩ stack ▸ calls.logged
      · rcases List.mem_cons.mp member with rfl | below
        · exact absurd held Bool.false_ne_true
        · exact calls.marked o below held
  commit := by
    intro stack f saved w w' _ calls does
    cases does with
    | claim _ _ _ quiet =>
      refine calls.closed rfl rfl rfl ?_
      exact (succeeded_emit_of_quiet _ quiet).trans (succeeded_emit _ _)
    | clawback _ _ _ _ quiet =>
      refine calls.closed rfl rfl rfl ?_
      exact (succeeded_emit_of_quiet _ quiet).trans (succeeded_emit _ _)
    | other =>
      refine ⟨?_, ?_, fun o member => calls.marked o (List.mem_cons_of_mem _ member)⟩
      · have count := calls.guard
        rwa [List.countP_cons_of_neg (by exact Bool.false_ne_true)] at count
      · exact inPayout_cons ⟨.other, saved⟩ stack ▸ calls.logged

end Calls

theorem Reachable.calls [Keccak] {cfg : Config} {m : Machine} (reached : Reachable cfg m) :
    Holds Calls m := by
  refine reached.holds (fun _ => ?_) (fun initial => ?_) (Calls.preserved cfg)
  · exact HoldsOver.of_forall fun _ _ => trivial
  · obtain ⟨hasRole, balance, now, rfl⟩ := initial.world
    exact ⟨rfl, rfl, nofun⟩

/-! ## The ledger as callers see it -/

section Changes

variable [Keccak] {cfg : Config} {m m' : Machine}

/-- The bit of a pair changes only when a claim of that pair begins, or when an
open call is rolled back that is that claim or a context outside the distributor. -/
theorem isClaimed_change {e i : Word} (calls : Holds Calls m) (taken : Step (rules cfg) m m')
    (changed : isClaimed m'.current.storage e i ≠ isClaimed m.current.storage e i) :
    (∃ claim : Claim, claim.index = i ∧ m'.stack = ⟨.claim e claim, m.current⟩ :: m.stack) ∨
      ∃ o, m.stack = o :: m'.stack ∧ m'.current = o.saved ∧
        (o.frame = .other ∨ ∃ claim : Claim, claim.index = i ∧ o.frame = .claim e claim) := by
  have only {s s' : Storage} {epochId index : Word}
      (marked : s'.claimedBitMaps = setClaimed s epochId index)
      (differs : isClaimed s' e i ≠ isClaimed s e i) : (e, i) = (epochId, index) := by
    by_contra other
    refine differs (Bool.eq_iff_iff.mpr ?_)
    rw [isClaimed_setClaimed marked, or_iff_left other]
  cases taken with
  | stay => exact absurd rfl changed
  | act does => cases does <;> exact absurd rfl changed
  | call does =>
    cases does with
    | claim epochId claim =>
      obtain ⟨rfl, rfl⟩ := Prod.mk.inj (only payClaim_bitMaps changed)
      exact .inl ⟨claim, rfl, rfl⟩
    | clawback | other => exact absurd rfl changed
  | commit does => cases does <;> exact absurd rfl changed
  | @rollback stack w f saved =>
    refine .inr ⟨⟨f, saved⟩, rfl, rfl, ?_⟩
    cases f with
    | claim epochId claim =>
      have marked := calls.top.marked _ List.mem_cons_self rfl
      obtain ⟨rfl, rfl⟩ := Prod.mk.inj (only marked changed.symm)
      exact .inr ⟨claim, rfl, rfl⟩
    | clawback sender epochId amount =>
      have marked := calls.top.marked _ List.mem_cons_self rfl
      refine absurd ?_ changed
      rw [isClaimed_eq, isClaimed_eq]
      exact congrArg (fun bits => (bits e (i >>> 8)).getLsbD (i.toNat % 256)) marked.symm
    | other => exact .inl rfl

end Changes

/-- All payments made: those of the calls that succeeded and of the call that is
in its payout, if there is one. -/
def payments (m : Machine) : List Payment := succeeded m.current ++ inPayout m.stack

theorem payments_eq [Keccak] {cfg : Config} {m : Machine} (reached : Reachable cfg m) :
    payments m = m.current.paid.map fun p => Payment.ofClaim p.1 p.2 :=
  reached.calls.top.logged.symm

theorem countP_key {α β : Type} [DecidableEq β] (f : α → β) (l : List α) (b : β) :
    l.countP (f · = b) = (l.map f).count b := by
  rw [List.count, List.countP_map]
  exact List.countP_congr fun a _ => by simp

theorem count_le_one {α β : Type} [DecidableEq β] {f : α → β} {l : List α}
    (distinct : (l.map f).Nodup) (b : β) : l.countP (f · = b) ≤ 1 := by
  rw [countP_key]
  exact List.nodup_iff_count_le_one.mp distinct b

/-- A key that occurs at most once is present when it occurs exactly once. -/
theorem count_eq_one_iff {α β : Type} [DecidableEq β] {f : α → β} {l : List α}
    (distinct : (l.map f).Nodup) (b : β) : l.countP (f · = b) = 1 ↔ b ∈ l.map f := by
  rw [countP_key]
  exact ⟨fun one => List.count_pos_iff.mp (by omega), List.count_eq_one_of_mem distinct⟩

/-- The claim ledger. A pair is marked exactly when one claim call for it was
paid, it is never paid twice, and the claimed total of an epoch is the sum of
what was paid for it. Outside of a payout the paid calls are those that have
succeeded. No step marks a pair but the beginning of a claim for it. -/
theorem claim_ledger [Keccak] (cfg : Config) (m : Machine) (reached : Reachable cfg m)
    (e i : Word) :
    (isClaimed m.current.storage e i = true ↔
      (payments m).countP (fun p => (p.epochId, p.index) = (e, i)) = 1) ∧
    (payments m).countP (fun p => (p.epochId, p.index) = (e, i)) ≤ 1 ∧
    (m.current.storage.epochs e).claimed.toNat =
      (((payments m).filter (·.epochId = e)).map (·.amount.toNat)).sum ∧
    (inPayout m.stack).length ≤ 1 ∧
    ((∀ o ∈ m.stack, o.frame = .other) → payments m = succeeded m.current) ∧
    ∀ l m', step cfg m l = some m' →
      isClaimed m'.current.storage e i ≠ isClaimed m.current.storage e i →
      (∃ claim : Claim, claim.index = i ∧ m'.stack = ⟨.claim e claim, m.current⟩ :: m.stack) ∨
        ∃ o, m.stack = o :: m'.stack ∧ m'.current = o.saved ∧
          (o.frame = .other ∨ ∃ claim : Claim, claim.index = i ∧ o.frame = .claim e claim) := by
  have ledger := reached.ledger.top
  have calls := reached.calls.top
  have count : (payments m).countP (fun p => (p.epochId, p.index) = (e, i)) =
      m.current.paid.countP (claimKey · = (e, i)) := by
    rw [payments_eq reached, List.countP_map]
    rfl
  refine ⟨?_, ?_, ?_, ?_, fun outside => ?_, fun l m' taken changed => ?_⟩
  · rw [count, count_eq_one_iff ledger.distinct]
    exact ledger.claimed_iff e i
  · rw [count]
    exact count_le_one ledger.distinct _
  · rw [ledger.total, payments_eq reached, List.filter_map, List.map_map]
    rfl
  · exact calls.inPayout_length
  · have plain : ∀ o ∈ m.stack, o.frame.guarded = false := fun o member => by
      rw [outside o member]
      rfl
    rw [payments, Calls.inPayout_eq_nil plain, List.append_nil]
  · exact isClaimed_change reached.calls (step_obeys taken) changed

theorem claim_ledger_demo :
    letI := Keccak.rolling
    ∃ m, Reachable Demo.cfg m ∧ isClaimed m.current.storage 1 0 = true ∧
      (payments m).countP (fun p => (p.epochId, p.index) = (1, 0)) = 1 := by
  let := Keccak.rolling
  obtain ⟨m, run, evaluated⟩ := run_of_execute_any
    (show (execute (step Demo.cfg) Demo.labels Demo.start).any
      (fun m => isClaimed m.current.storage 1 0) by decide +kernel)
  have reached : Reachable Demo.cfg m := ⟨_, _, Demo.start_initial, run⟩
  exact ⟨m, reached, evaluated, (claim_ledger Demo.cfg m reached 1 0).1.mp evaluated⟩

end Torium.Rewards
