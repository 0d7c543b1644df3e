import Torium.Faucet.Attribution

/-!
# Keys that were rotated out

A rotation reads the fences and the active key, swaps the key, and journals that the old key is
fenced, in separate steps. Between the swap and the journal nothing keeps the old key from being
installed again: another request to rotate or a restart finds it unfenced. A key is also not
checked again when it is installed, so its fence may have been journaled after the check.

If every rotation is journaled, no two of them overlap and the process is not killed during one,
then a key that passes the check of the handler or of the start was never rotated out.

The state is extended by the keys that were rotated out so far, which the service does not keep.
-/

namespace Torium.Faucet

open Evm Concurrent
open Multiset (mem_add)

/-- The system and the keys that were rotated out. -/
structure Tracked where
  system : System
  out : List Address := []

/-- The key that a command installs. -/
def Command.rotatesTo? : Command → Option Address
  | .rotate address => some address
  | _ => none

/-- The key that a step of the service installs. -/
def System.rotatesTo? (system : System) (label : Label) : Option Address :=
  (system.stage.next? label).bind Command.rotatesTo?

/-- The keys that were rotated out after a command. A key that is replaced by itself is not. -/
def World.outAfter (world : World) (out : List Address) (c : Command) : List Address :=
  match c.rotatesTo? with
  | some address => if address = world.signer then out else world.signer :: out
  | none => out

namespace Tracked

/-- What was rotated out after the step. -/
def outAfter (tracked : Tracked) (label : Label) : List Address :=
  (tracked.system.stage.next? label).elim tracked.out
    (tracked.system.world.outAfter tracked.out)

def step [EthText] [Digest] (profile : Profile) (tracked : Tracked) (label : Label) :
    Option Tracked :=
  (tracked.system.step profile label).map fun system =>
    { system, out := tracked.outAfter label }

/-- The key that a start or a rotation installs. -/
def installs? (tracked : Tracked) : Label → Option Address
  | .start key => some key
  | label => tracked.system.rotatesTo? label

end Tracked

/-- The rotation that a command journals. -/
def Command.rotationWrite? : Command → Option Operation
  | .perform (.recordRotation old new at_) => some (.recordRotation old new at_)
  | _ => none

/-- No handler has still to do with the keys: no request to rotate is in progress. -/
def Stage.Settled : Stage → Prop
  | .serving threads => ∀ program ∈ threads.handlers, IsKeyless program
  | .down | .starting _ => True

namespace Tracked

/-- No key has the zero address, and rotations are journaled when they are written. -/
def Reliable [EthText] [Digest] (tracked : Tracked) (label : Label) : Prop :=
  (∀ key ∈ tracked.installs? label, key ≠ 0) ∧
    ∀ write ∈ (tracked.system.stage.next? label).bind Command.rotationWrite?,
      label.choice = .ok ∧ (tracked.system.world.store.perform ⟨write, none⟩).2 = .done

-- Addresses are finitely many; without the hint all of them would be tried.
instance [EthText] [Digest] (tracked : Tracked) : DecidablePred tracked.Reliable := fun label =>
  @instDecidableAnd _ _ (tracked.installs? label).decidableForallMem
    ((tracked.system.stage.next? label).bind Command.rotationWrite?).decidableForallMem

/-- A request to rotate comes in, and the process is killed, only while no rotation is in
progress. -/
def Sequential (tracked : Tracked) : Label → Prop
  | .crash | .open_ (.rotate _) => tracked.system.stage.Settled
  | _ => True

variable {tracked tracked' : Tracked} {label : Label} {address : Address}

theorem installs_of_rotates (rotates : tracked.system.rotatesTo? label = some address) :
    tracked.installs? label = some address := by
  obtain ⟨⟨world, stage⟩, out⟩ := tracked
  cases label with
  | start key => cases stage <;> cases rotates
  | _ => exact rotates

end Tracked

section Fences

variable [EthText] [Digest] {s : Store}

/-- Only rotations change the fences. -/
theorem Store.perform_fences {call : Call}
    (keyless : (Command.perform call.operation).keyless = true) (address : Address) :
    (s.perform call).1.signerFenced address = s.signerFenced address := by
  obtain alike | ⟨entry, error, drafted, -, journals, -⟩ := perform_cases (s := s) call
  · exact eq_of_core alike.core.symm (signerFenced · address)
  · have other : entry.type ≠ .signerRotated := by
      obtain ⟨sameType, -, -⟩ := Draft.mk.inj drafted
      rw [sameType]
      revert keyless
      cases call.operation <;> simp [Command.keyless]
    rw [← eq_of_core journals.core (signerFenced · address), signerFenced,
      (s.applied entry).fences other]
    rfl

variable [EthText.Lawful] [EthText.Checksummed]

omit [Digest] [EthText.Lawful] in
theorem addressHex_ne_nil (address : Address) : addressHex address ≠ [] := by
  intro empty
  have printed := EthText.Checksummed.toLower_addressHex address
  rw [empty] at printed
  simp [text, toLower] at printed

/-- A rotation that is journaled fences the old key. -/
theorem Store.recordRotation_fences {fault : Option GoString} {old new : Address} {at_ : Time}
    (named : old ≠ 0) (done : (s.perform ⟨.recordRotation old new at_, fault⟩).2 = .done)
    (address : Address) :
    (s.perform ⟨.recordRotation old new at_, fault⟩).1.signerFenced address = true ↔
      address = old ∨ s.signerFenced address = true := by
  obtain ⟨error, failed⟩ | ⟨entry, drafted, journals⟩ := transition_cases (s := s) fault
    .signerRotated at_ ((text "newSigner", addressHex new) ::
      if old ≠ 0 then [(text "oldSigner", addressHex old)] else [])
  · have outcome : Outcome.ofError (s.recordRotation fault old new at_).2 = .done := done
    rw [recordRotation, failed] at outcome
    cases outcome
  · obtain ⟨sameType, -, samePayload⟩ := Draft.mk.inj drafted
    have payload : entry.payload.get "oldSigner" = addressHex old := by
      rw [samePayload, if_pos named]
      rfl
    have fences : (s.applyEntry entry).1.fencedKeys =
        Function.update s.fencedKeys old (some entry.at_) := by
      rw [applyEntry, sameType]
      simp only [applyRotated]
      rw [payload, if_pos (addressHex_ne_nil old), EthText.Lawful.hexToAddress_addressHex]
    change signerFenced (s.transition fault .signerRotated at_ _).1 address = true ↔ _
    rw [← eq_of_core journals.core (signerFenced · address), signerFenced, fences]
    by_cases same : address = old
    · simp [same]
    · simp [same, signerFenced]

end Fences

/-! ## The handler in its phases -/

/-- What a handler that rotates the key may rely on, and what it owes. -/
inductive Charge where
  /-- The handler has not yet looked at the fence of the key. -/
  | asked
  /-- The key was not fenced when the handler looked. -/
  | checked (address : Address)
  /-- The key was rotated out, and its fence is not journaled yet. -/
  | owes (address : Address)
  deriving DecidableEq

/-- The end of a rotation: the fence of the old key is written. -/
def recordSwap (old new : Address) (now : Time) : Program service Reply := do
  match ← call (.perform (.recordRotation old new now)) with
  | .failed error => pure (.deny 500 error.message)
  | .done | .request _ _ | .denied _ | .panicked => do
      call .resetErrorWindow
      pure (.rotated old new)

def journalSwap (old new : Address) : Program service Reply := do
  let now ← call .now
  recordSwap old new now

def installKey (new : Address) : Program service Reply := do
  let old ← call (.rotate new)
  journalSwap old new

def compareActive (new : Address) : Program service Reply := do
  let active ← call .signerAddress
  if new = active then pure (.deny 409 (text "replacement key matches the active signer"))
  else installKey new

theorem handleRotate_eq (new : Address) : handleRotate new = (do
    if ← call (.signerFenced new) then
      pure (.deny 409 (text "replacement key was previously fenced and can never sign again"))
    else compareActive new) := by
  refine bind_congr fun fenced => ite_congr rfl (fun _ => rfl) fun _ => ?_
  refine bind_congr fun active => ite_congr rfl (fun _ => rfl) fun _ => ?_
  refine bind_congr fun old => bind_congr fun now => bind_congr fun outcome => ?_
  cases outcome <;> rfl

/-- How a handler stands: it does not touch the keys any more, or it is at one of the steps of
a rotation. -/
inductive Custodian : Program service Reply → Multiset Charge → Prop where
  | keyless {program} : IsKeyless program → Custodian program 0
  | asked {new} : Custodian (handleRotate new) {.asked}
  | checked {new} : Custodian (compareActive new) {.checked new}
  | installing {new} : Custodian (installKey new) {.checked new}
  | swapped {old new} : Custodian (journalSwap old new) {.owes old}
  | journaling {old new now} : Custodian (recordSwap old new now) {.owes old}

/-- A handler that does not touch the keys any more owns nothing. -/
theorem Custodian.owns_nothing {program : Program service Reply} {owned : Multiset Charge}
    (custodian : Custodian program owned) (keyless : IsKeyless program) : owned = 0 := by
  -- A handler that compares the active key with the new one installs it if they are different.
  have compares {new : Address} (keyless : IsKeyless (compareActive new)) : False := by
    have other : new ≠ new + 1 := by bv_omega
    have rest := keyless.2 (new + 1)
    dsimp only [Program.bind] at rest
    rw [if_neg other] at rest
    cases rest.1
  cases custodian with
  | keyless => rfl
  | asked =>
    rw [handleRotate_eq] at keyless
    exact (compares (keyless.2 false)).elim
  | checked => exact (compares keyless).elim
  | installing => cases keyless.1
  | swapped => cases (keyless.2 0).1
  | journaling => cases keyless.1

theorem owns_nothing_of_settled {programs : List (Program service Reply)}
    {owned : Multiset Charge} (shares : Shares Custodian programs owned)
    (settled : ∀ program ∈ programs, IsKeyless program) : owned = 0 := by
  induction shares with
  | nil => rfl
  | cons custodian _ ih =>
    obtain ⟨here, there⟩ := List.forall_mem_cons.mp settled
    rw [custodian.owns_nothing here, ih there, add_zero]

/-- The keys and their fences are the same. -/
def World.SameKeys (world world' : World) : Prop :=
  world'.signer = world.signer ∧
    ∀ address, world'.store.signerFenced address = world.store.signerFenced address

theorem World.mem_outAfter {world : World} {out : List Address} {new address : Address} :
    address ∈ world.outAfter out (.rotate new) ↔
      (new ≠ world.signer ∧ address = world.signer) ∨ address ∈ out := by
  dsimp only [outAfter, Command.rotatesTo?]
  split_ifs with same <;> simp [same]

theorem World.outAfter_keyless {world : World} {out : List Address} {c : Command}
    (keyless : c.keyless = true) : world.outAfter out c = out := by
  cases c with
  | rotate => cases keyless
  | _ => rfl

section Custody

variable [EthText] [Digest]

/-- What a command of a handler does to the keys, and to what the handler relies on and owes. -/
inductive Move (world : World) : Command → World → Multiset Charge → Multiset Charge → Prop where
  | keep {c world' own} : c.keyless = true → world.SameKeys world' → Move world c world' own own
  | drop {c world' charge} : c.keyless = true → world.SameKeys world' →
      (∀ address, charge ≠ .owes address) → Move world c world' {charge} 0
  | check {c world' new} : c.keyless = true → world.SameKeys world' →
      world'.store.signerFenced new = false → Move world c world' {.asked} {.checked new}
  | swap {new} : Move world (.rotate new) { world with signer := new } {.checked new}
      {.owes world.signer}
  | journal {old new at_} :
      (world.store.perform ⟨.recordRotation old new at_, none⟩).2 = .done →
      Move world (.perform (.recordRotation old new at_))
        { world with store := (world.store.perform ⟨.recordRotation old new at_, none⟩).1 }
        {.owes old} 0

variable {world world' : World} {own owned others : Multiset Charge} {out : List Address}
variable {c : Command} {choice : Choice}

/-- A command that leaves the keys alone. -/
theorem execute_keyless {response : Response c} (keyless : c.keyless = true)
    (executed : execute c choice world = some (response, world')) : world.SameKeys world' := by
  cases execute_effect executed with
  | store => exact ⟨rfl, Store.perform_fences keyless⟩
  | signer => cases keyless
  | _ => exact ⟨rfl, fun _ => rfl⟩

theorem IsKeyless.step {α : Type} {program program' : Program service α}
    (keyless : IsKeyless program)
    (taken : program.step execute choice world = some (program', world')) :
    IsKeyless program' ∧ ∃ c, program.next? = some c ∧ c.keyless = true ∧
      world.SameKeys world' := by
  obtain ⟨c, response, next, here, executed, keyless'⟩ := keyless.step_cases taken
  exact ⟨keyless', c, next, here, execute_keyless here executed⟩

/-- A step of a handler. -/
theorem Custodian.step {program program' : Program service Reply}
    (custodian : Custodian program own)
    (written : ∀ c, program.next? = some c → ∀ write ∈ c.rotationWrite?,
      choice = .ok ∧ (world.store.perform ⟨write, none⟩).2 = .done)
    (taken : program.step execute choice world = some (program', world')) :
    ∃ c own', program.next? = some c ∧ Custodian program' own' ∧ Move world c world' own own' := by
  cases custodian with
  | keyless keyless =>
    obtain ⟨keyless', c, next, here, same⟩ := keyless.step taken
    exact ⟨c, 0, next, .keyless keyless', .keep here same⟩
  | @asked new =>
    rw [handleRotate_eq] at taken
    obtain ⟨fenced, executed, rfl⟩ := Program.step_command taken
    have same := execute_keyless (c := .signerFenced new) rfl executed
    obtain rfl : world.store.signerFenced new = fenced := World.reads_value executed
    refine ⟨.signerFenced new, ?_⟩
    split_ifs with fenced
    · exact ⟨0, rfl, .keyless trivial, .drop rfl same fun _ => Charge.noConfusion⟩
    · refine ⟨_, rfl, .checked, .check rfl same ?_⟩
      rw [same.2]
      exact eq_false_of_ne_true fenced
  | @checked new =>
    obtain ⟨active, executed, rfl⟩ := Program.step_command taken
    have same := execute_keyless (c := .signerAddress) rfl executed
    refine ⟨.signerAddress, ?_⟩
    split_ifs
    · exact ⟨0, rfl, .keyless trivial, .drop rfl same fun _ => Charge.noConfusion⟩
    · exact ⟨_, rfl, .installing, .keep rfl same⟩
  | @installing new =>
    obtain ⟨old, executed, rfl⟩ := Program.step_command taken
    cases choice <;> cases executed
    exact ⟨.rotate new, _, rfl, .swapped, .swap⟩
  | @swapped old new =>
    obtain ⟨now, executed, rfl⟩ := Program.step_command taken
    exact ⟨.now, _, rfl, .journaling, .keep rfl (execute_keyless (c := .now) rfl executed)⟩
  | @journaling old new now =>
    obtain ⟨rfl, done⟩ := written _ rfl (.recordRotation old new now) rfl
    obtain ⟨outcome, executed, rfl⟩ := Program.step_command taken
    have ran : World.perform.run world (.recordRotation old new now) none =
        some (outcome, world') := executed
    obtain ⟨-, rfl, rfl⟩ := World.perform_run ran
    rw [done]
    exact ⟨.perform (.recordRotation old new now), 0, rfl,
      .keyless (.bind (only_call rfl) fun _ => trivial), .journal done⟩

/-! ## The service -/

/-- What is known of the keys and of those that were rotated out: while the process does not
serve requests, and while its handlers own the given charges. -/
structure Custody where
  down : World → List Address → Prop
  serving : Multiset Charge → World → List Address → Prop

variable (C : Custody) (profile : Profile)

omit [EthText] [Digest] in
/-- The custody is kept. All threads but the handlers leave the keys alone. -/
def Tracked.Kept (tracked : Tracked) : Prop :=
  match tracked.system.stage with
  | .down => C.down tracked.system.world tracked.out
  | .starting program => IsKeyless program ∧ C.down tracked.system.world tracked.out ∧
      C.serving 0 tracked.system.world tracked.out
  | .serving threads => IsKeyless threads.worker ∧ IsKeyless threads.probe ∧
      ∃ owned, Shares Custodian threads.handlers owned ∧
        C.serving owned tracked.system.world tracked.out

/-- What has to be shown of a custody that is kept by the steps that are allowed. -/
structure Custody.Preserved (allowed : Tracked → Label → Prop) : Prop where
  frame : ∀ {world world' out}, world.SameKeys world' →
    (C.down world out → C.down world' out) ∧
      ∀ owned, C.serving owned world out → C.serving owned world' out
  boots : ∀ {tracked key system}, allowed tracked (.start key) →
    C.down tracked.system.world tracked.out → boot profile tracked.system.world key = some system →
      C.down system.world tracked.out ∧ C.serving 0 system.world tracked.out
  crashes : ∀ {tracked owned}, allowed tracked .crash →
    (tracked.system.stage.Settled → owned = 0) →
    C.serving owned tracked.system.world tracked.out → C.down tracked.system.world tracked.out
  opens : ∀ {tracked owned new}, allowed tracked (.open_ (.rotate new)) →
    (tracked.system.stage.Settled → owned = 0) →
    C.serving owned tracked.system.world tracked.out →
      C.serving ({.asked} + owned) tracked.system.world tracked.out
  moves : ∀ {tracked label c world' own own' others}, allowed tracked label →
    tracked.system.stage.next? label = some c → Move tracked.system.world c world' own own' →
    C.serving (own + others) tracked.system.world tracked.out →
      C.serving (own' + others) world' (tracked.system.world.outAfter tracked.out c)

variable {C profile} {allowed : Tracked → Label → Prop} {tracked tracked' : Tracked} {label : Label}

omit [EthText] [Digest] in
theorem IsKeyless.outAfter {α : Type} {program : Program service α} (keyless : IsKeyless program) :
    program.next?.elim out (world.outAfter out) = out := by
  cases next : program.next? with
  | none => rfl
  | some c => exact World.outAfter_keyless (Program.Only.next keyless next)

namespace Custody.Preserved

variable (preserved : C.Preserved profile allowed)

include preserved

/-- A step of the worker or of the probe. -/
theorem loop {ω : Type} {body : ω → Program service ω} {program program' : Program service ω}
    (again : ∀ state, IsKeyless (body state)) (keyless : IsKeyless program)
    (may : allowed tracked label) (next : tracked.system.stage.next? label = program.next?)
    (holds : C.serving owned tracked.system.world tracked.out)
    (taken : stepLoop body tracked.system.world program choice = some (program', world')) :
    IsKeyless program' ∧ C.serving owned world' (tracked.outAfter label) := by
  rw [Tracked.outAfter, next]
  obtain ⟨state, rfl, rfl, rfl⟩ | stepped := stepLoop_cases taken
  · exact ⟨again state, holds⟩
  · obtain ⟨keyless', c, issued, here, same⟩ := keyless.step stepped
    rw [issued]
    rw [← add_zero owned] at holds ⊢
    exact ⟨keyless', preserved.moves may (next.trans issued) (.keep here same) holds⟩

theorem of_world {stage : Stage} (kept : Tracked.Kept C ⟨⟨world, stage⟩, out⟩)
    (same : world.SameKeys world') : Tracked.Kept C ⟨⟨world', stage⟩, out⟩ := by
  obtain ⟨down, serving⟩ := preserved.frame same
  cases stage with
  | down => exact down kept
  | starting program =>
    obtain ⟨keyless, before, here⟩ := kept
    exact ⟨keyless, down before, serving 0 here⟩
  | serving threads =>
    obtain ⟨worker, probe, owned, shares, here⟩ := kept
    exact ⟨worker, probe, owned, shares, serving owned here⟩

/-- Every step that is allowed keeps the custody. -/
theorem step (kept : tracked.Kept C) (may : allowed tracked label)
    (reliable : tracked.Reliable label) (taken : tracked.step profile label = some tracked') :
    tracked'.Kept C := by
  obtain ⟨system', taken', rfl⟩ := Option.map_eq_some_iff.mp taken
  obtain ⟨system, out⟩ := tracked
  rw [Tracked.outAfter]
  cases System.step_takes taken' with
  | start booted =>
    have served := preserved.boots may kept booted
    obtain ⟨store, -, -, rfl⟩ := boot_cases booted
    exact ⟨discreet_reconcile.right, served⟩
  | @crash world stage =>
    rw [Stage.next?_of_crash]
    cases stage with
    | down => exact kept
    | starting => exact kept.2.1
    | serving threads =>
      obtain ⟨-, -, owned, shares, here⟩ := kept
      have down := preserved.crashes may (owns_nothing_of_settled shares) here
      exact down
  | shutdown =>
    rw [Stage.next?_of_shutdown]
    exact preserved.of_world kept ⟨rfl, fun _ => rfl⟩
  | @main world world' program program' choice stepped =>
    obtain ⟨keyless, before, here⟩ := kept
    obtain ⟨keyless', c, -, -, same⟩ := keyless.step stepped
    obtain ⟨down, serving⟩ := preserved.frame same
    refine ⟨keyless', ?_⟩
    rw [show Stage.next? (.starting program) (.main choice) = program.next? from rfl,
      keyless.outAfter]
    exact ⟨down before, serving 0 here⟩
  | ready =>
    exact ⟨keyless_workerTurn profile .waiting, (idle_probeOnce profile none).right, 0, .nil,
      kept.2.2⟩
  | abort => exact kept.2.1
  | worker stepped =>
    obtain ⟨worker, probe, owned, shares, here⟩ := kept
    obtain ⟨worker', here'⟩ :=
      preserved.loop (keyless_workerTurn profile) worker may rfl here stepped
    rw [Tracked.outAfter] at here'
    exact ⟨worker', probe, owned, shares, here'⟩
  | probe stepped =>
    obtain ⟨worker, probe, owned, shares, here⟩ := kept
    obtain ⟨probe', here'⟩ := preserved.loop
      (fun probed => (idle_probeOnce profile probed).right) probe may rfl here stepped
    rw [Tracked.outAfter] at here'
    exact ⟨worker, probe', owned, shares, here'⟩
  | @open_ world threads request =>
    obtain ⟨worker, probe, owned, shares, here⟩ := kept
    refine ⟨worker, probe, ?_⟩
    cases request with
    | rotate new =>
      have asked := preserved.opens may (owns_nothing_of_settled shares) here
      exact ⟨_, shares.add .asked, asked⟩
    | _ => exact ⟨_, shares.snoc (.keyless (keyless_handler profile (by simp))), here⟩
  | @handler world world' threads index program program' choice found stepped =>
    obtain ⟨worker, probe, owned, shares, here⟩ := kept
    obtain ⟨own, others, rfl, custodian, back⟩ := shares.focus found
    have issues {c : Command} (issued : program.next? = some c) :
        Stage.next? (.serving threads) (.handler index choice) = some c :=
      Stage.next?_of_handler found issued
    obtain ⟨c, own', issued, custodian', move⟩ := custodian.step (fun c issued write writes => by
      refine reliable.2 write ?_
      rw [issues issued]
      exact writes) stepped
    rw [issues issued]
    exact ⟨worker, probe, own' + others, back custodian',
      preserved.moves may (issues issued) move here⟩
  | chain stepped =>
    rw [Stage.next?_of_chain]
    exact preserved.of_world kept ⟨rfl, fun _ => rfl⟩

end Custody.Preserved

end Custody

/-! ## One rotation after the other -/

/-- The active key was not rotated out. The keys that were are fenced, or the one handler that
rotates the key owes it. -/
structure World.Alone (owned : Multiset Charge) (world : World) (out : List Address) : Prop where
  current : world.signer ∉ out
  named : world.signer ≠ 0
  single : owned.card ≤ 1
  fenced : ∀ address ∈ out, world.store.signerFenced address = true ∨ .owes address ∈ owned
  owed : ∀ address, .owes address ∈ owned → address ≠ 0
  checked : ∀ address, .checked address ∈ owned → world.store.signerFenced address = false

/-- While no rotation is in progress, all keys that were rotated out are fenced. -/
def succession : Custody where
  down world out := world.signer ∉ out ∧ ∀ address ∈ out, world.store.signerFenced address = true
  serving owned world out := world.Alone owned out

namespace World.Alone

variable {world world' : World} {owned others : Multiset Charge} {out : List Address}
variable {charge : Charge}

theorem congr (alone : world.Alone owned out) (same : world.SameKeys world') :
    world'.Alone owned out := by
  obtain ⟨signer, fences⟩ := same
  refine ⟨?_, ?_, alone.single, fun address rotated => ?_, alone.owed, fun address member => ?_⟩
  · exact signer ▸ alone.current
  · exact signer ▸ alone.named
  · rw [fences]
    exact alone.fenced address rotated
  · rw [fences]
    exact alone.checked address member

/-- Nothing is owned besides the charge of the one handler. -/
theorem others_eq (alone : world.Alone ({charge} + others) out) :
    others = 0 := by
  have single := alone.single
  rw [Multiset.card_add, Multiset.card_singleton] at single
  exact Multiset.card_eq_zero.mp (by omega)

/-- A handler that has not swapped the key owes nothing. -/
theorem all_fenced (alone : world.Alone ({charge} + others) out)
    (clear : ∀ address, charge ≠ .owes address) (address : Address) (rotated : address ∈ out) :
    world.store.signerFenced address = true := by
  refine (alone.fenced address rotated).resolve_right fun owed => clear address ?_
  rw [alone.others_eq, add_zero] at owed
  exact (Multiset.mem_singleton.mp owed).symm

/-- No handler has to do with the keys, and all keys that were rotated out are fenced. -/
theorem of_fenced (current : world.signer ∉ out) (named : world.signer ≠ 0)
    (fenced : ∀ address ∈ out, world.store.signerFenced address = true) : world.Alone 0 out :=
  ⟨current, named, Nat.zero_le 1, fun address rotated => .inl (fenced address rotated),
    fun _ owes => absurd owes (Multiset.notMem_zero _),
    fun _ checked => absurd checked (Multiset.notMem_zero _)⟩

theorem drop (alone : world.Alone ({charge} + others) out)
    (clear : ∀ address, charge ≠ .owes address) : world.Alone (0 + others) out := by
  have fenced := alone.all_fenced clear
  rw [alone.others_eq, add_zero]
  exact .of_fenced alone.current alone.named fenced

theorem check {new : Address} (alone : world.Alone ({.asked} + others) out)
    (unfenced : world.store.signerFenced new = false) :
    world.Alone ({.checked new} + others) out := by
  have fenced := alone.all_fenced fun _ => Charge.noConfusion
  rw [alone.others_eq, add_zero]
  refine ⟨alone.current, alone.named, le_rfl, fun address rotated => .inl (fenced address rotated),
    fun address owes => ?_, fun address checked => ?_⟩
  · cases Multiset.mem_singleton.mp owes
  · cases Multiset.mem_singleton.mp checked
    exact unfenced

/-- A key that has passed the check was not rotated out. -/
theorem swap {new : Address} (alone : world.Alone ({.checked new} + others) out)
    (named : new ≠ 0) :
    World.Alone ({.owes world.signer} + others) { world with signer := new }
      (world.outAfter out (.rotate new)) := by
  have fenced := alone.all_fenced fun _ => Charge.noConfusion
  have unused : new ∉ out := fun rotated => by
    have unfenced := alone.checked new (mem_add.mpr (.inl (Multiset.mem_singleton_self _)))
    exact absurd (fenced new rotated) (ne_true_of_eq_false unfenced)
  rw [alone.others_eq, add_zero]
  refine ⟨?_, named, le_rfl, fun address rotated => ?_, fun address owes => ?_,
    fun address checked => ?_⟩
  · rw [World.mem_outAfter]
    rintro (⟨other, same⟩ | rotated)
    · exact other same
    · exact unused rotated
  · obtain ⟨-, rfl⟩ | rotated := World.mem_outAfter.mp rotated
    · exact .inr (Multiset.mem_singleton_self _)
    · exact .inl (fenced address rotated)
  · cases Multiset.mem_singleton.mp owes
    exact alone.named
  · cases Multiset.mem_singleton.mp checked

/-- The rotation is journaled, and the old key is fenced. -/
theorem journal [EthText] [Digest] [EthText.Lawful] [EthText.Checksummed] {old new : Address}
    {at_ : Time} (alone : world.Alone ({.owes old} + others) out)
    (done : (world.store.perform ⟨.recordRotation old new at_, none⟩).2 = .done) :
    World.Alone (0 + others) { world with
      store := (world.store.perform ⟨.recordRotation old new at_, none⟩).1 } out := by
  have named := alone.owed old (mem_add.mpr (.inl (Multiset.mem_singleton_self _)))
  have fences := Store.recordRotation_fences named done
  have fenced := alone.fenced
  rw [alone.others_eq, add_zero] at fenced ⊢
  refine .of_fenced alone.current alone.named fun address rotated => (fences address).mpr ?_
  exact (fenced address rotated).symm.imp_left fun owes =>
    Charge.owes.inj (Multiset.mem_singleton.mp owes)

end World.Alone

variable {label : Label}

theorem Tracked.Reliable.named [EthText] [Digest] {tracked : Tracked} {new : Address}
    (reliable : tracked.Reliable label)
    (next : tracked.system.stage.next? label = some (.rotate new)) : new ≠ 0 := by
  refine reliable.1 new (Tracked.installs_of_rotates ?_)
  rw [System.rotatesTo?, next]
  rfl

section Service

variable [EthText] [Digest] {profile : Profile}

omit [Digest] in
theorem turns_signed {world world' : World} (turns : world.Turns profile label world') :
    world'.signed = world.signed := by
  cases turns with
  | start booted =>
    obtain ⟨store, -, -, rfl⟩ := boot_cases booted
    rfl
  | _ => rfl

theorem effect_signed {world world' : World} {c : Command} (effect : world.Effect c world') :
    world'.signed = world.signed ∨ ∃ transaction, transaction.sender = world.signer ∧
      world'.signed = world.signed ++ [transaction] := by
  cases effect with
  | signed => exact .inr ⟨_, rfl, rfl⟩
  | _ => exact .inl rfl

/-- What a step signs, it signs with the active key. -/
theorem signed_by_active {system system' : System} {transaction : Transaction}
    (taken : system.step profile label = some system')
    (signs : system'.world.signed = system.world.signed ++ [transaction]) :
    transaction.sender = system.world.signer := by
  have unchanged (same : system'.world.signed = system.world.signed) : False := by
    rw [same] at signs
    simpa using congrArg List.length signs
  obtain ⟨c, -, response, executed⟩ | ⟨-, turns⟩ := System.step_cases taken
  · obtain same | ⟨other, sender, signs'⟩ := effect_signed (execute_effect executed)
    · exact (unchanged same).elim
    · rw [signs'] at signs
      cases List.append_cancel_left signs
      exact sender
  · exact (unchanged (turns_signed turns)).elim

variable [EthText.Lawful] [EthText.Checksummed]

/-- The start and the handlers refuse the keys that were rotated out. -/
theorem succession_preserved : succession.Preserved profile fun tracked label =>
    tracked.system.world.store.Faithful profile ∧ tracked.Reliable label ∧
      tracked.Sequential label where
  frame same := by
    refine ⟨fun ⟨current, fenced⟩ => ⟨same.1 ▸ current, fun address rotated => ?_⟩,
      fun owned alone => alone.congr same⟩
    exact (same.2 address).trans (fenced address rotated)
  boots := by
    rintro tracked key system ⟨faithful, reliable, -⟩ ⟨-, fenced⟩ booted
    obtain ⟨store, opened, unfenced, rfl⟩ := boot_cases booted
    have fenced' (address : Address) (rotated : address ∈ tracked.out) :
        store.signerFenced address = true := by
      rw [Store.eq_of_core (faithful.reopened opened) (Store.signerFenced · address)]
      exact fenced address rotated
    have unused : key ∉ tracked.out := fun rotated =>
      absurd (fenced' key rotated) (ne_true_of_eq_false unfenced)
    exact ⟨⟨unused, fenced'⟩, .of_fenced unused (reliable.1 key rfl) fenced'⟩
  crashes := by
    rintro tracked owned ⟨-, -, settled⟩ nothing alone
    obtain rfl := nothing settled
    exact ⟨alone.current, fun address rotated =>
      (alone.fenced address rotated).resolve_right (Multiset.notMem_zero _)⟩
  opens := by
    rintro tracked owned new ⟨-, -, settled⟩ nothing alone
    obtain rfl := nothing settled
    refine ⟨alone.current, alone.named, le_rfl, fun address rotated => ?_, fun address owes => ?_,
      fun address checked => ?_⟩
    · exact .inl ((alone.fenced address rotated).resolve_right (Multiset.notMem_zero _))
    · cases Multiset.mem_singleton.mp owes
    · cases Multiset.mem_singleton.mp checked
  moves := by
    rintro tracked label c world' own own' others ⟨-, reliable, -⟩ next move alone
    cases move with
    | keep keyless same =>
      rw [World.outAfter_keyless keyless]
      exact World.Alone.congr alone same
    | drop keyless same clear =>
      rw [World.outAfter_keyless keyless]
      exact (World.Alone.congr alone same).drop clear
    | check keyless same unfenced =>
      rw [World.outAfter_keyless keyless]
      exact (World.Alone.congr alone same).check unfenced
    | swap => exact World.Alone.swap alone (reliable.named next)
    | journal done => exact World.Alone.journal alone done

end Service

/-- In every run in which rotations are journaled, do not overlap and are not cut off by a kill, a
key that was rotated out signs nothing. -/
theorem rotated_out_never_signs [EthText] [Digest] [EthText.Lawful] [EthText.Checksummed]
    {profile : Profile} {start : System} {tracked tracked' : Tracked} {labels : List Label}
    {label : Label} {transaction : Transaction} (initial : start.Initial profile)
    (run : Transition.Run (Tracked.step profile)
      (fun tracked label => tracked.Reliable label ∧ tracked.Sequential label) labels
      { system := start } tracked)
    (taken : tracked.step profile label = some tracked')
    (signs : tracked'.system.world.signed = tracked.system.world.signed ++ [transaction]) :
    transaction.sender ∉ tracked.out := by
  have kept : tracked.system.world.store.Faithful profile ∧ tracked.Kept succession := by
    refine run.invariant (I := fun tracked =>
      tracked.system.world.store.Faithful profile ∧ tracked.Kept succession) ?_ ?_
    · obtain ⟨signer, nonces, height, rfl⟩ := initial
      refine ⟨.opened (show newStore (openJournal []) [] profile = .ok _ from rfl), ?_⟩
      exact ⟨List.not_mem_nil, fun _ rotated => absurd rotated List.not_mem_nil⟩
    · rintro tracked label tracked' ⟨faithful, kept⟩ allowed taken
      refine ⟨?_, succession_preserved.step kept ⟨faithful, allowed⟩ allowed.1 taken⟩
      obtain ⟨system', stepped, rfl⟩ := Option.map_eq_some_iff.mp taken
      exact System.step_store faithful stepped (fun _ _ _ _ => faithful.perform _)
        fun _ opened => .opened opened
  have current : tracked.system.world.signer ∉ tracked.out := by
    obtain ⟨⟨world, stage⟩, out⟩ := tracked
    cases stage with
    | down => exact kept.2.1
    | starting => exact kept.2.2.1.1
    | serving =>
      obtain ⟨-, -, -, owned, -, alone⟩ := kept
      exact World.Alone.current alone
  obtain ⟨system', stepped, rfl⟩ := Option.map_eq_some_iff.mp taken
  rw [signed_by_active stepped signs]
  exact current

theorem IsKeyless.of_done {α : Type} {program : Program service α}
    (done : program.next?.isNone = true) : IsKeyless program := by
  cases program with
  | done value => trivial
  | call c next => cases done

namespace Demo

/-- The service starts with the first key. -/
def serving : List Label := [.start 32, .main .ok, .main .ok]

def journaling (index : Nat) (choice : Choice) : List Label :=
  List.map (.handler index) [.clock noon, choice]

/-- A rotation that has swapped the key is journaled and comes to its end. -/
def ending (index : Nat) : List Label := journaling index .ok ++ [.handler index .ok]

/-- The service is paused and drained, up to the signature of the drain. -/
def draining (index : Nat) : List Label :=
  .open_ (.pause (text "operator pause")) :: List.map (.handler index) [.clock noon, .ok] ++
    .open_ (.drain 5) :: List.map (.handler (index + 1))
      [.ok, .answer 7777, .ok, .answer 1000000, .answer 0, .answer 7, .answer 1]

/-- The first rotation fails to be journaled, and a second one goes back. -/
def unjournaled : List Label :=
  serving ++ rotating 0 48 ++ journaling 0 (.write (text "no space left on device")) ++
    rotating 1 32 ++ journaling 1 .ok ++ draining 2

/-- The process is killed before the rotation is journaled and starts with the old key. -/
def killed : List Label :=
  serving ++ rotating 0 48 ++ [.crash] ++ serving ++ draining 0

/-- A second rotation finds the first key unfenced. It installs that key after the first
rotation was journaled. -/
def overlapping : List Label :=
  serving ++ rotating 0 48 ++ .open_ (.rotate 32) :: List.map (.handler 1) [.ok, .ok] ++
    journaling 0 .ok ++ [.handler 1 .ok] ++ journaling 1 .ok ++ draining 2

/-- Two rotations, a restart with the key that is active by then, and a third rotation. -/
def succeeding : List Label :=
  serving ++ rotating 0 48 ++ ending 0 ++ rotating 1 64 ++ ending 1 ++
    [.crash, .start 64, .main .ok, .main .ok] ++ rotating 0 80 ++ ending 0 ++ draining 1

/-- The handlers of a process that serves requests have come to their ends. -/
def ended (system : System) : Bool :=
  match system.stage with
  | .serving threads => threads.handlers.all fun program => program.next?.isNone
  | .down | .starting _ => false

theorem of_ended {system : System} (ends : ended system = true) :
    ∃ threads, system.stage = .serving threads ∧ ∀ program ∈ threads.handlers,
      IsKeyless program := by
  obtain ⟨world, stage⟩ := system
  cases stage with
  | serving threads =>
    exact ⟨threads, rfl, fun program member => .of_done (List.all_eq_true.mp ends program member)⟩
  | down | starting => cases ends

/-- Requests to rotate and kills wait until all handlers have come to their ends. -/
def waits (tracked : Tracked) : Label → Bool
  | .crash | .open_ (.rotate _) => ended tracked.system
  | _ => true

theorem sequential_of_waits {tracked : Tracked} (waiting : waits tracked label = true) :
    tracked.Sequential label := by
  have settled (ends : ended tracked.system = true) : tracked.system.stage.Settled := by
    obtain ⟨threads, serving, keyless⟩ := of_ended ends
    rw [serving]
    exact keyless
  cases label with
  | crash => exact settled waiting
  | open_ request =>
    cases request with
    | rotate => exact settled waiting
    | _ => trivial
  | _ => trivial

end Demo

theorem rotated_out_key_signs :
    Demo.system.Initial Demo.profile ∧
      ∀ case ∈ [(Demo.unjournaled, 3), (Demo.killed, 1), (Demo.overlapping, 3)],
        ∃ tracked tracked' transaction,
          @Transition.Run _ _ (@Tracked.step lowerHex Digest.numbered Demo.profile)
            Transition.Free case.1 { system := Demo.system } tracked ∧
          @Tracked.step lowerHex Digest.numbered Demo.profile tracked
            (.handler case.2 (.hash 1)) = some tracked' ∧
          tracked'.system.world.signed = tracked.system.world.signed ++ [transaction] ∧
          transaction.sender ∈ tracked.out := by
  have evaluated : ∀ case ∈ [(Demo.unjournaled, 3), (Demo.killed, 1), (Demo.overlapping, 3)],
      (Transition.execute (@Tracked.step lowerHex Digest.numbered Demo.profile) case.1
        { system := Demo.system }).any fun tracked =>
          (@Tracked.step lowerHex Digest.numbered Demo.profile tracked
            (.handler case.2 (.hash 1))).any fun tracked' =>
              ∃ transaction ∈ tracked'.system.world.signed,
                tracked'.system.world.signed = tracked.system.world.signed ++ [transaction] ∧
                  transaction.sender ∈ tracked.out := by
    decide +kernel
  refine ⟨⟨32, _, _, rfl⟩, fun case listed => ?_⟩
  obtain ⟨tracked, run, signing⟩ := Transition.run_of_execute_any (evaluated case listed)
  obtain ⟨tracked', stepped, found⟩ := (Option.any_eq_true _ _).mp signing
  obtain ⟨transaction, -, signs, rotated⟩ := of_decide_eq_true found
  exact ⟨tracked, tracked', transaction, run, stepped, signs, rotated⟩

theorem rotated_out_never_signs_demo :
    ∃ tracked tracked' transaction,
      @Transition.Run _ _ (@Tracked.step lowerHex Digest.numbered Demo.profile)
        (fun tracked label => @Tracked.Reliable lowerHex Digest.numbered tracked label ∧
          tracked.Sequential label) Demo.succeeding { system := Demo.system } tracked ∧
      @Tracked.step lowerHex Digest.numbered Demo.profile tracked (.handler 2 (.hash 1)) =
        some tracked' ∧
      tracked'.system.world.signed = tracked.system.world.signed ++ [transaction] ∧
      tracked.out = [64, 48, 32] ∧ transaction.sender ∉ tracked.out := by
  obtain ⟨tracked, run, signing⟩ := Transition.run_of_execute_any
    (show (Transition.execute
      (@Transition.restrict _ _ (@Tracked.step lowerHex Digest.numbered Demo.profile)
        (fun tracked label => @Tracked.Reliable lowerHex Digest.numbered tracked label ∧
          Demo.waits tracked label = true) fun _ _ => inferInstance)
      Demo.succeeding { system := Demo.system }).any (fun tracked =>
        tracked.out = [64, 48, 32] ∧ (@Tracked.step lowerHex Digest.numbered Demo.profile tracked
          (.handler 2 (.hash 1))).any fun tracked' =>
            ∃ transaction ∈ tracked'.system.world.signed,
              tracked'.system.world.signed = tracked.system.world.signed ++ [transaction]) by
      decide +kernel)
  have run := run.of_restrict.mono fun _ _ allowed =>
    And.intro allowed.1 (Demo.sequential_of_waits allowed.2)
  obtain ⟨out, signing⟩ := of_decide_eq_true signing
  obtain ⟨tracked', stepped, found⟩ := (Option.any_eq_true _ _).mp signing
  obtain ⟨transaction, -, signs⟩ := of_decide_eq_true found
  exact ⟨tracked, tracked', transaction, run, stepped, signs, out,
    @rotated_out_never_signs lowerHex Digest.numbered lowerHex_lawful lowerHex_checksummed
      _ _ _ _ _ _ _ ⟨32, _, _, rfl⟩ run stepped signs⟩

end Torium.Faucet
