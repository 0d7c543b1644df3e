import Torium.Faucet.Rotation

/-!
# The fence around the active key

Two rotations to one key that have both passed the checks fence it while it is active: the
second one replaces the key by itself. A rotation back to a key whose fence is not journaled yet
ends with that key fenced, too.

As long as no swap installs the active key or a key that was active before, a handler that
has swapped the key owes the fence of the old one, and nobody else touches it.
-/

namespace Torium.Faucet

open Evm Concurrent
open Multiset (mem_add mem_singleton mem_singleton_self)

namespace Tracked

/-- What is taken for granted: the process is not killed, no key has the zero address, and
rotations are journaled when they are written. -/
def Undisturbed [EthText] [Digest] (tracked : Tracked) (label : Label) : Prop :=
  label ≠ .crash ∧ tracked.Reliable label

instance [EthText] [Digest] (tracked : Tracked) : DecidablePred tracked.Undisturbed :=
  fun _ => instDecidableAnd

/-- No swap installs the active key or a key that was active before. -/
def Fresh (tracked : Tracked) (label : Label) : Prop :=
  ∀ key ∈ tracked.system.rotatesTo? label, key ≠ tracked.system.world.signer ∧ key ∉ tracked.out

instance (tracked : Tracked) : DecidablePred tracked.Fresh := fun label =>
  (tracked.system.rotatesTo? label).decidableForallMem

end Tracked

/-- The active key is not fenced, and the keys that were active before are fenced, or a handler
owes it. -/
structure World.Guarded (owned : Multiset Charge) (world : World) (out : List Address) : Prop where
  unfenced : world.store.signerFenced world.signer = false
  current : world.signer ∉ out
  named : world.signer ≠ 0
  fenced : ∀ address ∈ out, world.store.signerFenced address = true ∨ .owes address ∈ owned
  owed : ∀ address, .owes address ∈ owned → address ∈ out ∧ address ≠ 0
  checked : ∀ address, .checked address ∈ owned → world.store.signerFenced address = true →
    address ∈ out

/-- No key was rotated out in a process that does not serve requests yet. -/
def custody : Custody where
  down _ out := out = []
  serving owned world out := world.Guarded owned out

namespace World.Guarded

variable {world world' : World} {owned others : Multiset Charge} {out : List Address}

theorem congr (guarded : world.Guarded owned out) (same : world.SameKeys world') :
    world'.Guarded owned out := by
  obtain ⟨signer, fences⟩ := same
  obtain ⟨unfenced, current, named, fenced, owed, checked⟩ := guarded
  exact ⟨by rw [fences, signer, unfenced], signer ▸ current, signer ▸ named,
    fun address out => fences address ▸ fenced address out, owed,
    fun address member => fences address ▸ checked address member⟩

/-- The handlers own other charges, and owe the same fences but for those that are journaled. -/
theorem exchange {owned' : Multiset Charge} (guarded : world.Guarded owned out)
    (kept : ∀ address, .owes address ∈ owned → world.store.signerFenced address = true ∨
      .owes address ∈ owned')
    (owed : ∀ address, .owes address ∈ owned' → .owes address ∈ owned)
    (checked : ∀ address, .checked address ∈ owned' → .checked address ∈ owned ∨
      world.store.signerFenced address = false) : world.Guarded owned' out := by
  refine ⟨guarded.unfenced, guarded.current, guarded.named, fun address rotated => ?_,
    fun address member => guarded.owed address (owed address member),
    fun address member fenced => ?_⟩
  · exact (guarded.fenced address rotated).elim .inl (kept address)
  · obtain before | unfenced := checked address member
    · exact guarded.checked address before fenced
    · exact absurd fenced (ne_true_of_eq_false unfenced)

theorem drop {charge : Charge} (guarded : world.Guarded ({charge} + others) out)
    (kept : ∀ address, charge = .owes address → world.store.signerFenced address = true) :
    world.Guarded (0 + others) out := by
  rw [zero_add]
  refine guarded.exchange (fun address member => ?_) (fun _ owed => mem_add.mpr (.inr owed))
    fun _ checked => .inl (mem_add.mpr (.inr checked))
  exact (mem_add.mp member).imp_left fun same => kept address (mem_singleton.mp same).symm

theorem check {new : Address} (guarded : world.Guarded ({.asked} + others) out)
    (unfenced : world.store.signerFenced new = false) :
    world.Guarded ({.checked new} + others) out := by
  refine guarded.exchange (fun _ owed => .inr (by simpa using owed)) (by simp)
    fun address member => ?_
  obtain same | checked := mem_add.mp member
  · cases mem_singleton.mp same
    exact .inr unfenced
  · exact .inl (mem_add.mpr (.inr checked))

/-- The key is swapped, and the handler owes the fence of the old one. -/
theorem swap {new : Address} (guarded : world.Guarded ({.checked new} + others) out)
    (named : new ≠ 0) (other : new ≠ world.signer) (unused : new ∉ out) :
    World.Guarded ({.owes world.signer} + others) { world with signer := new }
      (world.outAfter out (.rotate new)) := by
  have noted : world.outAfter out (.rotate new) = world.signer :: out := if_neg other
  rw [noted]
  refine ⟨?_, ?_, named, fun address rotated => ?_, fun address member => ?_,
    fun address member fenced => ?_⟩
  · refine eq_false_of_ne_true fun fenced => unused (guarded.checked new ?_ fenced)
    exact mem_add.mpr (.inl (mem_singleton_self _))
  · rw [List.mem_cons, not_or]
    exact ⟨other, unused⟩
  · obtain rfl | rotated := List.mem_cons.mp rotated
    · exact .inr (mem_add.mpr (.inl (mem_singleton_self _)))
    · refine (guarded.fenced address rotated).imp_right fun owed => mem_add.mpr (.inr ?_)
      simpa using owed
  · obtain here | there := mem_add.mp member
    · cases mem_singleton.mp here
      exact ⟨List.mem_cons_self, guarded.named⟩
    · obtain ⟨rotated, named⟩ := guarded.owed address (mem_add.mpr (.inr there))
      exact ⟨List.mem_cons_of_mem _ rotated, named⟩
  · refine List.mem_cons_of_mem _ (guarded.checked address (mem_add.mpr (.inr ?_)) fenced)
    simpa using member

/-- The fence is journaled, and nothing is owed for it any more. -/
theorem journal [EthText] [Digest] [EthText.Lawful] [EthText.Checksummed] {old new : Address}
    {at_ : Time} (guarded : world.Guarded ({.owes old} + others) out)
    (done : (world.store.perform ⟨.recordRotation old new at_, none⟩).2 = .done) :
    World.Guarded (0 + others) { world with
      store := (world.store.perform ⟨.recordRotation old new at_, none⟩).1 } out := by
  obtain ⟨rotated, named⟩ :=
    guarded.owed old (mem_add.mpr (.inl (mem_singleton_self _)))
  have fences := Store.recordRotation_fences named done
  obtain ⟨unfenced, current, activeNamed, fenced, owed, checked⟩ := guarded
  refine World.Guarded.drop ⟨?_, current, activeNamed, fun address out => ?_, owed,
    fun address member fenced => ?_⟩ ?_
  · refine eq_false_of_ne_true fun fenced => ?_
    obtain same | before := (fences _).mp fenced
    · exact current (same ▸ rotated)
    · rw [unfenced] at before
      cases before
  · exact (fenced address out).imp_left fun here => (fences address).mpr (.inr here)
  · obtain rfl | before := (fences address).mp fenced
    · exact rotated
    · exact checked address member before
  · rintro address ⟨⟩
    exact (fences old).mpr (.inl rfl)

end World.Guarded

theorem custody_preserved [EthText] [Digest] [EthText.Lawful] [EthText.Checksummed]
    (profile : Profile) : custody.Preserved profile fun tracked label =>
      tracked.Undisturbed label ∧ tracked.Fresh label where
  frame same := ⟨id, fun owned guarded => guarded.congr same⟩
  boots := by
    rintro tracked key system ⟨⟨-, reliable⟩, -⟩ empty booted
    obtain ⟨store, -, unfenced, rfl⟩ := boot_cases booted
    have empty : tracked.out = [] := empty
    refine ⟨empty, unfenced, ?_, reliable.1 key rfl, ?_, by simp, by simp⟩ <;> simp [empty]
  crashes undisturbed := absurd rfl undisturbed.1.1
  opens _ _ guarded := World.Guarded.exchange guarded
    (fun _ owed => .inr (mem_add.mpr (.inr owed))) (fun _ owed => by simpa using owed)
    fun _ checked => .inl (by simpa using checked)
  moves := by
    rintro tracked label c world' own own' others ⟨⟨-, reliable⟩, fresh⟩ next move guarded
    cases move with
    | keep keyless same =>
      rw [World.outAfter_keyless keyless]
      exact World.Guarded.congr guarded same
    | drop keyless same clear =>
      rw [World.outAfter_keyless keyless]
      exact (World.Guarded.congr guarded same).drop fun address owes => absurd owes (clear address)
    | check keyless same unfenced =>
      rw [World.outAfter_keyless keyless]
      exact (World.Guarded.congr guarded same).check unfenced
    | @swap new =>
      obtain ⟨other, unused⟩ := fresh new (by rw [System.rotatesTo?, next]; rfl)
      exact World.Guarded.swap guarded (reliable.named next) other unused
    | journal done => exact World.Guarded.journal guarded done

/-- In every run in which no swap installs the active key or a key that was active before, the
active key is not fenced and all keys that were active before it are, whenever no request to
rotate is in progress. -/
theorem active_key_unfenced [EthText] [Digest] [EthText.Lawful] [EthText.Checksummed]
    {profile : Profile} {start : System} {tracked : Tracked} {labels : List Label}
    {threads : Threads} (down : start.stage = .down)
    (run : Transition.Run (Tracked.step profile)
      (fun tracked label => tracked.Undisturbed label ∧ tracked.Fresh label) labels
      { system := start } tracked)
    (serving : tracked.system.stage = .serving threads)
    (settled : ∀ program ∈ threads.handlers, IsKeyless program) :
    tracked.system.world.store.signerFenced tracked.system.world.signer = false ∧
      ∀ address ∈ tracked.out, tracked.system.world.store.signerFenced address = true := by
  have kept : tracked.Kept custody := by
    refine run.invariant (I := Tracked.Kept custody) ?_ fun kept allowed taken =>
      (custody_preserved profile).step kept allowed allowed.1.2 taken
    rw [Tracked.Kept, down]
    rfl
  rw [Tracked.Kept, serving] at kept
  obtain ⟨-, -, owned, shares, guarded⟩ := kept
  obtain rfl := owns_nothing_of_settled shares settled
  exact ⟨guarded.unfenced, fun address rotated =>
    (guarded.fenced address rotated).resolve_right (Multiset.notMem_zero _)⟩

namespace Demo

/-- Two rotations to one key pass their checks before the first of them swaps the key. -/
def rotatedToOne : List Label :=
  serving ++ .open_ (.rotate 48) :: List.map (.handler 0) [.ok, .ok] ++
    rotating 1 48 ++ ending 1 ++ .handler 0 .ok :: ending 0

/-- A rotation back passes its checks before the fence of the first key is journaled. -/
def rotatedBack : List Label :=
  serving ++ rotating 0 48 ++ rotating 1 32 ++ ending 0 ++ ending 1

/-- Three keys, one after the other; the second rotation ends before the first one. -/
def rotatedOn : List Label :=
  serving ++ rotating 0 48 ++ rotating 1 64 ++ ending 1 ++ ending 0

end Demo

theorem rotation_fences_active_key :
    Demo.system.stage = .down ∧ ∀ labels ∈ [Demo.rotatedToOne, Demo.rotatedBack],
      ∃ tracked threads,
        @Transition.Run _ _ (@Tracked.step lowerHex Digest.numbered Demo.profile)
          (@Tracked.Undisturbed lowerHex Digest.numbered) labels { system := Demo.system } tracked ∧
        tracked.system.stage = .serving threads ∧
        (∀ program ∈ threads.handlers, IsKeyless program) ∧
        tracked.system.world.store.signerFenced tracked.system.world.signer = true := by
  have evaluated : ∀ labels ∈ [Demo.rotatedToOne, Demo.rotatedBack],
      (Transition.execute
        (@Transition.restrict _ _ (@Tracked.step lowerHex Digest.numbered Demo.profile)
          (@Tracked.Undisturbed lowerHex Digest.numbered) fun _ _ => inferInstance)
        labels { system := Demo.system }).any fun tracked => Demo.ended tracked.system &&
          tracked.system.world.store.signerFenced tracked.system.world.signer := by
    decide +kernel
  refine ⟨rfl, fun labels listed => ?_⟩
  obtain ⟨tracked, run, ends⟩ := Transition.run_of_execute_any (evaluated labels listed)
  obtain ⟨ends, fenced⟩ := Bool.and_eq_true_iff.mp ends
  obtain ⟨threads, serving, keyless⟩ := Demo.of_ended ends
  exact ⟨tracked, threads, run.of_restrict, serving, keyless, fenced⟩

theorem active_key_unfenced_demo :
    ∃ tracked threads,
      @Transition.Run _ _ (@Tracked.step lowerHex Digest.numbered Demo.profile)
        (fun tracked label => @Tracked.Undisturbed lowerHex Digest.numbered tracked label ∧
          tracked.Fresh label) Demo.rotatedOn { system := Demo.system } tracked ∧
      tracked.system.stage = .serving threads ∧ tracked.out = [48, 32] ∧
      tracked.system.world.store.signerFenced tracked.system.world.signer = false ∧
      ∀ address ∈ tracked.out, tracked.system.world.store.signerFenced address = true := by
  obtain ⟨tracked, run, ends⟩ := Transition.run_of_execute_any
    (show (Transition.execute
      (@Transition.restrict _ _ (@Tracked.step lowerHex Digest.numbered Demo.profile)
        (fun tracked label => @Tracked.Undisturbed lowerHex Digest.numbered tracked label ∧
          tracked.Fresh label) fun _ _ => inferInstance)
      Demo.rotatedOn { system := Demo.system }).any (fun tracked => Demo.ended tracked.system &&
        decide (tracked.out = [48, 32])) by decide +kernel)
  obtain ⟨ends, out⟩ := Bool.and_eq_true_iff.mp ends
  obtain ⟨threads, serving, keyless⟩ := Demo.of_ended ends
  exact ⟨tracked, threads, run.of_restrict, serving, of_decide_eq_true out,
    @active_key_unfenced lowerHex Digest.numbered lowerHex_lawful lowerHex_checksummed _ _ _ _ _ rfl
      run.of_restrict serving keyless⟩

end Torium.Faucet
