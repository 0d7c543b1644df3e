import Mathlib.Data.List.Nodup
import Mathlib.Logic.Function.Basic

/-!
# Swapping the homes of nodes

Recovered homes are swapped in one after the other. An old home is moved to a backup directory
first, and when a step fails, the homes that were swapped before are put back, the last one first.
Every call of the file system can fail, also the calls that put a home back, and the backup
directory is removed in the end whatever it holds.
-/

namespace Torium.Localnet

open Function

/-- The directories that have an entry for each node. -/
inductive Place where
  | root
  | staged
  | backup
  deriving DecidableEq

inductive ActivationError (Name : Type) where
  | createBackup
  | inspect (place : Place) (name : Name)
  | preserve (name : Name)
  | activate (name : Name)
  deriving DecidableEq

/-- What the directories hold for one node. -/
abbrev Homes (Home : Type) : Type := Place → Option Home

/-- Which calls fail for a node. A removal that fails leaves some of the home. -/
structure Faults (Home : Type) where
  inspect : Place → Bool := fun _ => false
  preserve : Bool := false
  activate : Bool := false
  restore : Bool := false
  remove : Option (Home → Home) := none
  putBack : Bool := false

section Node

variable {Name Home : Type} (faults : Faults Home) (name : Name) (homes : Homes Home)

/-- A directory is not moved onto one that exists. -/
def rename (fails : Bool) (source target : Place) : Option (Homes Home) :=
  match homes source, homes target with
  | some home, none =>
    if fails then none
    else some (update (update homes source none) target (some home))
  | _, _ => none

def ensureRealDirectory (place : Place) : Bool := !faults.inspect place && (homes place).isSome

/-- The swap of one node. When the staged home cannot be moved, the old one is moved back. -/
def activateHome : Except (ActivationError Name × Homes Home) (Homes Home) :=
  if !ensureRealDirectory faults homes .root then .error (.inspect .root name, homes)
  else if !ensureRealDirectory faults homes .staged then .error (.inspect .staged name, homes)
  else match rename homes faults.preserve .root .backup with
    | none => .error (.preserve name, homes)
    | some homes =>
      match rename homes faults.activate .staged .root with
      | none => .error (.activate name, (rename homes faults.restore .backup .root).getD homes)
      | some homes => .ok homes

/-- The new home is removed, and the old one takes its place. -/
def putBack : Homes Home :=
  let removed := update homes .root (faults.remove.bind fun rest => (homes .root).map rest)
  (rename removed faults.putBack .backup .root).getD removed

/-- No call fails that puts the old home back. -/
structure Undoes : Prop where
  restore : faults.restore = false
  remove : faults.remove = none
  putBack : faults.putBack = false

variable {faults homes}

theorem rename_moves {fails : Bool} {source target : Place} {homes' : Homes Home}
    (moved : rename homes fails source target = some homes') :
    ∃ home, homes source = some home ∧
      homes' = update (update homes source none) target (some home) := by
  unfold rename at moved
  split at moved
  · split_ifs at moved
    exact ⟨_, ‹_›, (Option.some.inj moved).symm⟩
  · cases moved

/-- A home that is moved to its free place is there, if there is one. -/
theorem rename_back (free : homes .root = none) :
    ((rename homes false .backup .root).getD homes) .root = homes .backup := by
  cases held : homes .backup <;> simp [rename, held, free]

theorem putBack_root (undoes : Undoes faults) : putBack faults homes .root = homes .backup := by
  rw [putBack, undoes.remove, undoes.putBack]
  exact rename_back (update_self _ _ _)

variable (faults homes) in
/-- The staged home is in its place and the old one in the backup, or the old one is in its
place. -/
theorem activateHome_cases :
    (∃ error homes', activateHome faults name homes = .error (error, homes') ∧
      (faults.restore = false → homes' .root = homes .root)) ∨
    ∃ home homes', activateHome faults name homes = .ok homes' ∧ homes .staged = some home ∧
      homes' .root = some home ∧ homes' .backup = homes .root := by
  unfold activateHome
  split_ifs
  · exact .inl ⟨_, _, rfl, fun _ => rfl⟩
  · exact .inl ⟨_, _, rfl, fun _ => rfl⟩
  cases preserved : rename homes faults.preserve .root .backup with
  | none => exact .inl ⟨_, _, rfl, fun _ => rfl⟩
  | some homes₁ =>
    obtain ⟨old, found, rfl⟩ := rename_moves preserved
    dsimp only
    cases activated : rename _ faults.activate .staged .root with
    | none =>
      refine .inl ⟨_, _, rfl, fun undone => ?_⟩
      rw [undone, rename_back (by simp), found]
      exact update_self _ _ _
    | some homes₂ =>
      obtain ⟨home, staged, rfl⟩ := rename_moves activated
      exact .inr ⟨home, _, rfl, by simpa using staged, by simp, by simp [found]⟩

end Node

/-! ## All nodes -/

section Nodes

variable {Name Home : Type} [DecidableEq Name] (faults : Name → Faults Home)

/-- The node that was activated last stands first. -/
def rollback : List Name → (Name → Homes Home) → Name → Homes Home
  | [], disk => disk
  | name :: earlier, disk =>
    rollback earlier (update disk name (putBack (faults name) (disk name)))

def activateFrom : List Name → List Name → (Name → Homes Home) →
    Except (ActivationError Name) Unit × (Name → Homes Home)
  | [], _, disk => (.ok (), disk)
  | name :: rest, activated, disk =>
    match activateHome (faults name) name (disk name) with
    | .error (error, homes) =>
      (.error error, rollback faults activated (update disk name homes))
    | .ok homes => activateFrom rest (name :: activated) (update disk name homes)

def clearBackup (disk : Name → Homes Home) : Name → Homes Home :=
  fun name => update (disk name) .backup none

/-- The backup directory is new, and it is removed when the swap is over. -/
def activateRecoveryNodes (mkdirFails : Bool) (names : List Name) (disk : Name → Homes Home) :
    Except (ActivationError Name) Unit × (Name → Homes Home) :=
  if mkdirFails then (.error .createBackup, disk)
  else (activateFrom faults names [] (clearBackup disk)).map id clearBackup

variable {faults} {disk : Name → Homes Home} {name : Name} {old : Option Home}
variable {names activated : List Name}

/-- Where the old home of a node is while the nodes are activated. -/
def oldPlace (activated : List Name) (name : Name) : Place :=
  if name ∈ activated then .backup else .root

/-- Going back brings the old home of a node to its place. -/
theorem rollback_restores (undoes : Undoes (faults name)) (distinct : activated.Nodup)
    (kept : disk name (oldPlace activated name) = old) :
    rollback faults activated disk name .root = old := by
  induction activated generalizing disk with
  | nil => exact kept
  | cons first earlier ih =>
    obtain ⟨new, distinct⟩ := List.nodup_cons.mp distinct
    apply ih distinct
    by_cases same : name = first
    · subst same
      rw [oldPlace, if_pos List.mem_cons_self] at kept
      rw [oldPlace, if_neg new, update_self, putBack_root undoes, kept]
    · rw [update_of_ne same, ← kept]
      simp [oldPlace, same]

/-- When one of the nodes cannot be activated, the old home of every node is put back. -/
theorem activateFrom_error (undoes : Undoes (faults name)) (distinct : (names ++ activated).Nodup)
    (kept : disk name (oldPlace activated name) = old) {error : ActivationError Name}
    (failed : (activateFrom faults names activated disk).1 = .error error) :
    (activateFrom faults names activated disk).2 name .root = old := by
  induction names generalizing activated disk with
  | nil => cases failed
  | cons first rest ih =>
    have middle : (rest ++ first :: activated).Nodup := List.nodup_middle.mpr distinct
    have later := (List.nodup_append.mp middle).2.1
    have new : first ∉ activated := (List.nodup_cons.mp later).1
    rw [activateFrom] at failed ⊢
    obtain ⟨error, homes, swap, back⟩ | ⟨home, homes, swap, -, -, moved⟩ :=
      activateHome_cases (faults first) first (disk first)
    · rw [swap]
      apply rollback_restores undoes (List.nodup_cons.mp later).2
      by_cases same : name = first
      · subst same
        rw [oldPlace, if_neg new] at kept ⊢
        rw [update_self, back undoes.restore, kept]
      · rw [update_of_ne same, kept]
    · rw [swap] at failed ⊢
      apply ih middle _ failed
      by_cases same : name = first
      · subst same
        rw [oldPlace, if_neg new] at kept
        rw [oldPlace, if_pos List.mem_cons_self, update_self, moved, kept]
      · rw [update_of_ne same, ← kept]
        simp [oldPlace, same]

/-- When all nodes are activated, they have the staged homes, and no other node has changed. -/
theorem activateFrom_ok (name : Name) (distinct : names.Nodup)
    (done : (activateFrom faults names activated disk).1 = .ok ()) :
    (name ∈ names → ∃ home, disk name .staged = some home ∧
      (activateFrom faults names activated disk).2 name .root = some home) ∧
    (name ∉ names → (activateFrom faults names activated disk).2 name .root = disk name .root) := by
  induction names generalizing activated disk with
  | nil => exact ⟨nofun, fun _ => rfl⟩
  | cons first rest ih =>
    obtain ⟨new, distinct⟩ := List.nodup_cons.mp distinct
    rw [activateFrom] at done ⊢
    obtain ⟨error, homes, swap, -⟩ | ⟨home, homes, swap, staged, placed, -⟩ :=
      activateHome_cases (faults first) first (disk first)
    · rw [swap] at done
      cases done
    · rw [swap] at done ⊢
      obtain ⟨inside, outside⟩ := ih distinct done
      by_cases same : name = first
      · subst same
        rw [update_self] at outside
        exact ⟨fun _ => ⟨home, staged, (outside new).trans placed⟩,
          fun absent => absurd List.mem_cons_self absent⟩
      · rw [update_of_ne same] at inside outside
        rw [List.mem_cons, or_iff_right same]
        exact ⟨inside, outside⟩

end Nodes

/-- The swap is all or nothing for every node whose old home can be put back. After a success the
nodes have the staged homes and no other node has changed, and after an error every node has its
old home, whatever has failed for the other ones. -/
theorem activation_all_or_nothing {Name Home : Type} [DecidableEq Name]
    (faults : Name → Faults Home) (mkdirFails : Bool) {names : List Name} (distinct : names.Nodup)
    (disk : Name → Homes Home) (name : Name) :
    match activateRecoveryNodes faults mkdirFails names disk with
    | (.ok (), after) => (name ∈ names → ∃ home, disk name .staged = some home ∧
        after name .root = some home) ∧ (name ∉ names → after name .root = disk name .root)
    | (.error _, after) => Undoes (faults name) → after name .root = disk name .root := by
  unfold activateRecoveryNodes
  split_ifs
  · exact fun _ => rfl
  · cases run : activateFrom faults names [] (clearBackup disk) with
    | mk result disk' =>
      cases result with
      | ok =>
        have done := activateFrom_ok name distinct (congrArg Prod.fst run)
        rw [run] at done
        exact done
      | error error =>
        intro undoes
        rw [← List.append_nil names] at distinct
        have restored := activateFrom_error undoes distinct rfl (congrArg Prod.fst run)
        rw [run] at restored
        exact restored

namespace Demo

/-- The third node cannot be activated, and the home of the second cannot be removed. -/
def faults : Nat → Faults String
  | 2 => { remove := some id }
  | 3 => { activate := true }
  | _ => {}

def disk : Nat → Homes String := fun _ place => if place = .staged then "recovered" else "old"

end Demo

theorem activation_all_or_nothing_demo :
    (activateRecoveryNodes Demo.faults false [1, 2, 3] Demo.disk).1 = .error (.activate 3) ∧
      (activateRecoveryNodes Demo.faults false [1, 2, 3] Demo.disk).2 1 .root = some "old" ∧
      (activateRecoveryNodes Demo.faults false [1, 2, 3] Demo.disk).2 2 .root = some "recovered" :=
  ⟨rfl, (activation_all_or_nothing Demo.faults false (show [1, 2, 3].Nodup by decide) Demo.disk 1 :)
    ⟨rfl, rfl, rfl⟩, rfl⟩

end Torium.Localnet
