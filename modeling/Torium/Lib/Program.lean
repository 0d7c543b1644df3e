import Mathlib.Logic.Basic

/-!
# Programs that share a state

A program issues one command after the other and goes on with the response. The
commands are atomic and act on a state that other programs and the environment
change between them; what the environment decides about a command is its choice.

A triple says what a program keeps while others interfere. The interference is a
relation on states, and an assertion can be carried across a command when it is
stable, which means that the interference keeps it. A global invariant holds
between all commands of all programs. Commands may come with a permission: a
triple speaks about the executions in which every command was permitted.
-/

namespace Concurrent

/-- Commands and the types of their responses. -/
structure Interface where
  Command : Type
  Response : Command → Type

inductive Program (F : Interface) (α : Type) where
  | done (value : α)
  | call (command : F.Command) (next : F.Response command → Program F α)

variable {F : Interface} {α β σ χ : Type} {P : F.Command → Prop} {program : Program F α}
variable {c : F.Command} {middle : α → σ → Prop}

namespace Program

def bind : Program F α → (α → Program F β) → Program F β
  | .done value, next => next value
  | .call command rest, next => .call command fun response => (rest response).bind next

instance : Monad (Program F) where
  pure := .done
  bind := bind

/-- Every command of the program, on every path, satisfies the predicate. -/
def Only (P : F.Command → Prop) : Program F α → Prop
  | .done _ => True
  | .call command next => P command ∧ ∀ response, (next response).Only P

theorem Only.mono {Q : F.Command → Prop} (implies : ∀ c, P c → Q c) (only : program.Only P) :
    program.Only Q := by
  induction program with
  | done value => trivial
  | call command body ih =>
    obtain ⟨here, later⟩ := only
    exact ⟨implies command here, fun response => ih response (later response)⟩

theorem Only.right {Q : F.Command → Prop} (only : program.Only fun c => P c ∧ Q c) :
    program.Only Q :=
  only.mono fun _ => And.right

theorem Only.bind {next : α → Program F β} (first : program.Only P)
    (rest : ∀ value, (next value).Only P) :
    (program >>= next).Only P := by
  induction program with
  | done value => exact rest value
  | call command body ih =>
    obtain ⟨here, later⟩ := first
    exact ⟨here, fun response => ih response (later response)⟩

/-- The command that a program issues next. -/
def next? : Program F α → Option F.Command
  | .done _ => none
  | .call command _ => some command

theorem Only.next (only : program.Only P) (issued : program.next? = some c) : P c := by
  cases program with
  | done value => cases issued
  | call command next =>
    cases issued
    exact only.1

/-- The next command of a program, with the environment's choice about it. -/
def step (execute : (command : F.Command) → χ → σ → Option (F.Response command × σ))
    (choice : χ) (s : σ) : Program F α → Option (Program F α × σ)
  | .done _ => none
  | .call command next => (execute command choice s).map fun (response, t) => (next response, t)

section Steps

variable {execute : (command : F.Command) → χ → σ → Option (F.Response command × σ)}
variable {choice : χ} {s t : σ} {rest : Program F α}

/-- A program that takes a step goes on with the response to its next command. -/
theorem step_eq_some (taken : program.step execute choice s = some (rest, t)) :
    ∃ c next response, program = .call c next ∧ execute c choice s = some (response, t) ∧
      rest = next response := by
  cases program with
  | done value => cases taken
  | call c next =>
    obtain ⟨⟨response, u⟩, executed, same⟩ := Option.map_eq_some_iff.mp taken
    cases same
    exact ⟨c, next, response, rfl, executed, rfl⟩

theorem step_cases (taken : program.step execute choice s = some (rest, t)) :
    ∃ c response, program.next? = some c ∧ execute c choice s = some (response, t) := by
  obtain ⟨c, next, response, rfl, executed, -⟩ := step_eq_some taken
  exact ⟨c, response, rfl, executed⟩

theorem Only.step_cases (only : program.Only P)
    (taken : program.step execute choice s = some (rest, t)) :
    ∃ c response, program.next? = some c ∧ P c ∧ execute c choice s = some (response, t) ∧
      rest.Only P := by
  obtain ⟨c, next, response, rfl, executed, rfl⟩ := step_eq_some taken
  exact ⟨c, response, rfl, only.1, executed, only.2 response⟩

end Steps

/-- With some responses to its commands the program returns the value. -/
def Returns : Program F α → α → Prop
  | .done value, result => value = result
  | .call _ next, result => ∃ response, (next response).Returns result

theorem returns_bind {next : α → Program F β} {result : β} :
    (program >>= next).Returns result ↔
      ∃ value, program.Returns value ∧ (next value).Returns result := by
  induction program with
  | done value =>
    constructor
    · intro returns
      exact ⟨value, rfl, returns⟩
    · rintro ⟨other, rfl, returns⟩
      exact returns
  | call command body ih =>
    constructor
    · rintro ⟨response, returns⟩
      obtain ⟨value, first, second⟩ := (ih response).mp returns
      exact ⟨value, ⟨response, first⟩, second⟩
    · rintro ⟨value, ⟨response, first⟩, second⟩
      exact ⟨response, (ih response).mpr ⟨value, first, second⟩⟩

/-- The value that the program returns when its commands are answered one by one. -/
def answer (respond : (command : F.Command) → F.Response command) : Program F α → α
  | .done value => value
  | .call command next => (next (respond command)).answer respond

theorem returns_answer (respond : (command : F.Command) → F.Response command)
    (program : Program F α) : program.Returns (program.answer respond) := by
  induction program with
  | done value => rfl
  | call command next ih => exact ⟨respond command, ih (respond command)⟩

/-- A program that may fail succeeds through a value of its first part. -/
theorem returns_bind_ok {ε : Type} {program : ExceptT ε (Program F) α}
    {next : α → ExceptT ε (Program F) β} {result : β} :
    (program >>= next).run.Returns (.ok result) ↔
      ∃ value, program.run.Returns (.ok value) ∧ (next value).run.Returns (.ok result) := by
  refine returns_bind.trans ?_
  constructor
  · rintro ⟨first, returns, rest⟩
    cases first with
    | error failure => cases rest
    | ok value => exact ⟨value, returns, rest⟩
  · rintro ⟨value, returns, rest⟩
    exact ⟨.ok value, returns, rest⟩

end Program

/-- A command in execution. -/
def command (c : F.Command) : Program F (F.Response c) := .call c .done

theorem Program.step_command {execute : (c : F.Command) → χ → σ → Option (F.Response c × σ)}
    {next : F.Response c → Program F α} {choice : χ} {s t : σ} {rest : Program F α}
    (taken : (command c >>= next).step execute choice s = some (rest, t)) :
    ∃ response, execute c choice s = some (response, t) ∧ rest = next response := by
  obtain ⟨⟨response, u⟩, executed, same⟩ := Option.map_eq_some_iff.mp taken
  cases same
  exact ⟨response, executed, rfl⟩

theorem only_command (here : P c) :
    (command c).Only P := ⟨here, fun _ => trivial⟩

/-- How programs run among each other: what a command does, what holds between all
commands, what the others may do meanwhile and when a command is permitted. -/
structure Discipline (F : Interface) (χ σ : Type) where
  execute : (command : F.Command) → χ → σ → Option (F.Response command × σ)
  invariant : σ → Prop
  interference : σ → σ → Prop
  permitted : F.Command → σ → Prop
  refl : ∀ s, interference s s
  trans : ∀ {s t u}, interference s t → interference t u → interference s u

section Logic

variable (D : Discipline F χ σ)

/-- From the state on, every permitted command of the program keeps the invariant, and
the postcondition holds when it is done. Others may interfere before each command. -/
def Safe : Program F α → (α → σ → Prop) → σ → Prop
  | .done value, post, s => ∀ t, D.interference s t → post value t
  | .call command next, post, s => ∀ t, D.interference s t → D.invariant t →
      D.permitted command t → ∀ choice response u, D.execute command choice t = some (response, u) →
        D.invariant u ∧ Safe (next response) post u

/-- A triple for a program that runs among others. -/
def Triple (pre : σ → Prop) (program : Program F α) (post : α → σ → Prop) : Prop :=
  ∀ s, pre s → Safe D program post s

/-- The others keep the assertion. -/
def Stable (assertion : σ → Prop) : Prop :=
  ∀ s t, D.interference s t → assertion s → assertion t

theorem Stable.true {D : Discipline F χ σ} : Stable D fun _ => True :=
  fun _ _ _ _ => trivial

theorem Stable.and {D : Discipline F χ σ} {fact : Prop} {assertion : σ → Prop}
    (stable : Stable D assertion) : Stable D fun s => fact ∧ assertion s :=
  fun s t step holds => ⟨holds.1, stable s t step holds.2⟩

theorem Stable.imp {D : Discipline F χ σ} {fact : Prop} {assertion : σ → Prop}
    (stable : Stable D assertion) : Stable D fun s => fact → assertion s :=
  fun s t step holds given => stable s t step (holds given)

/-- A command that keeps the invariant and does no more than the others may. -/
def Quiet (c : F.Command) : Prop :=
  ∀ {s choice response t}, D.invariant s → D.execute c choice s = some (response, t) →
    D.invariant t ∧ D.interference s t

variable {D}
variable {pre pre' : σ → Prop} {post post' : α → σ → Prop}

/-- A step of the program itself, where the discipline executes the command as it is executed. -/
theorem Safe.step {execute : (command : F.Command) → χ → σ → Option (F.Response command × σ)}
    {s t : σ} {choice : χ} {rest : Program F α} (safe : Safe D program post s)
    (holds : D.invariant s) (may : ∀ c, program.next? = some c →
      D.permitted c s ∧ D.execute c choice s = execute c choice s)
    (taken : program.step execute choice s = some (rest, t)) :
    D.invariant t ∧ Safe D rest post t := by
  obtain ⟨c, next, response, rfl, executed, rfl⟩ := Program.step_eq_some taken
  obtain ⟨permitted, same⟩ := may c rfl
  exact safe s (D.refl s) holds permitted choice response t (same.trans executed)

/-- A step of another program. -/
theorem Safe.interfere {s t : σ} (safe : Safe D program post s) (step : D.interference s t) :
    Safe D program post t := by
  cases program with
  | done value => exact fun u later => safe u (D.trans step later)
  | call c next => exact fun u later => safe u (D.trans step later)

theorem Safe.bind {s : σ} {next : α → Program F β} {post : β → σ → Prop}
    (safe : Safe D program (fun value => Safe D (next value) post) s) :
    Safe D (program >>= next) post s := by
  induction program generalizing s with
  | done value => exact safe s (D.refl s)
  | call c body ih =>
    intro t step holds may choice response u executed
    obtain ⟨kept, rest⟩ := safe t step holds may choice response u executed
    exact ⟨kept, ih response rest⟩

theorem Safe.weaken {s : σ} (weaker : ∀ value s, post value s → post' value s)
    (safe : Safe D program post s) : Safe D program post' s := by
  induction program generalizing s with
  | done value => exact fun t step => weaker value t (safe t step)
  | call c body ih =>
    intro t step holds may choice response u executed
    obtain ⟨kept, rest⟩ := safe t step holds may choice response u executed
    exact ⟨kept, ih response rest⟩

namespace Triple

theorem done {value : α} (stable : Stable D pre) (post_of : ∀ s, pre s → post value s) :
    Triple D pre (pure value) post :=
  fun s holds t step => post_of t (stable s t step holds)

/-- Sequential composition. -/
theorem bind {next : α → Program F β} {post : β → σ → Prop} (first : Triple D pre program middle)
    (rest : ∀ value, Triple D (middle value) (next value) post) :
    Triple D pre (program >>= next) post :=
  fun s holds => Safe.bind ((first s holds).weaken fun value t => rest value t)

theorem consequence (stronger : ∀ s, pre' s → pre s) (triple : Triple D pre program post)
    (weaker : ∀ value s, post value s → post' value s) : Triple D pre' program post' :=
  fun s holds => (triple s (stronger s holds)).weaken weaker

/-- The specification of one command, from states between which nobody interferes. -/
theorem command {post : F.Response c → σ → Prop} (stable : Stable D pre)
    (stable' : ∀ response, Stable D (post response))
    (spec : ∀ {s choice response t}, D.invariant s → pre s → D.permitted c s →
      D.execute c choice s = some (response, t) → D.invariant t ∧ post response t) :
    Triple D pre (Concurrent.command c) post := by
  intro s holds t step kept may choice response u executed
  obtain ⟨kept', here⟩ := spec kept (stable s t step holds) may executed
  exact ⟨kept', fun v later => stable' response u v later here⟩

/-- A program of quiet commands keeps every stable assertion. -/
theorem quiet (stable : Stable D pre) (only : program.Only (Quiet D)) :
    Triple D pre program (fun _ => pre) := by
  intro s holds
  induction program generalizing s with
  | done value => exact fun t step => stable s t step holds
  | call c body ih =>
    intro t step kept _ choice response u executed
    obtain ⟨kept', small⟩ := only.1 kept executed
    exact ⟨kept', ih response (only.2 response) u (stable t u small (stable s t step holds))⟩

end Triple

end Logic

/-! ## Programs that can fail -/

section Failing

variable {ε : Type}

theorem only_lift (only : program.Only P) :
    (ExceptT.lift program : ExceptT ε (Program F) α).run.Only P :=
  only.bind fun _ => trivial

theorem only_bind {first : ExceptT ε (Program F) α} {next : α → ExceptT ε (Program F) β}
    (only : first.run.Only P) (rest : ∀ value, (next value).run.Only P) :
    (first >>= next).run.Only P := by
  refine Program.Only.bind only fun result => ?_
  cases result with
  | ok value => exact rest value
  | error error => exact trivial

variable (D : Discipline F χ σ)

/-- A triple with a postcondition for the runs that fail, too. -/
def Attempts (pre : σ → Prop) (program : ExceptT ε (Program F) α) (post : α → σ → Prop)
    (failed : ε → σ → Prop) : Prop :=
  Triple D pre program.run fun result s => match result with
    | .ok value => post value s
    | .error error => failed error s

/-- A triple about the runs that do not fail. -/
abbrev Achieves (pre : σ → Prop) (program : ExceptT ε (Program F) α) (post : α → σ → Prop) :
    Prop :=
  Attempts D pre program post fun _ _ => True

variable {D} {pre : σ → Prop} {post : α → σ → Prop} {program : ExceptT ε (Program F) α}

namespace Attempts

variable {failed : ε → σ → Prop}

theorem pure {value : α} (stable : Stable D pre) (post_of : ∀ s, pre s → post value s) :
    Attempts D pre (Pure.pure value : ExceptT ε (Program F) α) post failed :=
  Triple.done stable post_of

theorem throw {error : ε} (stable : Stable D pre) (failed_of : ∀ s, pre s → failed error s) :
    Attempts D pre (MonadExcept.throw error : ExceptT ε (Program F) α) post failed :=
  Triple.done stable failed_of

theorem bind {next : α → ExceptT ε (Program F) β} {post : β → σ → Prop}
    (stable : ∀ error, Stable D (failed error)) (first : Attempts D pre program middle failed)
    (rest : ∀ value, Attempts D (middle value) (next value) post failed) :
    Attempts D pre (program >>= next) post failed := by
  refine Triple.bind first fun result => ?_
  cases result with
  | ok value => exact rest value
  | error error => exact Triple.done (stable error) fun _ => id

theorem lift {program : Program F α} (stable : ∀ value, Stable D (post value))
    (done : Triple D pre program post) :
    Attempts D pre (ExceptT.lift program : ExceptT ε (Program F) α) post failed :=
  Triple.bind done fun value => Triple.done (stable value) fun _ => id

theorem consequence {pre' : σ → Prop} {post' : α → σ → Prop} {failed' : ε → σ → Prop}
    (stronger : ∀ s, pre' s → pre s) (attempts : Attempts D pre program post failed)
    (weaker : ∀ value s, post value s → post' value s)
    (weaker' : ∀ error s, failed error s → failed' error s) :
    Attempts D pre' program post' failed' := by
  refine Triple.consequence stronger attempts fun result s holds => ?_
  cases result with
  | ok value => exact weaker value s holds
  | error error => exact weaker' error s holds

/-- A fact that does not depend on the state is assumed. -/
theorem assuming {fact : Prop} (attempts : fact → Attempts D pre program post failed) :
    Attempts D (fun s => fact ∧ pre s) program post failed :=
  fun s holds => attempts holds.1 s holds.2

/-- Quiet steps before the rest of a program. -/
theorem quiet_bind {next : α → ExceptT ε (Program F) β} {post : β → σ → Prop}
    (stable : Stable D pre) (only : program.run.Only (Quiet D))
    (failed_of : ∀ error s, pre s → failed error s)
    (rest : ∀ value, Attempts D pre (next value) post failed) :
    Attempts D pre (program >>= next) post failed := by
  refine Triple.bind (Triple.quiet stable only) fun result => ?_
  cases result with
  | ok value => exact rest value
  | error error => exact Triple.done stable (failed_of error)

end Attempts

namespace Achieves

theorem throw {error : ε} :
    Achieves D pre (MonadExcept.throw error : ExceptT ε (Program F) α) post :=
  fun _ _ _ _ => trivial

theorem bind {next : α → ExceptT ε (Program F) β} {post : β → σ → Prop}
    (first : Achieves D pre program middle)
    (rest : ∀ value, Achieves D (middle value) (next value) post) :
    Achieves D pre (program >>= next) post :=
  Attempts.bind (fun _ => .true) first rest

theorem quiet (stable : Stable D pre) (only : program.run.Only (Quiet D)) :
    Achieves D pre program (fun _ => pre) := by
  refine Triple.consequence (fun _ => id) (Triple.quiet stable only) fun result _ holds => ?_
  cases result with
  | ok => exact holds
  | error => trivial

end Achieves

end Failing

end Concurrent
