import Torium.Lib.Program

/-!
# Monitors

A monitor watches one program: it sees every command that the program issues and the response
that the program gets, and says which commands may be issued. Other programs that run beside
it do not matter, since nothing but the responses reaches the program.
-/

namespace Concurrent

variable {F : Interface} {α β γ χ σ : Type}

structure Monitor (F : Interface) (γ : Type) where
  /-- What is known after a response. -/
  watch : (c : F.Command) → F.Response c → γ → γ
  admits : F.Command → γ → Prop

/-- The program issues what the monitor admits. When it is done, the postcondition holds of what
was seen. -/
def Monitored (M : Monitor F γ) : Program F α → (α → γ → Prop) → γ → Prop
  | .done value, post, seen => post value seen
  | .call c next, post, seen => M.admits c seen ∧
      ∀ response, Monitored M (next response) post (M.watch c response seen)

variable {M : Monitor F γ} {program : Program F α} {post post' : α → γ → Prop} {seen : γ}

namespace Monitored

theorem done {value : α} (holds : post value seen) : Monitored M (pure value) post seen := holds

theorem mono (monitored : Monitored M program post seen)
    (weaker : ∀ value seen, post value seen → post' value seen) :
    Monitored M program post' seen := by
  induction program generalizing seen with
  | done value => exact weaker value seen monitored
  | call c next ih => exact ⟨monitored.1, fun response => ih response (monitored.2 response)⟩

/-- Sequential composition. -/
theorem bind {next : α → Program F β} {post : β → γ → Prop}
    (first : Monitored M program (fun value => Monitored M (next value) post) seen) :
    Monitored M (program >>= next) post seen := by
  induction program generalizing seen with
  | done value => exact first
  | call c body ih => exact ⟨first.1, fun response => ih response (first.2 response)⟩

/-- The specification of one command. -/
theorem command {c : F.Command} {post : F.Response c → γ → Prop} (admitted : M.admits c seen)
    (holds : ∀ response, post response (M.watch c response seen)) :
    Monitored M (Concurrent.command c) post seen :=
  ⟨admitted, holds⟩

/-- What all commands of a program keep holds at its end. -/
theorem keeps {P : γ → Prop}
    (only : program.Only fun c => ∀ seen, P seen →
      M.admits c seen ∧ ∀ response, P (M.watch c response seen))
    (start : P seen) : Monitored M program (fun _ => P) seen := by
  induction program generalizing seen with
  | done value => exact start
  | call c next ih =>
    obtain ⟨admitted, kept⟩ := only.1 seen start
    exact ⟨admitted, fun response => ih response (only.2 response) (kept response)⟩

end Monitored

/-! ## Programs that can fail -/

section Failing

variable {ε : Type} {failed : ε → γ → Prop} {first : ExceptT ε (Program F) α}

/-- A program that can fail issues what the monitor admits. -/
abbrev MonitoredAttempt (M : Monitor F γ) (program : ExceptT ε (Program F) α)
    (post : α → γ → Prop) (failed : ε → γ → Prop) (seen : γ) : Prop :=
  Monitored M program.run (fun result seen => match result with
    | .ok value => post value seen
    | .error error => failed error seen) seen

theorem MonitoredAttempt.bind {next : α → ExceptT ε (Program F) β} {post : β → γ → Prop}
    (monitored : MonitoredAttempt M first
      (fun value => MonitoredAttempt M (next value) post failed) failed seen) :
    MonitoredAttempt M (first >>= next) post failed seen := by
  refine Monitored.bind (monitored.mono fun result seen holds => ?_)
  cases result with
  | ok value => exact holds
  | error error => exact .done holds

theorem MonitoredAttempt.lift {program : Program F α} (monitored : Monitored M program post seen) :
    MonitoredAttempt M (ExceptT.lift program : ExceptT ε (Program F) α) post failed seen :=
  Monitored.bind (monitored.mono fun _ _ holds => .done holds)

end Failing

/-! ## Steps -/

variable {execute : (c : F.Command) → χ → σ → Option (F.Response c × σ)}

/-- What has been seen after the next command of a program. -/
def Program.sees (M : Monitor F γ)
    (execute : (c : F.Command) → χ → σ → Option (F.Response c × σ)) (choice : χ) (s : σ)
    (seen : γ) : Program F α → γ
  | .done _ => seen
  | .call c _ => (execute c choice s).elim seen fun (response, _) => M.watch c response seen

theorem Monitored.step {choice : χ} {s t : σ} {rest : Program F α}
    (monitored : Monitored M program post seen)
    (taken : program.step execute choice s = some (rest, t)) :
    Monitored M rest post (program.sees M execute choice s seen) := by
  obtain ⟨c, next, response, rfl, executed, rfl⟩ := Program.step_eq_some taken
  rw [Program.sees, executed]
  exact monitored.2 response

/-- A program that is monitored issues what is admitted. -/
theorem Monitored.next {c : F.Command} (monitored : Monitored M program post seen)
    (issued : program.next? = some c) : M.admits c seen := by
  cases program with
  | done value => cases issued
  | call command next =>
    cases issued
    exact monitored.1

end Concurrent
