import Torium.Lib.Program
import Mathlib.Algebra.Order.Group.Multiset

/-!
# Protocols

A protocol says what programs that share a state owe to each other. What a program may
rely on is expressed by tokens. Every program owns some, nobody else can take them
away, and the invariant relates the tokens that are owned by all programs to the state.
A command may change the tokens of the program that issues it, but it has to keep the
invariant whatever the others own.

Tokens may be permissions, which can be given up at any time, or obligations. A program is rid
of an obligation only when a command has brought the shared state so far that the invariant
holds without it, so that what the program owns at its end is known exactly.

Commands may come with a permission. What a protocol guarantees about a command holds
for every execution of it that is permitted, by every program that follows the protocol.
-/

namespace Concurrent

variable {F : Interface} {α β γ χ σ τ : Type}

structure Protocol (execute : (c : F.Command) → χ → σ → Option (F.Response c × σ))
    (τ : Type) where
  invariant : Multiset τ → σ → Prop
  permitted : F.Command → χ → σ → Prop
  guarantee : (c : F.Command) → σ → F.Response c → σ → Prop := fun _ _ _ _ => True
  /-- What may be issued by a program that owns the tokens. -/
  issues : F.Command → Multiset τ → Prop := fun _ _ => True
  /-- Tokens can be given up. -/
  lenient : Prop := True
  drop : lenient → ∀ {lost kept s}, invariant (lost + kept) s → invariant kept s
  free : lenient → ∀ c owned, issues c owned := by exact fun _ _ _ => trivial

variable {execute : (c : F.Command) → χ → σ → Option (F.Response c × σ)}

/-- The same protocol with another guarantee. -/
def Protocol.granting (P : Protocol execute τ)
    (guarantee : (c : F.Command) → σ → F.Response c → σ → Prop) : Protocol execute τ :=
  { P with guarantee }

section Follows

variable (P : Protocol execute τ)

/-- A program may go on with fewer tokens. -/
def Protocol.Gives (owned kept : Multiset τ) : Prop := kept = owned ∨ P.lenient ∧ kept ≤ owned

/-- The program keeps to the protocol when it starts with the tokens it owns. When it is
done, the postcondition holds of the tokens it goes on with. -/
def Follows : Program F α → (α → Multiset τ → Prop) → Multiset τ → Prop
  | .done value, post, owned => ∃ kept, P.Gives owned kept ∧ post value kept
  | .call c next, post, owned => P.issues c owned ∧ ∀ others s choice response t,
      P.invariant (owned + others) s → P.permitted c choice s →
      execute c choice s = some (response, t) →
        P.guarantee c s response t ∧
          ∃ owned', P.invariant (owned' + others) t ∧ Follows (next response) post owned'

/-- A command that needs no tokens and leaves all of them alone. -/
def Respects (c : F.Command) : Prop :=
  ∀ owned s choice response t, P.invariant owned s → P.permitted c choice s →
    execute c choice s = some (response, t) → P.guarantee c s response t ∧ P.invariant owned t

variable {P} {program : Program F α} {owned : Multiset τ} {post post' : α → Multiset τ → Prop}

theorem Protocol.Gives.trans {more kept : Multiset τ} (first : P.Gives more owned)
    (second : P.Gives owned kept) : P.Gives more kept := by
  obtain rfl | ⟨lenient, less⟩ := first
  · exact second
  · obtain rfl | ⟨-, less'⟩ := second
    · exact .inr ⟨lenient, less⟩
    · exact .inr ⟨lenient, less'.trans less⟩

namespace Follows

theorem done {value : α} (holds : post value owned) : Follows P (pure value) post owned :=
  ⟨owned, .inl rfl, holds⟩

/-- Tokens that are not needed do no harm if they can be given up. -/
theorem weaken {more : Multiset τ} (follows : Follows P program post owned)
    (gives : P.Gives more owned) : Follows P program post more := by
  cases program with
  | done value =>
    obtain ⟨kept, gives', holds⟩ := follows
    exact ⟨kept, gives.trans gives', holds⟩
  | call c body =>
    obtain rfl | ⟨lenient, enough⟩ := gives
    · exact follows
    · refine ⟨P.free lenient c more, fun others s choice response t holds may executed => ?_⟩
      obtain ⟨lost, rfl⟩ := Multiset.le_iff_exists_add.mp enough
      rw [add_comm owned, add_assoc] at holds
      exact follows.2 others s choice response t (P.drop lenient holds) may executed

theorem unneeded (follows : Follows P program post 0) (lenient : P.lenient) :
    Follows P program post owned :=
  follows.weaken (.inr ⟨lenient, Multiset.zero_le owned⟩)

/-- What is left at the end may be given up in part. -/
theorem relax (follows : Follows P program post owned)
    (weaker : ∀ value owned, post value owned → ∃ kept, P.Gives owned kept ∧ post' value kept) :
    Follows P program post' owned := by
  induction program generalizing owned with
  | done value =>
    obtain ⟨kept, gives, holds⟩ := follows
    obtain ⟨less, gives', holds'⟩ := weaker value kept holds
    exact ⟨less, gives.trans gives', holds'⟩
  | call c body ih =>
    refine ⟨follows.1, fun others s choice response t holds may executed => ?_⟩
    obtain ⟨granted, owned', kept, rest⟩ :=
      follows.2 others s choice response t holds may executed
    exact ⟨granted, owned', kept, ih response rest⟩

theorem mono (follows : Follows P program post owned)
    (weaker : ∀ value owned, post value owned → post' value owned) :
    Follows P program post' owned :=
  follows.relax fun value owned holds => ⟨owned, .inl rfl, weaker value owned holds⟩

/-- A program may give up all its tokens at the end. -/
theorem release (lenient : P.lenient) (follows : Follows P program (fun _ _ => True) owned) :
    Follows P program (fun _ owned => owned = 0) owned :=
  follows.relax fun _ owned _ => ⟨0, .inr ⟨lenient, Multiset.zero_le owned⟩, rfl⟩

/-- Other tokens are kept as they are, where they do not forbid a command. -/
theorem frame (follows : Follows P program post owned) (extra : Multiset τ)
    (allowed : ∀ c owned, P.issues c owned → P.issues c (owned + extra)) :
    Follows P program (fun value all => ∃ kept, all = kept + extra ∧ post value kept)
      (owned + extra) := by
  induction program generalizing owned with
  | done value =>
    obtain ⟨kept, gives, holds⟩ := follows
    refine ⟨kept + extra, gives.imp ?_ (And.imp_right ?_), kept, rfl, holds⟩
    · exact congrArg (· + extra)
    · exact fun some => add_le_add some le_rfl
  | call c body ih =>
    refine ⟨allowed c owned follows.1, fun others s choice response t holds may executed => ?_⟩
    rw [add_assoc] at holds
    obtain ⟨granted, owned', kept, rest⟩ :=
      follows.2 (extra + others) s choice response t holds may executed
    rw [← add_assoc] at kept
    exact ⟨granted, owned' + extra, kept, ih response rest⟩

/-- Sequential composition. -/
theorem bind {next : α → Program F β} {post : β → Multiset τ → Prop}
    (first : Follows P program (fun value => Follows P (next value) post) owned) :
    Follows P (program >>= next) post owned := by
  induction program generalizing owned with
  | done value =>
    obtain ⟨kept, gives, follows⟩ := first
    exact follows.weaken gives
  | call c body ih =>
    refine ⟨first.1, fun others s choice response t holds may executed => ?_⟩
    obtain ⟨granted, owned', kept, rest⟩ := first.2 others s choice response t holds may executed
    exact ⟨granted, owned', kept, ih response rest⟩

/-- The specification of one command. -/
theorem command {c : F.Command} {post : F.Response c → Multiset τ → Prop}
    (issued : P.issues c owned)
    (spec : ∀ {others s choice response t}, P.invariant (owned + others) s →
      P.permitted c choice s → execute c choice s = some (response, t) →
        P.guarantee c s response t ∧
          ∃ owned', P.invariant (owned' + others) t ∧ post response owned') :
    Follows P (Concurrent.command c) post owned := by
  refine ⟨issued, fun others s choice response t holds may executed => ?_⟩
  obtain ⟨granted, owned', kept, here⟩ := spec holds may executed
  exact ⟨granted, owned', kept, done here⟩

/-- A program whose commands all keep the tokens keeps them. -/
theorem retains (only : program.Only fun c =>
      Follows P (Concurrent.command c) (fun _ kept => kept = owned) owned)
    (holds : ∀ value, post value owned) : Follows P program post owned := by
  induction program with
  | done value => exact done (holds value)
  | call c body ih =>
    obtain ⟨⟨issued, later⟩, rest⟩ := only
    refine ⟨issued, fun others s choice response t here may executed => ?_⟩
    obtain ⟨granted, owned', kept, all, gives, rfl⟩ :=
      later others s choice response t here may executed
    exact ⟨granted, owned', kept, (ih response (rest response)).weaken gives⟩

/-- Steps that keep the tokens, before the rest of the program. -/
theorem retains_bind {next : α → Program F β} {post : β → Multiset τ → Prop}
    (only : program.Only fun c =>
      Follows P (Concurrent.command c) (fun _ kept => kept = owned) owned)
    (rest : ∀ value, Follows P (next value) post owned) :
    Follows P (program >>= next) post owned :=
  bind (retains only rest)

/-- A program whose commands all leave the tokens alone keeps those that it owns. -/
theorem respects (lenient : P.lenient) (only : program.Only (Respects P))
    (holds : ∀ value, post value owned) : Follows P program post owned := by
  refine retains (Program.Only.mono (fun c respects => command (P.free lenient c owned) ?_) only)
    holds
  intro others s choice response t here may executed
  obtain ⟨granted, kept⟩ := respects _ s choice response t here may executed
  exact ⟨granted, owned, kept, rfl⟩

/-- The next command of a program, with the tokens of the others around. -/
theorem step {others : Multiset τ} {s t : σ} {choice : χ} {rest : Program F α}
    (follows : Follows P program post owned) (holds : P.invariant (owned + others) s)
    (may : ∀ c, program.next? = some c → P.permitted c choice s)
    (taken : program.step execute choice s = some (rest, t)) :
    (∃ c response, program.next? = some c ∧ execute c choice s = some (response, t) ∧
      P.guarantee c s response t) ∧
        ∃ owned', P.invariant (owned' + others) t ∧ Follows P rest post owned' := by
  obtain ⟨c, next, response, rfl, executed, rfl⟩ := Program.step_eq_some taken
  obtain ⟨granted, later⟩ := follows.2 others s choice response t holds (may c rfl) executed
  exact ⟨⟨c, response, rfl, executed, granted⟩, later⟩

end Follows

/-! ## Programs that can fail -/

section Failing

variable {ε : Type}

/-- A program that can fail follows the protocol; what it owns at the end depends on
whether it has failed. -/
abbrev FollowsAttempt (P : Protocol execute τ) (program : ExceptT ε (Program F) α)
    (post : α → Multiset τ → Prop) (failed : ε → Multiset τ → Prop) (owned : Multiset τ) : Prop :=
  Follows P program.run (fun result owned => match result with
    | .ok value => post value owned
    | .error error => failed error owned) owned

variable {failed : ε → Multiset τ → Prop} {first : ExceptT ε (Program F) α}

namespace FollowsAttempt

theorem bind {next : α → ExceptT ε (Program F) β} {post : β → Multiset τ → Prop}
    (follows : FollowsAttempt P first (fun value => FollowsAttempt P (next value) post failed)
      failed owned) :
    FollowsAttempt P (first >>= next) post failed owned := by
  refine Follows.bind (follows.mono fun result owned holds => ?_)
  cases result with
  | ok value => exact holds
  | error error => exact .done holds

/-- The rest of a program, after a part with a specification of its own. -/
theorem andThen {next : α → ExceptT ε (Program F) β} {post' : β → Multiset τ → Prop}
    (follows : FollowsAttempt P first post failed owned) (rest : ∀ value owned, post value owned →
      FollowsAttempt P (next value) post' failed owned) :
    FollowsAttempt P (first >>= next) post' failed owned := by
  refine bind (follows.mono fun result owned holds => ?_)
  cases result with
  | ok value => exact rest value owned holds
  | error error => exact holds

theorem lift {program : Program F α} (follows : Follows P program post owned) :
    FollowsAttempt P (ExceptT.lift program : ExceptT ε (Program F) α) post failed owned :=
  Follows.bind (follows.mono fun _ _ holds => .done holds)

end FollowsAttempt

end Failing

end Follows

/-! ## Pools -/

/-- Programs that run side by side, each with its share of the tokens. -/
inductive Shares (R : Program F α → Multiset τ → Prop) :
    List (Program F α) → Multiset τ → Prop where
  | nil : Shares R [] 0
  | cons {program programs owned others} : R program owned → Shares R programs others →
      Shares R (program :: programs) (owned + others)

namespace Shares

variable {R : Program F α → Multiset τ → Prop} {programs : List (Program F α)}
variable {program : Program F α} {owned : Multiset τ}

theorem add {own : Multiset τ} (shares : Shares R programs owned) (new : R program own) :
    Shares R (programs ++ [program]) (own + owned) := by
  induction shares with
  | nil => exact .cons new .nil
  | cons first _ ih =>
    rw [add_left_comm]
    exact .cons first ih

/-- A new program that owns nothing. -/
theorem snoc (shares : Shares R programs owned) (new : R program 0) :
    Shares R (programs ++ [program]) owned :=
  zero_add owned ▸ shares.add new

/-- One program of a pool, and what is left of the pool. -/
theorem focus (shares : Shares R programs owned) {index : Nat}
    (found : programs[index]? = some program) :
    ∃ own others, owned = own + others ∧ R program own ∧
      ∀ {program' own'}, R program' own' →
        Shares R (programs.set index program') (own' + others) := by
  induction shares generalizing index with
  | nil => simp at found
  | @cons first programs own others here rest ih =>
    cases index with
    | zero =>
      cases found
      exact ⟨own, others, rfl, here, fun new => .cons new rest⟩
    | succ index =>
      obtain ⟨own', others', rfl, here', back⟩ := ih found
      refine ⟨own', own + others', by rw [add_left_comm], here', ?_⟩
      intro program' own'' new
      rw [add_left_comm]
      exact .cons here (back new)

end Shares

/-! ## Notes -/

/-- Commands that take notes. What is noted depends on the command and the state it is
executed in. -/
def noting (execute : (c : F.Command) → χ → σ → Option (F.Response c × σ))
    (note : F.Command → σ → γ → γ) (c : F.Command) (choice : χ) (s : σ × γ) :
    Option (F.Response c × (σ × γ)) :=
  (execute c choice s.1).map fun (response, t) => (response, t, note c s.1 s.2)

variable {note : F.Command → σ → γ → γ} {c : F.Command} {choice : χ} {s : σ} {t : σ × γ} {notes : γ}

theorem noting_eq_some {response : F.Response c} :
    noting execute note c choice (s, notes) = some (response, t) ↔
      execute c choice s = some (response, t.1) ∧ t.2 = note c s notes := by
  constructor
  · intro executed
    obtain ⟨⟨response', u⟩, executed', same⟩ := Option.map_eq_some_iff.mp executed
    cases same
    exact ⟨executed', rfl⟩
  · rintro ⟨executed, noted⟩
    obtain ⟨u, notes'⟩ := t
    cases noted
    rw [noting, executed]
    rfl

variable (note notes) in
/-- Notes do not keep a program from its next step. -/
theorem Program.step_noting {program rest : Program F α} {u : σ}
    (taken : program.step execute choice s = some (rest, u)) :
    ∃ c, program.next? = some c ∧
      program.step (noting execute note) choice (s, notes) =
        some (rest, u, note c s notes) := by
  obtain ⟨c, next, response, rfl, executed, rfl⟩ := step_eq_some taken
  refine ⟨c, rfl, ?_⟩
  rw [step, noting, executed]
  rfl

end Concurrent
