import Mathlib.Data.List.Forall2
import Mathlib.Order.Filter.AtTopBot.Basic

/-!
# JSON trees that are rewritten while they are walked

Serialization hands every value to a replacer before it goes on with the parts of what the replacer
returned; parsing hands every value to a reviver after its parts. Serialization needs a stack, as
deep as the tree that the replacer leaves.

`Codes` says that a value is serialized as a tree, on every large enough stack, and that this tree
is read back as the value. It is composed along the tree, and so is `Rejects`.
-/

open Filter

namespace JsonTree

/-- A text of the language, as its code units. -/
abbrev JsString : Type := List UInt16

instance lawfulBEqJsString : LawfulBEq JsString := List.instLawfulBEq

/-- The code units of a text of characters below the surrogates. -/
def units (text : List Char) : JsString := text.map fun c => UInt16.ofNat c.toNat

/-- Values over numbers and big integers. -/
inductive Value (ν β : Type) where
  | null
  | bool (value : Bool)
  | string (value : JsString)
  | number (value : ν)
  | bigint (value : β)
  | array (items : List (Value ν β))
  | object (members : List (JsString × Value ν β))

/-- Trees without big integers. -/
abbrev Plain (ν : Type) : Type := Value ν Empty

variable {ν β ε : Type} {value : Value ν β} {members : List (JsString × Value ν β)} {error : String}
variable {plains : List (JsString × Plain ν)}

/-- The value occurs in another one, at any depth. -/
inductive Within (part : Value ν β) : Value ν β → Prop where
  | self : Within part part
  | item {value : Value ν β} {items : List (Value ν β)} :
      value ∈ items → Within part value → Within part (.array items)
  | field {value : Value ν β} {key : JsString} {members : List (JsString × Value ν β)} :
      (key, value) ∈ members → Within part value → Within part (.object members)

/-- Every value that occurs satisfies the predicate. -/
def Everywhere (P : Value ν β → Prop) (value : Value ν β) : Prop :=
  ∀ part, Within part value → P part

/-- Induction on values: an array or an object may use the statement for its parts. -/
theorem Value.induct {motive : Value ν β → Prop}
    (leaf : ∀ value, (∀ items, value ≠ .array items) → (∀ members, value ≠ .object members) →
      motive value)
    (array : ∀ items, (∀ item ∈ items, motive item) → motive (.array items))
    (object : ∀ members, (∀ entry ∈ members, motive entry.2) → motive (.object members))
    (value : Value ν β) : motive value := by
  refine @Value.rec ν β motive (fun items => ∀ item ∈ items, motive item)
    (fun members => ∀ entry ∈ members, motive entry.2) (fun entry => motive entry.2)
    ?_ ?_ ?_ ?_ ?_ array object ?_ ?_ ?_ ?_ ?_ value
  case refine_6 | refine_8 => simp
  case refine_7 =>
    intro item items first rest
    exact List.forall_mem_cons.mpr ⟨first, rest⟩
  case refine_9 =>
    intro entry members first rest
    exact List.forall_mem_cons.mpr ⟨first, rest⟩
  case refine_10 => exact fun _ _ ih => ih
  all_goals
    intros
    exact leaf _ (fun _ same => by cases same) (fun _ same => by cases same)

section Everywhere

variable {P : Value ν β → Prop}

theorem everywhere_self (everywhere : Everywhere P value) : P value :=
  everywhere value .self

/-- A value without parts. -/
theorem everywhere_leaf (holds : P value) (noArray : ∀ items, value ≠ .array items)
    (noObject : ∀ members, value ≠ .object members) :
    Everywhere P value := by
  intro part within
  cases within with
  | self => exact holds
  | item => exact absurd rfl (noArray _)
  | field => exact absurd rfl (noObject _)

theorem everywhere_array {items : List (Value ν β)} :
    Everywhere P (.array items) ↔ P (.array items) ∧ ∀ item ∈ items, Everywhere P item := by
  constructor
  · intro everywhere
    exact ⟨everywhere_self everywhere, fun item member part within =>
      everywhere part (.item member within)⟩
  · rintro ⟨holds, each⟩ part within
    cases within with
    | self => exact holds
    | item member inner => exact each _ member part inner

theorem everywhere_object :
    Everywhere P (.object members) ↔
      P (.object members) ∧ ∀ entry ∈ members, Everywhere P entry.2 := by
  constructor
  · intro everywhere
    exact ⟨everywhere_self everywhere, fun entry member part within =>
      everywhere part (.field member within)⟩
  · rintro ⟨holds, each⟩ part within
    cases within with
    | self => exact holds
    | field member inner => exact each _ member part inner

end Everywhere

/-! ## Walks -/

def stackOverflow : String := "Maximum call stack size exceeded"

def unsupported : String := "Do not know how to serialize a BigInt"

/-- A member of an object, with the walk over its value. -/
def serializeMember (walk : Value ν β → Except String (Plain ν)) (entry : JsString × Value ν β) :
    Except String (JsString × Plain ν) := do
  return (entry.1, ← walk entry.2)

/-- The tree that is printed for a value. -/
def serialize (replace : Value ν β → Except String (Value ν β)) :
    Nat → Value ν β → Except String (Plain ν)
  | 0, _ => .error stackOverflow
  | stack + 1, value => do
      match ← replace value with
      | .null => return .null
      | .bool b => return .bool b
      | .string text => return .string text
      | .number n => return .number n
      | .bigint _ => .error unsupported
      | .array items => return .array (← items.mapM (serialize replace stack))
      | .object members =>
        return .object (← members.mapM (serializeMember (serialize replace stack)))

mutual

/-- The value that is returned for a tree that was read. -/
def internalize (revive : Value ν β → Except String (Value ν β)) :
    Plain ν → Except String (Value ν β)
  | .null => revive .null
  | .bool b => revive (.bool b)
  | .string text => revive (.string text)
  | .number n => revive (.number n)
  | .array items => do revive (.array (← internalizeItems revive items))
  | .object members => do revive (.object (← internalizeMembers revive members))

def internalizeItems (revive : Value ν β → Except String (Value ν β)) :
    List (Plain ν) → Except String (List (Value ν β))
  | [] => return []
  | item :: items => do return (← internalize revive item) :: (← internalizeItems revive items)

def internalizeMembers (revive : Value ν β → Except String (Value ν β)) :
    List (JsString × Plain ν) → Except String (List (JsString × Value ν β))
  | [] => return []
  | (key, value) :: members => do
      return (key, ← internalize revive value) :: (← internalizeMembers revive members)

end

/-! ## Lists -/

section Lists

variable {α γ : Type} {f : Nat → α → Except String γ}

theorem eventually_mapM {items : List α} {results : List γ}
    (each : List.Forall₂ (fun item result => ∀ᶠ stack in atTop, f stack item = .ok result)
      items results) :
    ∀ᶠ stack in atTop, items.mapM (f stack) = .ok results := by
  induction each with
  | nil => exact Eventually.of_forall fun _ => rfl
  | cons first _ ih =>
    filter_upwards [first, ih] with stack head tail
    rw [List.mapM_cons, head, tail]
    rfl

/-- The first item that is refused decides. -/
theorem eventually_mapM_error {before after : List α} {item : α} {results : List γ}
    (earlier : List.Forall₂ (fun item result => ∀ᶠ stack in atTop, f stack item = .ok result)
      before results) (refused : ∀ᶠ stack in atTop, f stack item = .error error) :
    ∀ᶠ stack in atTop, (before ++ item :: after).mapM (f stack) = .error error := by
  induction earlier with
  | nil =>
    filter_upwards [refused] with stack head
    rw [List.nil_append, List.mapM_cons, head]
    rfl
  | cons first _ ih =>
    filter_upwards [first, ih] with stack head tail
    rw [List.cons_append, List.mapM_cons, head, tail]
    rfl

/-- In a list whose items are all answered or refused, all are answered or one is refused after
answers for the ones before it. -/
theorem answered_or_refused {A : α → γ → Prop} {R : α → Prop} {items : List α}
    (each : ∀ item ∈ items, (∃ result, A item result) ∨ R item) :
    (∃ results, List.Forall₂ A items results) ∨
      ∃ before item after results, items = before ++ item :: after ∧
        List.Forall₂ A before results ∧ R item := by
  induction items with
  | nil => exact .inl ⟨[], .nil⟩
  | cons item items ih =>
    obtain ⟨here, later⟩ := List.forall_mem_cons.mp each
    rcases here with ⟨result, answered⟩ | refused
    · rcases ih later with ⟨results, all⟩ | ⟨before, next, after, results, rfl, all, refused⟩
      · exact .inl ⟨result :: results, .cons answered all⟩
      · exact .inr ⟨item :: before, next, after, result :: results, rfl, .cons answered all,
          refused⟩
    · exact .inr ⟨[], item, items, [], rfl, .nil, refused⟩

theorem right_of_forall₂ {A : α → γ → Prop} {Q : γ → Prop} {items : List α} {results : List γ}
    (each : List.Forall₂ A items results) (implies : ∀ item result, A item result → Q result) :
    ∀ result ∈ results, Q result := by
  induction each with
  | nil => simp
  | cons first _ ih => exact List.forall_mem_cons.mpr ⟨implies _ _ first, ih⟩

end Lists

/-! ## Composition -/

variable {replace revive : Value ν β → Except String (Value ν β)}

/-- One more frame of the stack. -/
theorem eventually_succ {P : Nat → Prop} (eventually : ∀ᶠ stack in atTop, P (stack + 1)) :
    ∀ᶠ stack in atTop, P stack := by
  obtain ⟨enough, holds⟩ := eventually_atTop.mp eventually
  refine eventually_atTop.mpr ⟨enough + 1, ?_⟩
  intro stack large
  obtain ⟨less, rfl⟩ : ∃ less, stack = less + 1 := ⟨stack - 1, by omega⟩
  exact holds less (by omega)

/-- The value is serialized as the tree, on every large enough stack. -/
def SerializesTo (replace : Value ν β → Except String (Value ν β)) (value : Value ν β)
    (plain : Plain ν) : Prop :=
  ∀ᶠ stack in atTop, serialize replace stack value = .ok plain

/-- The value is refused on every large enough stack. -/
def Rejects (replace : Value ν β → Except String (Value ν β)) (error : String)
    (value : Value ν β) : Prop :=
  ∀ᶠ stack in atTop, serialize replace stack value = .error error

/-- The value is serialized as the tree, which is read back as the value. -/
structure Codes (replace revive : Value ν β → Except String (Value ν β)) (value : Value ν β)
    (plain : Plain ν) : Prop where
  serialized : SerializesTo replace value plain
  internalized : internalize revive plain = .ok value

theorem Rejects.of_replace (refused : replace value = .error error) :
    Rejects replace error value := by
  refine eventually_succ (Eventually.of_forall fun stack => ?_)
  rw [serialize, refused]
  rfl

theorem SerializesTo.array {items : List (Value ν β)} {plains : List (Plain ν)}
    (replaced : replace value = .ok (.array items))
    (each : List.Forall₂ (SerializesTo replace) items plains) :
    SerializesTo replace value (.array plains) := by
  refine eventually_succ ?_
  filter_upwards [eventually_mapM each] with stack walked
  rw [serialize, replaced]
  change (items.mapM (serialize replace stack) >>= fun walked => pure (Value.array walked)) = _
  rw [walked]
  rfl

theorem Rejects.array {item : Value ν β} {before after : List (Value ν β)} {plains : List (Plain ν)}
    (replaced : replace value = .ok (.array (before ++ item :: after)))
    (earlier : List.Forall₂ (SerializesTo replace) before plains)
    (refused : Rejects replace error item) : Rejects replace error value := by
  refine eventually_succ ?_
  filter_upwards [eventually_mapM_error earlier refused] with stack walked
  rw [serialize, replaced]
  change ((before ++ item :: after).mapM (serialize replace stack) >>= fun walked =>
    pure (Value.array walked)) = _
  rw [walked]
  rfl

/-- Entries of an object under the same key. -/
def OnValues {δ : Type} (R : Value ν β → δ → Prop) (entry : JsString × Value ν β)
    (other : JsString × δ) : Prop := entry.1 = other.1 ∧ R entry.2 other.2

theorem keys_of_onValues {δ : Type} {R : Value ν β → δ → Prop} {others : List (JsString × δ)}
    (each : List.Forall₂ (OnValues R) members others) :
    others.map Prod.fst = members.map Prod.fst := by
  induction each with
  | nil => rfl
  | cons first _ ih => rw [List.map_cons, List.map_cons, ih, first.1]

theorem entry_serialized {entry : JsString × Value ν β} {plain : JsString × Plain ν}
    (serialized : OnValues (SerializesTo replace) entry plain) :
    ∀ᶠ stack in atTop, serializeMember (serialize replace stack) entry = .ok plain := by
  obtain ⟨key, value⟩ := entry
  obtain ⟨_, other⟩ := plain
  obtain ⟨rfl, walked⟩ := serialized
  filter_upwards [walked] with stack result
  change (serialize replace stack value >>= fun walked => pure (key, walked)) = _
  rw [result]
  rfl

theorem SerializesTo.object (replaced : replace value = .ok (.object members))
    (each : List.Forall₂ (OnValues (SerializesTo replace)) members plains) :
    SerializesTo replace value (.object plains) := by
  refine eventually_succ ?_
  filter_upwards [eventually_mapM (each.imp fun _ _ => entry_serialized)] with stack walked
  rw [serialize, replaced]
  change (members.mapM (serializeMember (serialize replace stack)) >>= fun walked =>
    pure (Value.object walked)) = _
  rw [walked]
  rfl

theorem Rejects.object {before after : List (JsString × Value ν β)} {entry : JsString × Value ν β}
    (replaced : replace value = .ok (.object (before ++ entry :: after)))
    (earlier : List.Forall₂ (OnValues (SerializesTo replace)) before plains)
    (refused : Rejects replace error entry.2) : Rejects replace error value := by
  have refusedEntry : ∀ᶠ stack in atTop,
      serializeMember (serialize replace stack) entry = .error error := by
    filter_upwards [refused] with stack result
    rw [serializeMember, result]
    rfl
  refine eventually_succ ?_
  filter_upwards [eventually_mapM_error (earlier.imp fun _ _ => entry_serialized) refusedEntry]
    with stack walked
  rw [serialize, replaced]
  change ((before ++ entry :: after).mapM (serializeMember (serialize replace stack)) >>=
    fun walked => pure (Value.object walked)) = _
  rw [walked]
  rfl

theorem internalizeItems_of_forall {items : List (Value ν β)} {plains : List (Plain ν)}
    (each : List.Forall₂ (fun value plain => internalize revive plain = .ok value) items plains) :
    internalizeItems revive plains = .ok items := by
  induction each with
  | nil => rfl
  | cons first _ ih =>
    rw [internalizeItems, first, ih]
    rfl

theorem internalizeMembers_of_forall
    (each : List.Forall₂ (OnValues fun value plain => internalize revive plain = .ok value)
      members plains) :
    internalizeMembers revive plains = .ok members := by
  induction each with
  | nil => rfl
  | @cons entry plain _ _ first _ ih =>
    obtain ⟨key, value⟩ := entry
    obtain ⟨_, other⟩ := plain
    obtain ⟨rfl, read⟩ := first
    rw [internalizeMembers, show internalize revive other = .ok value from read, ih]
    rfl

/-- An array that neither walk changes. -/
theorem Codes.array {items : List (Value ν β)} {plains : List (Plain ν)}
    (kept : replace (.array items) = .ok (.array items))
    (returned : revive (.array items) = .ok (.array items))
    (each : List.Forall₂ (Codes replace revive) items plains) :
    Codes replace revive (.array items) (.array plains) := by
  refine ⟨.array kept (each.imp fun _ _ codes => codes.serialized), ?_⟩
  rw [internalize, internalizeItems_of_forall (each.imp fun _ _ codes => codes.internalized)]
  exact returned

/-- An object that neither walk changes. -/
theorem Codes.object (kept : replace (.object members) = .ok (.object members))
    (returned : revive (.object members) = .ok (.object members))
    (each : List.Forall₂ (OnValues (Codes replace revive)) members plains) :
    Codes replace revive (.object members) (.object plains) := by
  refine ⟨.object kept (each.imp fun _ _ same => ⟨same.1, same.2.serialized⟩), ?_⟩
  rw [internalize,
    internalizeMembers_of_forall (each.imp fun _ _ same => ⟨same.1, same.2.internalized⟩)]
  exact returned

end JsonTree
