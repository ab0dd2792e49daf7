import MiniScheme.Proofs.Eval.Logic

/-!
# Disciplines of evaluation

A discipline says when a computation that is run for a frame obeys it, and for which frames and
closures it is kept, once and for all: those that are made on the way are counted from the
beginning. It is a logic of evaluation with one world, so every evaluation and every call obeys it
(`Discipline.obeys_eval`, `Discipline.obeys_apply`).

What a computation gives and what it leaves (`Machine.outcome`, `Machine.after`), and which closures
a value holds (`Value.Within`), are said here for all that follows.
-/
namespace MiniScheme

namespace Machine

/-- The value that a computation gives, or why it gives none. -/
def outcome {α : Type} (m : Machine α) (s : Store) : Except Stop α :=
  match m s with
  | .ok a _ => .ok a
  | .error why _ => .error why

/-- The store that a computation leaves, with a value or without. -/
def after {α : Type} (m : Machine α) (s : Store) : Store :=
  match m s with
  | .ok _ s' => s'
  | .error _ s' => s'

variable {α β : Type} (m : Machine α) (next : α → Machine β) (s : Store)

theorem outcome_bind : (m >>= next).outcome s =
    match m.outcome s with
    | .ok a => (next a).outcome (m.after s)
    | .error why => .error why := by
  change outcome (EStateM.bind m next) s = _
  unfold outcome after EStateM.bind
  cases m s <;> rfl

theorem after_bind : (m >>= next).after s =
    match m.outcome s with
    | .ok a => (next a).after (m.after s)
    | .error _ => m.after s := by
  change after (EStateM.bind m next) s = _
  unfold outcome after EStateM.bind
  cases m s <;> rfl

/-- The computation gives only what `P` says, and leaves a store that is related to the one it began
with. -/
structure Leads (R : Store → Store → Prop) {α : Type} (m : Machine α) (P : α → Prop) (s : Store) :
    Prop where
  result : ∀ a, m.outcome s = .ok a → P a
  related : R s (m.after s)

variable {m next s} in
theorem Leads.bind {R : Store → Store → Prop} {P : α → Prop} {Q : β → Prop}
    (first : Leads R m P s) (trans : ∀ {s s' s''}, R s s' → R s' s'' → R s s'')
    (rest : ∀ a, P a → ∀ s, Leads R (next a) Q s) : Leads R (m >>= next) Q s := by
  cases given : m.outcome s with
  | ok a =>
    obtain ⟨result, related⟩ := rest a (first.result a given) (m.after s)
    refine ⟨?_, ?_⟩
    · rwa [outcome_bind, given]
    · rw [after_bind, given]
      exact trans first.related related
  | error why =>
    refine ⟨?_, ?_⟩
    · rw [outcome_bind, given]
      exact fun _ none => nomatch none
    · rw [after_bind, given]
      exact first.related

theorem outcome_lookup (f : FrameId) (name : String) (span : Span) :
    (lookup f name span).outcome s =
      match s.get? f name with
      | some v => .ok v
      | none => .error (.failed (.unbound name span)) := by
  rw [outcome, lookup_eq]
  cases s.get? f name <;> rfl

@[simp] theorem after_lookup (f : FrameId) (name : String) (span : Span) :
    (lookup f name span).after s = s := by
  rw [after, lookup_eq]
  cases s.get? f name <;> rfl

theorem outcome_assign (f : FrameId) (name : String) (v : Value) (span : Span) :
    (assign f name v span).outcome s =
      match s.find? f name with
      | some _ => .ok ()
      | none => .error (.failed (.unbound name span)) := by
  rw [outcome, assign, Store.set?]
  cases s.find? f name <;> rfl

theorem after_assign (f : FrameId) (name : String) (v : Value) (span : Span) :
    (assign f name v span).after s =
      match s.find? f name with
      | some found => s.define found.1 name v
      | none => s := by
  rw [after, assign, Store.set?]
  cases s.find? f name <;> rfl

end Machine

/-- Every closure in the value is one of `C`. -/
def Value.Within (C : ClosureId → Prop) : Value → Prop
  | .pair _ _ car cdr => Value.Within C car ∧ Value.Within C cdr
  | .procedure _ (.closure id _) => C id
  | _ => True

namespace Value

variable {C : ClosureId → Prop} {v : Value}

@[simp] theorem within_nil (span : Span) : Within C (.nil span) := trivial

theorem within_withSpan (span : Span) (within : v.Within C) : Within C (v.withSpan span) := by
  cases v with
  | leaf _ r =>
    cases r with
    | unspecified => trivial
    | procedure p => cases p <;> exact within
  | _ => exact within

theorem within_of_forall (all : ∀ id, C id) (v : Value) : v.Within C := by
  induction v with
  | pair _ _ _ _ car cdr => exact ⟨car, cdr⟩
  | leaf _ r =>
    cases r with
    | unspecified => trivial
    | procedure p =>
      cases p with
      | primitive => trivial
      | closure id => exact all id
  | _ => trivial

end Value

namespace Store

/-- A store of nothing but the counter of pairs. -/
def counting (next : CellId) : Store := ⟨#[], #[], next⟩

/-- Making a list reads and changes nothing of a store but the counter of pairs. -/
theorem addList_eq (s : Store) (tail : Value) (vs : List Value) :
    s.addList tail vs = (((counting s.nextCell).addList tail vs).1,
      { s with nextCell := ((counting s.nextCell).addList tail vs).2.nextCell }) := by
  induction vs with
  | nil => rfl
  | cons v vs ih =>
    rw [addList, ih]
    rfl

theorem within_addList {C : ClosureId → Prop} (s : Store) {tail : Value} {vs : List Value}
    (tailWithin : tail.Within C) (within : ∀ v ∈ vs, v.Within C) :
    (s.addList tail vs).1.Within C := by
  induction vs with
  | nil => exact tailWithin
  | cons v vs ih =>
    rw [List.forall_mem_cons] at within
    exact ⟨within.1, ih within.2⟩

end Store

namespace Bindings

/-- Every closure in a value bound is one of `C`. -/
def Within (C : ClosureId → Prop) (b : Bindings) : Prop :=
  ∀ name v, b.get? name = some v → v.Within C

variable {C : ClosureId → Prop} {b : Bindings}

theorem within_put (name : String) {v : Value} (within : b.Within C) (new : v.Within C) :
    Within C (b.put name v) := by
  intro other w bound
  rw [get?_put] at bound
  split at bound
  · cases bound
    exact new
  · exact within other w bound

theorem within_foldl_put (bounds : List (String × Value)) (within : b.Within C)
    (new : ∀ bound ∈ bounds, bound.2.Within C) :
    Within C (bounds.foldl (fun b bound => b.put bound.1 bound.2) b) := by
  induction bounds generalizing b with
  | nil => exact within
  | cons bound bounds ih =>
    rw [List.forall_mem_cons] at new
    exact ih (within_put bound.1 within new.1) new.2

end Bindings

/-- The frame of a call is a new one inside the parent, and its bindings are made of the arguments
and, by the counter of pairs, of new pairs. -/
theorem Store.bindFormals_eq {C : ClosureId → Prop} (parent : FrameId) (formals : List String)
    (variadic : Bool) {arguments : List Value} (span : Span)
    (within : ∀ v ∈ arguments, v.Within C) :
    ∃ bindings : CellId → Bindings × CellId, (∀ next, (bindings next).1.Within C) ∧
      ∀ s : Store, s.bindFormals parent formals variadic arguments span =
        (s.frames.size, { s with
          frames := s.frames.push ⟨some parent, (bindings s.nextCell).1⟩
          nextCell := (bindings s.nextCell).2 }) := by
  let required := (Arity.ofFormals formals variadic).required
  let fixed : Bindings :=
    ((formals.take required).zip arguments).foldl (fun b bound => b.put bound.1 bound.2) []
  have fixedWithin : fixed.Within C := by
    have empty : Bindings.Within C [] := fun _ _ bound => by cases bound
    apply Bindings.within_foldl_put _ empty
    intro bound member
    exact within bound.2 (List.of_mem_zip member).2
  unfold Store.bindFormals
  dsimp only
  split
  · next rest _ =>
    let list (next : CellId) :=
      (Store.counting next).addList (.nil span) (arguments.drop required)
    have collected (next : CellId) : (list next).1.Within C :=
      Store.within_addList _ (Value.within_nil span) fun v member =>
        within v (List.mem_of_mem_drop member)
    refine ⟨fun next => (fixed.put rest (list next).1, (list next).2.nextCell),
      fun next => Bindings.within_put rest fixedWithin (collected next), ?_⟩
    intro s
    rw [Store.addList_eq s]
    rfl
  · exact ⟨fun next => (fixed, next), fun _ => fixedWithin, fun _ => rfl⟩

structure Discipline where
  /-- The frames in which expressions may be evaluated. -/
  frame : FrameId → Prop
  /-- The closures that expressions and values may hold. -/
  closure : ClosureId → Prop
  /-- The computation, run for the frame, keeps the discipline and gives only what `P` says. -/
  Obeys (f : FrameId) {α : Type} (m : Machine α) (P : α → Prop) : Prop
  pure {f : FrameId} {α : Type} {P : α → Prop} {a : α} (result : P a) : Obeys f (pure a) P
  stop {f : FrameId} {α : Type} {P : α → Prop} (why : Stop) : Obeys f (throw why : Machine α) P
  bind {f : FrameId} {α β : Type} {m : Machine α} {next : α → Machine β} {P : α → Prop}
    {Q : β → Prop} (first : Obeys f m P) (rest : ∀ a, P a → Obeys f (next a) Q) :
    Obeys f (m >>= next) Q
  lookup {f : FrameId} (name : String) (span : Span) (inFrame : frame f) :
    Obeys f (Machine.lookup f name span) (Value.Within closure)
  assign {f : FrameId} {v : Value} (name : String) (span : Span) (inFrame : frame f)
    (within : v.Within closure) : Obeys f (Machine.assign f name v span) fun _ => True
  define {f : FrameId} {v : Value} (name : String) (inFrame : frame f)
    (within : v.Within closure) : Obeys f (Machine.define f name v) fun _ => True
  /-- What is evaluated in a new frame is run for that frame. -/
  enter {f parent : FrameId} {α : Type} {P : α → Prop} {bindings : CellId → Bindings × CellId}
    {body : FrameId → Machine α} (inParent : frame parent)
    (within : ∀ next, (bindings next).1.Within closure)
    (inside : ∀ inner, frame inner → Obeys inner (body inner) P) :
    Obeys f (Machine.make (fun s => (s.frames.size, { s with
      frames := s.frames.push ⟨some parent, (bindings s.nextCell).1⟩
      nextCell := (bindings s.nextCell).2 })) >>= body) P
  makeClosure {f : FrameId} {c : Closure} (inFrame : frame c.frame)
    (within : ∀ e ∈ c.body, e.Within closure) :
    Obeys f (Machine.make fun s => s.addClosure c) closure
  /-- What reads a store to see one closure and nothing else. -/
  fetch {f : FrameId} {α : Type} {P : α → Prop} {id : ClosureId} {next : Store → Machine α}
    (held : closure id)
    (only : ∀ s t : Store, s.closures[id]? = t.closures[id]? → next s = next t)
    (rest : ∀ s : Store, (∀ c, s.closures[id]? = some c →
      frame c.frame ∧ ∀ e ∈ c.body, e.Within closure) → Obeys f (next s) P) :
    Obeys f (get >>= next) P
  makePairs {f : FrameId} (pairs : CellId → Value × CellId)
    (within : ∀ next, (pairs next).1.Within closure) :
    Obeys f (Machine.make fun s => ((pairs s.nextCell).1,
      { s with nextCell := (pairs s.nextCell).2 })) (Value.Within closure)

namespace Discipline

variable (d : Discipline) {f : FrameId}

/-- The value holds only closures that may be held. -/
def Allows (v : Value) : Prop := v.Within d.closure

/-- Calls enter a frame that is made of the arguments and of new pairs. -/
theorem obeys_bindFormals {parent : FrameId} {α : Type} {P : α → Prop} {formals : List String}
    {variadic : Bool} {arguments : List Value} {span : Span} {body : FrameId → Machine α}
    (inParent : d.frame parent) (within : ∀ v ∈ arguments, d.Allows v)
    (inside : ∀ inner, d.frame inner → d.Obeys inner (body inner) P) :
    d.Obeys f (Machine.make (fun s => s.bindFormals parent formals variadic arguments span) >>=
      body) P := by
  obtain ⟨bindings, bindingsWithin, shape⟩ :=
    Store.bindFormals_eq parent formals variadic span within
  rw [funext shape]
  exact d.enter inParent bindingsWithin inside

theorem obeys_list {vs : List Value} (span : Span) (within : ∀ v ∈ vs, d.Allows v) :
    d.Obeys f (Primitive.call .list vs span) d.Allows := by
  let list (next : CellId) := (Store.counting next).addList (.nil span) vs
  have shape : Primitive.call .list vs span = Machine.make fun s =>
      ((list s.nextCell).1.withSpan span,
        { s with nextCell := (list s.nextCell).2.nextCell }) := by
    refine congrArg Machine.make (funext fun s => ?_)
    rw [Store.addList_eq s]
  rw [shape]
  exact d.makePairs (fun next => ((list next).1.withSpan span, (list next).2.nextCell)) fun _ =>
    Value.within_withSpan span (Store.within_addList _ (Value.within_nil span) within)

/-- A discipline is a logic of one world, where all that may be held is known from the beginning. -/
def logic : EvalLogic where
  World := Unit
  Later _ _ := True
  frame _ := d.frame
  value _ := d.Allows
  Obeys _ f _ m P := d.Obeys f m (P ())
  frame_later _ known := known
  value_later _ known := known
  atom _ _ _ _ := trivial
  unspecified _ _ := trivial
  parts known := known
  pure result := d.pure result
  stop why := d.stop why
  bind first rest := d.bind first fun a result => rest () a trivial result
  lookup name span inFrame := d.lookup name span inFrame
  assign name span inFrame known := d.assign name span inFrame known
  define inFrame _ known := d.define _ inFrame known
  enter inParent known inside :=
    d.obeys_bindFormals inParent known fun inner inFrame => inside () inner trivial inFrame
  makeClosure _ _ inFrame known := d.bind (d.makeClosure inFrame known) fun _ made => d.pure made
  fetch held only rest := d.fetch held only rest
  cons span first second :=
    d.makePairs (fun next => (.pair span next _ _, next + 1)) fun _ => ⟨first, second⟩
  list span known := d.obeys_list span known

/-- Every evaluation, however deep, obeys the discipline. -/
theorem obeys_eval (fuel : Nat) {e : Value} (inFrame : d.frame f) (allowed : d.Allows e) :
    d.Obeys f (eval fuel f e) d.Allows :=
  d.logic.obeys_eval (w := ()) fuel inFrame allowed

/-- Every call obeys the discipline, for whatever frame it is made. -/
theorem obeys_apply (fuel : Nat) (p : Procedure) {args : List Value} {origin : Span} (span : Span)
    (callable : d.Allows (.procedure origin p)) (allowed : ∀ v ∈ args, d.Allows v) :
    d.Obeys f (apply fuel p args span) d.Allows :=
  d.logic.obeys_apply (w := ()) fuel p span callable allowed

end Discipline
end MiniScheme
