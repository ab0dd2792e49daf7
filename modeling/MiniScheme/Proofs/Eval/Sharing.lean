import Mathlib
import MiniScheme.Proofs.Eval.Forest

/-!
# One identity, one pair

A value carries all that is in it, so nothing in its type keeps two pairs with one identity from
holding different things. They never do: a pair is made with an identity that no pair has had
before, and is never changed. So there is a table of what each pair holds (`Heap`) with which all
values conform that are bound in a frame, stand in the body of a closure, or are given by an
evaluation. The table only grows, and it is the world of a logic of evaluation (`sharing`).

`Configuration` is a store with the values that are held outside of it, and `Configuration.Step`
what can be done with both: by a host, or by evaluation itself between two of its steps.
-/
namespace MiniScheme

/-- What the pairs made so far hold. Only those below `size` have been made. -/
structure Heap where
  size : CellId
  cell : CellId → Value × Value

/-- Every pair in the value is one of the heap and holds what the heap says. -/
def Value.Conforms (h : Heap) : Value → Prop
  | .pair _ mark car cdr =>
    mark < h.size ∧ h.cell mark = (car, cdr) ∧ Value.Conforms h car ∧ Value.Conforms h cdr
  | _ => True

namespace Heap

/-- No pair is lost, and none is changed. -/
structure Later (h h' : Heap) : Prop where
  size : h.size ≤ h'.size
  cell : ∀ mark < h.size, h'.cell mark = h.cell mark

theorem Later.refl (h : Heap) : Later h h := ⟨le_rfl, fun _ _ => rfl⟩

theorem Later.trans {h h' h'' : Heap} (first : Later h h') (rest : Later h' h'') : Later h h'' :=
  ⟨first.size.trans rest.size, fun mark old =>
    (rest.cell mark (old.trans_le first.size)).trans (first.cell mark old)⟩

/-- One pair more. -/
def push (h : Heap) (car cdr : Value) : Heap :=
  ⟨h.size + 1, Function.update h.cell h.size (car, cdr)⟩

theorem later_push (h : Heap) (car cdr : Value) : Later h (h.push car cdr) :=
  ⟨Nat.le_succ _, fun _ old => Function.update_of_ne (Nat.ne_of_lt old) _ _⟩

theorem cell_push (h : Heap) (car cdr : Value) : (h.push car cdr).cell h.size = (car, cdr) :=
  Function.update_self _ _ _

end Heap

namespace Value

variable {h h' : Heap} {v car cdr : Value}

theorem Conforms.later (later : h.Later h') (conforms : v.Conforms h) : v.Conforms h' := by
  induction v with
  | pair _ mark car cdr ihCar ihCdr =>
    obtain ⟨old, holds, first, second⟩ := conforms
    exact ⟨old.trans_le later.size, (later.cell mark old).trans holds, ihCar first, ihCdr second⟩
  | _ => trivial

theorem Conforms.withSpan (span : Span) (conforms : v.Conforms h) :
    Conforms h (v.withSpan span) := by
  cases v with
  | pair => exact conforms
  | _ => trivial

/-- A new pair conforms with the heap that knows it. -/
theorem conforms_push (span : Span) (first : car.Conforms h) (second : cdr.Conforms h) :
    Conforms (h.push car cdr) (.pair span h.size car cdr) :=
  have later := h.later_push car cdr
  ⟨Nat.lt_succ_self _, h.cell_push car cdr, first.later later, second.later later⟩

/-- A datum is made of new pairs, the outer ones before those inside them. -/
theorem conforms_ofDatum (h : Heap) (d : Datum) :
    ∃ h', h.Later h' ∧ h'.size = (ofDatum h.size d).2 ∧ (ofDatum h.size d).1.Conforms h' := by
  induction d generalizing h with
  | atom => exact ⟨h, .refl h, rfl, trivial⟩
  | nil => exact ⟨h, .refl h, rfl, trivial⟩
  | leaf _ e => exact e.elim
  | pair span _ car cdr ihCar ihCdr =>
    -- the cell is taken first, with what will have been made for it
    let first := ofDatum (h.size + 1) car
    let second := ofDatum first.2 cdr
    obtain ⟨h₁, later₁, size₁, conforms₁⟩ := ihCar (h.push first.1 second.1)
    obtain ⟨h₂, later₂, size₂, conforms₂⟩ := ihCdr h₁
    rw [size₁] at size₂ conforms₂
    have later := later₁.trans later₂
    have taken : h.size < (h.push first.1 second.1).size := Nat.lt_succ_self _
    refine ⟨h₂, (h.later_push _ _).trans later, size₂, ?_⟩
    exact ⟨taken.trans_le later.size, (later.cell _ taken).trans (h.cell_push _ _),
      conforms₁.later later₂, conforms₂⟩

end Value

namespace Bindings

variable {P : Value → Prop} {b : Bindings}

theorem forall_put {name : String} {v : Value}
    (all : ∀ name v, b.get? name = some v → P v) (new : P v) :
    ∀ other w, (b.put name v).get? other = some w → P w := by
  intro other w bound
  rw [get?_put] at bound
  split at bound
  · cases bound
    exact new
  · exact all other w bound

theorem forall_foldl_put {bounds : List (String × Value)}
    (all : ∀ name v, b.get? name = some v → P v) (new : ∀ bound ∈ bounds, P bound.2) :
    ∀ name v, (bounds.foldl (fun b bound => b.put bound.1 bound.2) b).get? name = some v →
      P v := by
  induction bounds generalizing b with
  | nil => exact all
  | cons bound bounds ih =>
    rw [List.forall_mem_cons] at new
    exact ih (forall_put all new.1) new.2

end Bindings

namespace Store

/-- All values that the store holds, bound in a frame or in the body of a closure, are as `P`
says. -/
structure Holds (P : Value → Prop) (s : Store) : Prop where
  bound : ∀ (f : FrameId) (frame : Frame) name v,
    s.frames[f]? = some frame → frame.bindings.get? name = some v → P v
  body : ∀ (id : ClosureId) (c : Closure), s.closures[id]? = some c → ∀ e ∈ c.body, P e

section Holds

variable {P : Value → Prop} {s : Store} {f : FrameId} {v : Value}

theorem Holds.define (name : String) (holds : s.Holds P) (new : P v) :
    (s.define f name v).Holds P := by
  refine ⟨?_, holds.body⟩
  intro g after other w there binding
  rw [frames_define] at there
  split at there
  · obtain ⟨before, was, rfl⟩ := Option.map_eq_some_iff.mp there
    exact Bindings.forall_put (fun name v => holds.bound g before name v was) new other w binding
  · exact holds.bound g after other w there binding

theorem Holds.addFrame {frame : Frame} (holds : s.Holds P)
    (new : ∀ name v, frame.bindings.get? name = some v → P v) : (s.addFrame frame).2.Holds P := by
  refine ⟨?_, holds.body⟩
  intro g frame' name w there binding
  change (s.frames.push frame)[g]? = some frame' at there
  rw [Array.getElem?_push] at there
  split at there
  · cases there
    exact new name w binding
  · exact holds.bound g frame' name w there binding

theorem Holds.addClosure {c : Closure} (holds : s.Holds P) (new : ∀ e ∈ c.body, P e) :
    (s.addClosure c).2.Holds P := by
  refine ⟨holds.bound, ?_⟩
  intro id c' there
  change (s.closures.push c)[id]? = some c' at there
  rw [Array.getElem?_push] at there
  split at there
  · cases there
    exact new
  · exact holds.body id c' there

theorem Holds.get? {name : String} (holds : s.Holds P) (found : s.get? f name = some v) : P v := by
  obtain ⟨⟨g, w⟩, place, rfl⟩ := Option.map_eq_some_iff.mp found
  obtain ⟨frame, there, binding⟩ := find?_eq_some place
  exact holds.bound g frame name w there binding

end Holds

/-- All that the store holds, bound in a frame or in the body of a closure, conforms with a heap of
as many pairs as have been made. -/
structure Kept (h : Heap) (s : Store) : Prop where
  size : h.size = s.nextCell
  bound : ∀ (f : FrameId) (frame : Frame) name v,
    s.frames[f]? = some frame → frame.bindings.get? name = some v → v.Conforms h
  body : ∀ (id : ClosureId) (c : Closure), s.closures[id]? = some c → ∀ e ∈ c.body, e.Conforms h

variable {h h' : Heap} {s : Store} {f : FrameId} {v : Value}

theorem Kept.later {next : CellId} (later : h.Later h') (size : h'.size = next) (kept : s.Kept h) :
    { s with nextCell := next }.Kept h' :=
  ⟨size, fun f frame name v there binding => (kept.bound f frame name v there binding).later later,
    fun id c there e member => (kept.body id c there e member).later later⟩

theorem Kept.holds (kept : s.Kept h) : s.Holds fun v => v.Conforms h := ⟨kept.bound, kept.body⟩

/-- Nothing is made, and the values that are held conform. -/
theorem Kept.of_holds {s' : Store} (kept : s.Kept h) (same : s'.nextCell = s.nextCell)
    (holds : s'.Holds fun v => v.Conforms h) : s'.Kept h :=
  ⟨kept.size.trans same.symm, holds.bound, holds.body⟩

theorem Kept.define (name : String) (kept : s.Kept h) (conforms : v.Conforms h) :
    (s.define f name v).Kept h :=
  kept.of_holds rfl (kept.holds.define name conforms)

theorem Kept.addFrame {frame : Frame} (kept : s.Kept h)
    (conforms : ∀ name v, frame.bindings.get? name = some v → v.Conforms h) :
    (s.addFrame frame).2.Kept h :=
  kept.of_holds rfl (kept.holds.addFrame conforms)

theorem Kept.addClosure {c : Closure} (kept : s.Kept h) (conforms : ∀ e ∈ c.body, e.Conforms h) :
    (s.addClosure c).2.Kept h :=
  kept.of_holds rfl (kept.holds.addClosure conforms)

theorem Kept.assign (name : String) (span : Span) (kept : s.Kept h) (conforms : v.Conforms h) :
    ((Machine.assign f name v span).after s).Kept h := by
  rw [Machine.after_assign]
  cases s.find? f name with
  | none => exact kept
  | some found => exact kept.define name conforms

theorem Kept.get? {name : String} (kept : s.Kept h) (found : s.get? f name = some v) :
    v.Conforms h :=
  kept.holds.get? found

theorem Kept.addPair {car cdr : Value} (span : Span) (kept : s.Kept h) (first : car.Conforms h)
    (second : cdr.Conforms h) :
    ∃ h', h.Later h' ∧ (s.addPair span car cdr).2.Kept h' ∧
      (s.addPair span car cdr).1.Conforms h' := by
  have later := h.later_push car cdr
  refine ⟨h.push car cdr, later, kept.later later (congrArg (· + 1) kept.size), ?_⟩
  rw [Store.addPair, ← kept.size]
  exact Value.conforms_push span first second

/-- A list is made of new pairs in front of what there was. -/
theorem Kept.addList {tail : Value} {vs : List Value} (kept : s.Kept h)
    (tailConforms : tail.Conforms h) (conforms : ∀ v ∈ vs, v.Conforms h) :
    ∃ h', h.Later h' ∧ (s.addList tail vs).2.Kept h' ∧ (s.addList tail vs).1.Conforms h' := by
  induction vs with
  | nil => exact ⟨h, .refl h, kept, tailConforms⟩
  | cons v vs ih =>
    rw [List.forall_mem_cons] at conforms
    obtain ⟨h₁, later₁, kept₁, rest⟩ := ih conforms.2
    obtain ⟨h₂, later₂, kept₂, list⟩ := kept₁.addPair _ (conforms.1.later later₁) rest
    exact ⟨h₂, later₁.trans later₂, kept₂, list⟩

theorem Kept.load (kept : s.Kept h) (d : Datum) :
    ∃ h', h.Later h' ∧ (s.load d).2.Kept h' ∧ (s.load d).1.Conforms h' := by
  obtain ⟨h', later, size, conforms⟩ := Value.conforms_ofDatum h d
  rw [kept.size] at size conforms
  exact ⟨h', later, kept.later later size, conforms⟩

/-- The frame of a call binds the arguments, and new pairs for those that are left over. -/
theorem Kept.bindFormals {arguments : List Value} (parent : FrameId) (formals : List String)
    (variadic : Bool) (span : Span) (kept : s.Kept h) (conforms : ∀ v ∈ arguments, v.Conforms h) :
    ∃ h', h.Later h' ∧ (s.bindFormals parent formals variadic arguments span).2.Kept h' := by
  let required := (Arity.ofFormals formals variadic).required
  let fixed : Bindings :=
    ((formals.take required).zip arguments).foldl (fun b bound => b.put bound.1 bound.2) []
  have fixedConforms : ∀ name v, fixed.get? name = some v → v.Conforms h :=
    Bindings.forall_foldl_put (fun _ _ none => nomatch none) fun bound member =>
      conforms bound.2 (List.of_mem_zip member).2
  unfold Store.bindFormals
  dsimp only
  split
  · next rest _ =>
    have left : ∀ v ∈ arguments.drop required, v.Conforms h :=
      fun v member => conforms v (List.mem_of_mem_drop member)
    have empty : Value.Conforms h (.nil span) := trivial
    obtain ⟨h', later, kept', list⟩ := kept.addList empty left
    refine ⟨h', later, kept'.addFrame ?_⟩
    exact Bindings.forall_put (fun name v bound => (fixedConforms name v bound).later later) list
  · exact ⟨h, .refl h, kept.addFrame fixedConforms⟩

theorem Kept.extend {arguments : List Value} (parent : FrameId) (formals : List String)
    (variadic : Bool) (span : Span) (kept : s.Kept h) (conforms : ∀ v ∈ arguments, v.Conforms h) :
    ∃ h', h.Later h' ∧
      ((Machine.extend parent formals variadic arguments span).after s).Kept h' := by
  unfold Machine.extend
  dsimp only
  split
  · exact kept.bindFormals parent formals variadic span conforms
  · exact ⟨h, .refl h, kept⟩

end Store

/-- From a store that a heap keeps, the computation leads to one that a later heap keeps, and what
it gives is as `P` says of that. -/
def Machine.Shares {α : Type} (m : Machine α) (P : Heap → α → Prop) (h : Heap) : Prop :=
  ∀ s : Store, s.Kept h →
    ∃ h', h.Later h' ∧ (m.after s).Kept h' ∧ ∀ a, m.outcome s = .ok a → P h' a

namespace Machine

variable {α β : Type} {h : Heap}

theorem Shares.bind {m : Machine α} {next : α → Machine β} {P : Heap → α → Prop}
    {Q : Heap → β → Prop} (first : m.Shares P h)
    (rest : ∀ h' a, h.Later h' → P h' a → (next a).Shares Q h') : (m >>= next).Shares Q h := by
  intro s kept
  obtain ⟨h₁, later₁, kept₁, result⟩ := first s kept
  rw [after_bind, outcome_bind]
  cases given : m.outcome s with
  | ok a =>
    obtain ⟨h₂, later₂, kept₂, result₂⟩ := rest h₁ a later₁ (result a given) (m.after s) kept₁
    exact ⟨h₂, later₁.trans later₂, kept₂, result₂⟩
  | error why => exact ⟨h₁, later₁, kept₁, fun _ none => nomatch none⟩

/-- What leaves the store as it is. -/
theorem shares_of_after_eq {m : Machine α} {P : Heap → α → Prop} (same : ∀ s, m.after s = s)
    (result : ∀ s a, s.Kept h → m.outcome s = .ok a → P h a) : m.Shares P h := by
  intro s kept
  refine ⟨h, .refl h, ?_, fun a => result s a kept⟩
  rwa [same]

theorem shares_make {make : Store → α × Store} {P : Heap → α → Prop}
    (made : ∀ s : Store, s.Kept h → ∃ h', h.Later h' ∧ (make s).2.Kept h' ∧ P h' (make s).1) :
    (Machine.make make).Shares P h := by
  intro s kept
  obtain ⟨h', later, kept', result⟩ := made s kept
  refine ⟨h', later, kept', ?_⟩
  rintro a ⟨⟩
  exact result

theorem shares_lookup (f : FrameId) (name : String) (span : Span) :
    (lookup f name span).Shares (fun h v => v.Conforms h) h := by
  refine shares_of_after_eq (fun s => after_lookup s f name span) fun s v kept given => ?_
  rw [outcome_lookup] at given
  split at given
  · next found =>
    cases given
    exact kept.get? found
  · cases given

theorem shares_bindFormals {arguments : List Value} (parent : FrameId) (formals : List String)
    (variadic : Bool) (span : Span) (conforms : ∀ v ∈ arguments, v.Conforms h) :
    (Machine.make fun s => s.bindFormals parent formals variadic arguments span).Shares
      (fun _ _ => True) h := by
  refine shares_make fun s kept => ?_
  obtain ⟨h', later, kept'⟩ := kept.bindFormals parent formals variadic span conforms
  exact ⟨h', later, kept', trivial⟩

theorem shares_list {vs : List Value} (span : Span) (conforms : ∀ v ∈ vs, v.Conforms h) :
    (Primitive.call .list vs span).Shares (fun h v => v.Conforms h) h := by
  refine shares_make fun s kept => ?_
  have empty : Value.Conforms h (.nil span) := trivial
  obtain ⟨h', later, kept', list⟩ := kept.addList empty conforms
  exact ⟨h', later, kept', list.withSpan span⟩

end Machine

/-- Computations that make new pairs only, and change none. The world is the heap. -/
def sharing : EvalLogic where
  World := Heap
  Later := Heap.Later
  frame _ _ := True
  value h v := v.Conforms h
  Obeys h _ _ m P := m.Shares P h
  frame_later _ known := known
  value_later later known := known.later later
  atom _ _ _ _ := trivial
  unspecified _ _ := trivial
  parts known := known.2.2
  pure result := Machine.shares_of_after_eq (fun _ => rfl) fun _ _ _ same => by
    cases same
    exact result
  stop _ := Machine.shares_of_after_eq (fun _ => rfl) fun _ _ _ none => nomatch none
  bind first rest := first.bind rest
  lookup name span _ := Machine.shares_lookup _ name span
  assign name span _ known s kept :=
    ⟨_, .refl _, kept.assign name span known, fun _ _ => trivial⟩
  define _ _ known s kept := ⟨_, .refl _, kept.define _ known, fun _ _ => trivial⟩
  enter _ known inside :=
    (Machine.shares_bindFormals _ _ _ _ known).bind fun h' inner later _ =>
      inside h' inner later trivial
  makeClosure name span _ known s kept :=
    ⟨_, .refl _, kept.addClosure known, fun _ same => by cases same; trivial⟩
  fetch _ _ rest s kept := rest s (fun c there => ⟨trivial, kept.body _ c there⟩) s kept
  cons span first second := Machine.shares_make fun s kept => kept.addPair span first second
  list span known := Machine.shares_list span known

/-- A store and the values that are held outside of it. -/
structure Configuration where
  store : Store
  held : List Value

namespace Configuration

/-- What a computation leads to. If it gives a value, that is held. -/
def after (σ : Configuration) (m : Machine Value) : Configuration :=
  ⟨m.after σ.store, (m.outcome σ.store).toOption.toList ++ σ.held⟩

/-- What may be done: data are read, frames and closures made, names looked up and bound, pairs
taken apart, the bodies of closures looked at, expressions evaluated and procedures called, with
whatever depth and outcome. Every value that is used is held. -/
inductive Step (σ : Configuration) : Configuration → Prop where
  | read (d : Datum) : Step σ ⟨(σ.store.load d).2, (σ.store.load d).1 :: σ.held⟩
  | newGlobal : Step σ ⟨σ.store.addGlobal.2, σ.held⟩
  | newFrame (parent : Option FrameId) : Step σ ⟨(σ.store.addFrame ⟨parent, []⟩).2, σ.held⟩
  | extend {arguments : List Value} (f : FrameId) (formals : List String) (variadic : Bool)
      (span : Span) (held : ∀ v ∈ arguments, v ∈ σ.held) :
      Step σ ⟨(Machine.extend f formals variadic arguments span).after σ.store, σ.held⟩
  | makeClosure {c : Closure} (name : Option String) (span : Span)
      (held : ∀ e ∈ c.body, e ∈ σ.held) : Step σ (σ.after (Form.makeClosure c name span))
  | lookup (f : FrameId) (name : String) (span : Span) :
      Step σ (σ.after (Machine.lookup f name span))
  | define {v : Value} (f : FrameId) (name : String) (held : v ∈ σ.held) :
      Step σ ⟨σ.store.define f name v, σ.held⟩
  | set {v : Value} (f : FrameId) (name : String) (span : Span) (held : v ∈ σ.held) :
      Step σ ⟨(Machine.assign f name v span).after σ.store, σ.held⟩
  | parts {span : Span} {mark : CellId} {car cdr : Value}
      (held : .pair span mark car cdr ∈ σ.held) : Step σ ⟨σ.store, car :: cdr :: σ.held⟩
  | body {id : ClosureId} {c : Closure} (made : σ.store.closures[id]? = some c) :
      Step σ ⟨σ.store, c.body ++ σ.held⟩
  | eval {e : Value} (fuel : Nat) (f : FrameId) (held : e ∈ σ.held) :
      Step σ (σ.after (eval fuel f e))
  | apply {args : List Value} (fuel : Nat) (p : Procedure) (span : Span)
      (held : ∀ v ∈ args, v ∈ σ.held) : Step σ (σ.after (apply fuel p args span))

/-- The configurations that come about from nothing. -/
def Reached (σ : Configuration) : Prop := Relation.ReflTransGen Step ⟨Store.empty, []⟩ σ

/-- One heap keeps the store and all that is held. -/
structure Kept (h : Heap) (σ : Configuration) : Prop where
  store : σ.store.Kept h
  held : ∀ v ∈ σ.held, v.Conforms h

variable {h : Heap} {σ τ : Configuration}

/-- A computation that shares leaves everything kept, with the value it gives. -/
theorem Kept.after {m : Machine Value} (kept : σ.Kept h)
    (shares : m.Shares (fun h v => v.Conforms h) h) : ∃ h', (σ.after m).Kept h' := by
  obtain ⟨h', later, kept', result⟩ := shares σ.store kept.store
  refine ⟨h', kept', ?_⟩
  intro v member
  obtain new | old := List.mem_append.mp member
  · refine result v ?_
    cases given : m.outcome σ.store with
    | ok w => simp_all [Except.toOption]
    | error why => simp_all [Except.toOption]
  · exact (kept.held v old).later later

theorem Kept.step (kept : σ.Kept h) (step : Step σ τ) : ∃ h', τ.Kept h' := by
  have given {vs : List Value} (held : ∀ v ∈ vs, v ∈ σ.held) : ∀ v ∈ vs, v.Conforms h :=
    fun v member => kept.held v (held v member)
  cases step with
  | read d =>
    obtain ⟨h', later, kept', conforms⟩ := kept.store.load d
    refine ⟨h', kept', List.forall_mem_cons.mpr ⟨conforms, fun v member => ?_⟩⟩
    exact (kept.held v member).later later
  | newGlobal =>
    refine ⟨h, kept.store.addFrame fun name v bound => ?_, kept.held⟩
    obtain ⟨p, rfl⟩ := Bindings.get?_primitives bound
    trivial
  | newFrame parent =>
    exact ⟨h, kept.store.addFrame (fun _ _ none => nomatch none), kept.held⟩
  | extend f formals variadic span held =>
    obtain ⟨h', later, kept'⟩ := kept.store.extend f formals variadic span (given held)
    exact ⟨h', kept', fun v member => (kept.held v member).later later⟩
  | makeClosure name span held =>
    exact kept.after (sharing.makeClosure (f := 0) name span trivial (given held))
  | lookup f name span => exact kept.after (Machine.shares_lookup f name span)
  | define f name held => exact ⟨h, kept.store.define name (kept.held _ held), kept.held⟩
  | set f name span held => exact ⟨h, kept.store.assign name span (kept.held _ held), kept.held⟩
  | parts held =>
    obtain ⟨first, second⟩ := sharing.parts (kept.held _ held)
    refine ⟨h, kept.store, ?_⟩
    exact List.forall_mem_cons.mpr ⟨first, List.forall_mem_cons.mpr ⟨second, kept.held⟩⟩
  | body made =>
    refine ⟨h, kept.store, List.forall_mem_append.mpr ⟨?_, kept.held⟩⟩
    exact kept.store.body _ _ made
  | eval fuel f held => exact kept.after (sharing.obeys_eval fuel trivial (kept.held _ held))
  | @apply args fuel p span held =>
    have callable : sharing.value h (.procedure span p) := trivial
    exact kept.after (sharing.obeys_apply (f := 0) fuel p span callable (given held))

/-- All values of a configuration that is reached conform with one heap. -/
theorem Reached.kept (reached : σ.Reached) : ∃ h, σ.Kept h := by
  induction reached with
  | refl =>
    refine ⟨⟨0, fun _ => (.nil default, .nil default)⟩, ⟨rfl, ?_, ?_⟩, by simp⟩
    · exact fun _ _ _ _ none => nomatch none
    · exact fun _ _ none => nomatch none
  | tail _ step ih =>
    obtain ⟨h, kept⟩ := ih
    exact kept.step step

end Configuration
end MiniScheme
