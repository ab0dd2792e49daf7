import MiniScheme.Proofs.Eval.Sharing

/-!
# Where the names of the global frame come from

Only definitions give the global frame a name, and the name is a symbol in an expression evaluated.
So what is said of the name of every symbol in the data and in the store is said of every name bound
in the global frame, and stays so through every evaluation (`naming`). Formals are of no matter:
they are bound in the frames of calls.
-/
namespace MiniScheme

/-- Every symbol in the tree has a name of `N`. -/
def Sexpr.Names {κ ρ : Type} (N : String → Prop) : Sexpr κ ρ → Prop
  | .atom _ (.symbol name) => N name
  | .pair _ _ car cdr => car.Names N ∧ cdr.Names N
  | _ => True

variable {N : String → Prop}

theorem Value.names_withSpan {v : Value} (span : Span) (names : v.Names N) :
    (v.withSpan span).Names N := by
  cases v with
  | atom _ a => cases a <;> exact names
  | _ => exact names

theorem Value.names_ofDatum {d : Datum} (names : d.Names N) (next : CellId) :
    (Value.ofDatum next d).1.Names N := by
  induction d generalizing next with
  | atom _ a => cases a <;> exact names
  | nil => trivial
  | leaf _ r => exact r.elim
  | pair _ _ car cdr ihCar ihCdr => exact ⟨ihCar names.1 _, ihCdr names.2 _⟩

namespace Store

theorem names_addList (s : Store) {tail : Value} {vs : List Value} (tailNames : tail.Names N)
    (names : ∀ v ∈ vs, v.Names N) : (s.addList tail vs).1.Names N := by
  induction vs with
  | nil => exact tailNames
  | cons v vs ih =>
    rw [List.forall_mem_cons] at names
    exact ⟨names.1, ih names.2⟩

/-- There is a global frame, and every name bound in it and every symbol held anywhere in the store
is of `N`. -/
structure Named (N : String → Prop) (s : Store) : Prop where
  globals : ∃ frame, s.frames[Session.globalFrame]? = some frame ∧
    ∀ name ∈ frame.bindings.names, N name
  holds : s.Holds (Sexpr.Names N)

variable {s : Store} {f : FrameId} {v : Value} {name : String}

theorem Named.nextCell (named : s.Named N) (next : CellId) :
    Named N { s with nextCell := next } :=
  ⟨named.globals, named.holds.bound, named.holds.body⟩

/-- The name that is bound is of `N`, or it was bound before. -/
theorem Named.define (named : s.Named N) (names : v.Names N)
    (mayBind : N name ∨ ∃ frame, s.frames[f]? = some frame ∧ name ∈ frame.bindings.names) :
    (s.define f name v).Named N := by
  refine ⟨?_, named.holds.define name names⟩
  obtain ⟨frame, there, ofGlobals⟩ := named.globals
  rw [frames_define, there]
  split
  · next same =>
    refine ⟨_, rfl, fun other bound => ?_⟩
    obtain rfl | before := (Bindings.mem_names_put frame.bindings name other v).mp bound
    · obtain new | ⟨frame', there', before⟩ := mayBind
      · exact new
      · rw [same, there] at there'
        cases there'
        exact ofGlobals _ before
    · exact ofGlobals _ before
  · exact ⟨frame, rfl, ofGlobals⟩

/-- A new frame is never the global one, which is there already. -/
theorem Named.addFrame {frame : Frame} (named : s.Named N)
    (names : ∀ name v, frame.bindings.get? name = some v → v.Names N) :
    (s.addFrame frame).2.Named N := by
  refine ⟨?_, named.holds.addFrame names⟩
  obtain ⟨global, there, ofGlobals⟩ := named.globals
  obtain ⟨inside, -⟩ := Array.getElem?_eq_some_iff.mp there
  refine ⟨global, ?_, ofGlobals⟩
  change (s.frames.push frame)[Session.globalFrame]? = some global
  rw [Array.getElem?_push_lt inside, ← Array.getElem?_eq_getElem inside, there]

theorem Named.addClosure {c : Closure} (named : s.Named N) (names : ∀ e ∈ c.body, e.Names N) :
    (s.addClosure c).2.Named N :=
  ⟨named.globals, named.holds.addClosure names⟩

theorem Named.addList {tail : Value} {vs : List Value} (named : s.Named N) :
    (s.addList tail vs).2.Named N := by
  rw [addList_eq s]
  exact named.nextCell _

theorem Named.bindFormals {arguments : List Value} (parent : FrameId) (formals : List String)
    (variadic : Bool) (span : Span) (named : s.Named N) (names : ∀ v ∈ arguments, v.Names N) :
    (s.bindFormals parent formals variadic arguments span).2.Named N := by
  let required := (Arity.ofFormals formals variadic).required
  let fixed : Bindings :=
    ((formals.take required).zip arguments).foldl (fun b bound => b.put bound.1 bound.2) []
  have fixedNames : ∀ name v, fixed.get? name = some v → v.Names N :=
    Bindings.forall_foldl_put (fun _ _ none => nomatch none) fun bound member =>
      names bound.2 (List.of_mem_zip member).2
  unfold Store.bindFormals
  dsimp only
  split
  · next rest _ =>
    have left : ∀ v ∈ arguments.drop required, v.Names N :=
      fun v member => names v (List.mem_of_mem_drop member)
    have empty : Sexpr.Names N (.nil span : Value) := trivial
    exact named.addList.addFrame (Bindings.forall_put fixedNames (s.names_addList empty left))
  · exact named.addFrame fixedNames

end Store

/-- The computation keeps the store's names and gives only what `P` says. -/
def Machine.KeepsNames (N : String → Prop) {α : Type} (m : Machine α) (P : α → Prop) : Prop :=
  ∀ s : Store, s.Named N → (m.after s).Named N ∧ ∀ a, m.outcome s = .ok a → P a

namespace Machine

variable {α β : Type}

theorem KeepsNames.bind {m : Machine α} {next : α → Machine β} {P : α → Prop} {Q : β → Prop}
    (first : m.KeepsNames N P) (rest : ∀ a, P a → (next a).KeepsNames N Q) :
    (m >>= next).KeepsNames N Q := by
  intro s named
  obtain ⟨named', result⟩ := first s named
  rw [after_bind, outcome_bind]
  cases given : m.outcome s with
  | ok a => exact rest a (result a given) (m.after s) named'
  | error why => exact ⟨named', fun _ none => nomatch none⟩

theorem keepsNames_make {make : Store → α × Store} {P : α → Prop}
    (made : ∀ s : Store, s.Named N → (make s).2.Named N ∧ P (make s).1) :
    (Machine.make make).KeepsNames N P := by
  intro s named
  obtain ⟨named', result⟩ := made s named
  refine ⟨named', ?_⟩
  rintro a ⟨⟩
  exact result

theorem keepsNames_lookup (f : FrameId) (name : String) (span : Span) :
    (lookup f name span).KeepsNames N (Sexpr.Names N) := by
  intro s named
  rw [after_lookup, outcome_lookup]
  refine ⟨named, fun v given => ?_⟩
  split at given
  · next found =>
    cases given
    exact named.holds.get? found
  · cases given

/-- To assign is to bind a name where it is bound already. -/
theorem keepsNames_assign (f : FrameId) (name : String) {v : Value} (span : Span)
    (names : v.Names N) : (assign f name v span).KeepsNames N fun _ => True := by
  intro s named
  refine ⟨?_, fun _ _ => trivial⟩
  rw [after_assign]
  cases place : s.find? f name with
  | none => exact named
  | some found =>
    obtain ⟨frame, there, binding⟩ := Store.find?_eq_some place
    have before : name ∈ frame.bindings.names :=
      (Bindings.mem_names_iff frame.bindings name).mpr ⟨found.2, binding⟩
    exact named.define names (.inr ⟨frame, there, before⟩)

end Machine

/-- Computations that bind in the global frame no names but those of `N`. -/
def naming (N : String → Prop) : EvalLogic where
  World := Unit
  Later _ _ := True
  frame _ _ := True
  value _ := Sexpr.Names N
  Obeys _ _ _ m P := m.KeepsNames N (P ())
  frame_later _ known := known
  value_later _ known := known
  atom _ _ a noSymbol := by
    cases a with
    | symbol name => exact absurd rfl (noSymbol name)
    | _ => trivial
  unspecified _ _ := trivial
  parts known := known
  pure result s named := ⟨named, fun _ same => by cases same; exact result⟩
  stop _ s named := ⟨named, fun _ none => nomatch none⟩
  bind first rest := first.bind fun a => rest () a trivial
  lookup name span _ := Machine.keepsNames_lookup _ name span
  assign name span _ known := Machine.keepsNames_assign _ name span known
  define _ symbol known s named := ⟨named.define known (.inl symbol), fun _ _ => trivial⟩
  enter {_ _ parent _ _ formals variadic _ span _} _ known inside :=
    Machine.KeepsNames.bind
      (Machine.keepsNames_make (P := fun _ => True) fun s named =>
        ⟨named.bindFormals parent formals variadic span known, trivial⟩)
      fun inner _ => inside () inner trivial trivial
  makeClosure name span _ known s named :=
    ⟨named.addClosure known, fun _ same => by cases same; trivial⟩
  fetch _ _ rest s named := rest s (fun c there => ⟨trivial, named.holds.body _ c there⟩) s named
  cons span first second :=
    Machine.keepsNames_make fun s named => ⟨named.nextCell _, first, second⟩
  list span known := Machine.keepsNames_make fun s named =>
    ⟨named.addList, Value.names_withSpan span (s.names_addList trivial known)⟩

end MiniScheme
