import MiniScheme.Value

/-!
# The store

A store holds the frames of all scopes and the bodies of all closures that a program has made, and
the next identity for a pair. Frames and closures are only ever added; the names of a frame only
grow. A frame's parent is older than the frame, which is what ends the walk along parents: a parent
that is not older is never followed.
-/
namespace MiniScheme

/-- Identity of a frame. -/
abbrev FrameId := Nat

/-- The names bound in one scope, each once. -/
abbrev Bindings := List (String × Value)

namespace Bindings

/-- The value bound to a name. -/
def get? : Bindings → String → Option Value
  | [], _ => none
  | (n, v) :: rest, name => if n = name then some v else get? rest name

/-- Binds a name, in the place of its old binding if it has one. -/
def put (name : String) (v : Value) : Bindings → Bindings
  | [] => [(name, v)]
  | (n, w) :: rest => if n = name then (n, v) :: rest else (n, w) :: put name v rest

/-- The names bound. -/
def names (b : Bindings) : List String := b.map (·.1)

/-- The bindings of the primitives. -/
def primitives : Bindings :=
  Primitive.all.map fun p => (p.name, .procedure default (.primitive p))

theorem get?_put (b : Bindings) (name other : String) (v : Value) :
    (b.put name v).get? other = if name = other then some v else b.get? other := by
  induction b with
  | nil => rfl
  | cons bound rest ih =>
    obtain ⟨n, w⟩ := bound
    by_cases hn : n = name
    · subst hn
      by_cases h : n = other <;> simp [put, get?, h]
    · by_cases h : n = other
      · subst h
        simp [put, get?, hn, Ne.symm hn]
      · simp [put, get?, hn, h, ih]

theorem get?_primitives {name : String} {v : Value}
    (bound : primitives.get? name = some v) : ∃ p, v = .procedure default (.primitive p) := by
  unfold primitives at bound
  generalize Primitive.all = ps at bound
  induction ps with
  | nil => cases bound
  | cons p ps ih =>
    simp only [List.map_cons, get?] at bound
    split at bound
    · cases bound
      exact ⟨p, rfl⟩
    · exact ih bound

theorem mem_names_put (b : Bindings) (name other : String) (v : Value) :
    other ∈ (b.put name v).names ↔ other = name ∨ other ∈ b.names := by
  induction b with
  | nil => simp [put, names]
  | cons bound rest ih =>
    obtain ⟨n, w⟩ := bound
    simp only [names] at ih
    by_cases hn : n = name
    · simp [put, names, hn]
    · simp only [put, hn, if_false, names, List.map_cons, List.mem_cons, ih]
      exact or_left_comm

end Bindings

/-- One scope. -/
structure Frame where
  parent : Option FrameId
  bindings : Bindings
  deriving DecidableEq, Repr

/-- What a closure does: its formals, the last of which takes all further arguments if `variadic`,
its body, and the frame in which it was made. -/
structure Closure where
  formals : List String
  variadic : Bool
  body : List Value
  frame : FrameId
  deriving DecidableEq, Repr

/-- How many arguments a closure takes. What is subtracted of its formals is there to be subtracted,
since evaluation makes no variadic closure without formals; so it does not matter here that
`Arity.ofFormals`, which calls share, is cut off at zero (`Store.Evaluated.required_arity`). -/
def Closure.arity (c : Closure) : Arity := .ofFormals c.formals c.variadic

structure Store where
  frames : Array Frame
  closures : Array Closure
  nextCell : CellId
  deriving DecidableEq, Repr

namespace Store

/-- No frame, no closure, no pair. -/
def empty : Store := ⟨#[], #[], 0⟩

/-- A new frame. -/
def addFrame (s : Store) (f : Frame) : FrameId × Store :=
  (s.frames.size, { s with frames := s.frames.push f })

/-- A new closure. -/
def addClosure (s : Store) (c : Closure) : ClosureId × Store :=
  (s.closures.size, { s with closures := s.closures.push c })

/-- A new pair. -/
def addPair (s : Store) (span : Span) (car cdr : Value) : Value × Store :=
  (.pair span s.nextCell car cdr, { s with nextCell := s.nextCell + 1 })

/-- A list of new pairs in front of a tail. Each pair covers what its two parts cover. -/
def addList (s : Store) (tail : Value) : List Value → Value × Store
  | [] => (tail, s)
  | v :: vs =>
    let (rest, s) := s.addList tail vs
    s.addPair (v.span.merge rest.span) v rest

/-- A datum as a value of new pairs. -/
def load (s : Store) (d : Datum) : Value × Store :=
  let (v, next) := Value.ofDatum s.nextCell d
  (v, { s with nextCell := next })

/-- The nearest frame on the way from `f` outward that binds a name, and the value bound. -/
def find? (s : Store) (f : FrameId) (name : String) : Option (FrameId × Value) :=
  match s.frames[f]? with
  | none => none
  | some frame =>
    match frame.bindings.get? name with
    | some v => some (f, v)
    | none =>
      match frame.parent with
      | some p => if p < f then s.find? p name else none
      | none => none
termination_by f

/-- The names bound on the way from `f` outward, nearest first. -/
def visible (s : Store) (f : FrameId) : List String :=
  match s.frames[f]? with
  | none => []
  | some frame =>
    match frame.parent with
    | some p => if p < f then frame.bindings.names ++ s.visible p else frame.bindings.names
    | none => frame.bindings.names
termination_by f

/-- The value of a name seen from a frame. -/
def get? (s : Store) (f : FrameId) (name : String) : Option Value :=
  (s.find? f name).map (·.2)

/-- Binds a name in a frame, whether or not it is bound there. -/
def define (s : Store) (f : FrameId) (name : String) (v : Value) : Store :=
  { s with
    frames := s.frames.modify f fun frame => { frame with bindings := frame.bindings.put name v } }

/-- Binds a name anew in the nearest frame that binds it; `none` if no frame does. -/
def set? (s : Store) (f : FrameId) (name : String) (v : Value) : Option Store :=
  (s.find? f name).map fun found => s.define found.1 name v

/-- A frame that binds formals to arguments, inside a parent; the last formal takes a list of the
arguments left over if `variadic`. The formals must accept that many arguments. -/
def bindFormals (s : Store) (parent : FrameId) (formals : List String) (variadic : Bool)
    (arguments : List Value) (span : Span) : FrameId × Store :=
  let required := (Arity.ofFormals formals variadic).required
  let fixed := (formals.take required).zip arguments
  let bindings : Bindings := fixed.foldl (fun b bound => b.put bound.1 bound.2) []
  match variadic, formals.getLast? with
  | true, some rest =>
    let (collected, s) := s.addList (.nil span) (arguments.drop required)
    s.addFrame ⟨some parent, bindings.put rest collected⟩
  | _, _ => s.addFrame ⟨some parent, bindings⟩

theorem frames_define (s : Store) (f g : FrameId) (name : String) (v : Value) :
    (s.define f name v).frames[g]? =
      if f = g then
        s.frames[g]?.map fun frame => { frame with bindings := frame.bindings.put name v }
      else s.frames[g]? :=
  Array.getElem?_modify

/-- What is found stands in the frame where it is found. -/
theorem find?_eq_some {s : Store} {f g : FrameId} {name : String} {v : Value}
    (found : s.find? f name = some (g, v)) :
    ∃ frame, s.frames[g]? = some frame ∧ frame.bindings.get? name = some v := by
  fun_induction find? s f name with
  | case1 => cases found
  | case2 f frame present v' bound =>
    cases found
    exact ⟨frame, present, bound⟩
  | case3 f frame present absent p parent older ih => exact ih found
  | case4 => cases found
  | case5 => cases found

theorem toList?_addList (s : Store) (span : Span) (vs : List Value) :
    (s.addList (.nil span) vs).1.toList? = some vs := by
  induction vs with
  | nil => rfl
  | cons v vs ih => simp [addList, addPair, Sexpr.toList?, ih]

/-- A search sees no more of a store than the frames on the way outward. -/
theorem find?_congr {s t : Store} {F : FrameId → Prop}
    (closed : ∀ f frame p, F f → s.frames[f]? = some frame → frame.parent = some p → p < f → F p)
    (same : ∀ f, F f → s.frames[f]? = t.frames[f]?) {f : FrameId} (inF : F f) (name : String) :
    s.find? f name = t.find? f name := by
  fun_induction find? s f name with
  | case1 f absent => rw [find?, ← same f inF, absent]
  | case2 f frame present v bound => simp [find?, ← same f inF, present, bound]
  | case3 f frame present absent p parent older ih =>
    rw [ih (closed f frame p inF present parent older)]
    conv => rhs; rw [find?]
    simp [← same f inF, present, absent, parent, older]
  | case4 f frame present absent p parent younger =>
    simp [find?, ← same f inF, present, absent, parent, younger]
  | case5 f frame present absent orphan =>
    simp [find?, ← same f inF, present, absent, orphan]

end Store
end MiniScheme
