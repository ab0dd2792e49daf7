import Mathlib
import MiniScheme.Proofs.Eval.Encapsulation
import MiniScheme.Session

/-!
# The frames are a forest that only grows

A closure may be bound in the frame it was made in, so what a store holds refers to itself in
circles. The parents of frames do not: a frame is made inside one that is there, and its parent is
never changed. Hence every walk outward ends, and meets no frame twice.

`Store.find?` and `Store.visible` follow a parent only if it is older. Here `Store.Walk` follows
every parent, and the two are shown to lose nothing: in every store that can be reached they go
along the whole walk.
-/
namespace MiniScheme

theorem Bindings.mem_names_iff (b : Bindings) (name : String) :
    name ∈ b.names ↔ ∃ v, b.get? name = some v := by
  induction b with
  | nil => simp [names, get?]
  | cons bound rest ih =>
    obtain ⟨n, w⟩ := bound
    simp only [names, List.map_cons, List.mem_cons, get?] at ih ⊢
    by_cases same : n = name
    · simp [same]
    · simp [same, Ne.symm same, ih]

theorem Value.Within.mono {C D : ClosureId → Prop} {v : Value} (within : v.Within C)
    (weaker : ∀ id, C id → D id) : v.Within D := by
  induction v with
  | pair _ _ _ _ car cdr => exact ⟨car within.1, cdr within.2⟩
  | leaf _ r =>
    cases r with
    | unspecified => trivial
    | procedure p =>
      cases p with
      | primitive => trivial
      | closure id => exact weaker id within
  | _ => trivial

namespace Store

/-- All closures in the value have been made. -/
def Made (s : Store) (v : Value) : Prop := v.Within (· < s.closures.size)

/-- Parents are older than their frames. Frames are numbered as they are made, and made inside those
that are there, so this is to say that no frame is inside itself. -/
def Ordered (s : Store) : Prop :=
  ∀ (f : FrameId) (frame : Frame) p, s.frames[f]? = some frame → frame.parent = some p → p < f

/-- Parents are older than their frames, closures are made in frames that are there, and no closure
stands anywhere before it is made. -/
structure Sound (s : Store) : Prop where
  older : ∀ (f : FrameId) (frame : Frame) p,
    s.frames[f]? = some frame → frame.parent = some p → p < f
  bound : ∀ (f : FrameId) (frame : Frame) name v,
    s.frames[f]? = some frame → frame.bindings.get? name = some v → s.Made v
  captured : ∀ (id : ClosureId) (c : Closure), s.closures[id]? = some c → c.frame < s.frames.size
  body : ∀ (id : ClosureId) (c : Closure), s.closures[id]? = some c → ∀ e ∈ c.body, s.Made e

/-- Nothing is lost, and no frame gets another parent. -/
structure Grows (s s' : Store) : Prop where
  frames : ∀ (f : FrameId) (frame : Frame), s.frames[f]? = some frame →
    ∃ frame', s'.frames[f]? = some frame' ∧ frame'.parent = frame.parent
  closures : s.closures.size ≤ s'.closures.size

namespace Grows

variable {s s' s'' : Store} {v : Value}

theorem refl (s : Store) : Grows s s := ⟨fun _ frame there => ⟨frame, there, rfl⟩, le_rfl⟩

theorem trans (first : Grows s s') (rest : Grows s' s'') : Grows s s'' := by
  refine ⟨?_, first.closures.trans rest.closures⟩
  intro f frame there
  obtain ⟨frame', there', same⟩ := first.frames f frame there
  obtain ⟨frame'', there'', same'⟩ := rest.frames f frame' there'
  exact ⟨frame'', there'', same'.trans same⟩

theorem size_le (grows : Grows s s') {f : FrameId} (known : f < s.frames.size) :
    f < s'.frames.size := by
  obtain ⟨_, there, -⟩ := grows.frames f s.frames[f] (Array.getElem?_eq_getElem known)
  exact (Array.getElem?_eq_some_iff.mp there).1

theorem made (grows : Grows s s') (known : s.Made v) : s'.Made v :=
  Value.Within.mono known fun _ old => lt_of_lt_of_le old grows.closures

end Grows

/-- The store has become another that is sound, and nothing was lost. -/
structure Grown (s s' : Store) : Prop where
  sound : s'.Sound
  grows : Grows s s'

variable {s : Store} {f : FrameId} {v : Value}

theorem grown_define (name : String) (sound : s.Sound) (made : s.Made v) :
    s.Grown (s.define f name v) := by
  have size : (s.define f name v).frames.size = s.frames.size := Array.size_modify
  have kept {g : FrameId} {after : Frame} (there : (s.define f name v).frames[g]? = some after) :
      ∃ before, s.frames[g]? = some before ∧ after.parent = before.parent ∧
        (after.bindings = before.bindings ∨ after.bindings = before.bindings.put name v) := by
    rw [frames_define] at there
    split at there
    · obtain ⟨before, was, rfl⟩ := Option.map_eq_some_iff.mp there
      exact ⟨before, was, rfl, .inr rfl⟩
    · exact ⟨after, there, rfl, .inl rfl⟩
  constructor
  case sound =>
    refine ⟨?_, ?_, size ▸ sound.captured, sound.body⟩
    · intro g after p there inside
      obtain ⟨before, was, parent, -⟩ := kept there
      exact sound.older g before p was (parent ▸ inside)
    · intro g after other w there binding
      obtain ⟨before, was, -, same | put⟩ := kept there
      · exact sound.bound g before other w was (same ▸ binding)
      · rw [put, Bindings.get?_put] at binding
        split at binding
        · cases binding
          exact made
        · exact sound.bound g before other w was binding
  case grows =>
    refine ⟨?_, le_rfl⟩
    intro g before was
    rw [frames_define, was]
    split
    · exact ⟨_, rfl, rfl⟩
    · exact ⟨before, rfl, rfl⟩

/-- A frame is added inside one that is there, or inside none. -/
theorem grown_push {frame : Frame} {next : CellId} (sound : s.Sound)
    (inside : ∀ p, frame.parent = some p → p < s.frames.size)
    (made : frame.bindings.Within (· < s.closures.size)) :
    s.Grown { s with frames := s.frames.push frame, nextCell := next } := by
  have known {g : FrameId} {frame' : Frame} (there : (s.frames.push frame)[g]? = some frame') :
      s.frames[g]? = some frame' ∨ g = s.frames.size ∧ frame' = frame := by
    rw [Array.getElem?_push] at there
    split at there
    · next new =>
      cases there
      exact .inr ⟨new, rfl⟩
    · exact .inl there
  constructor
  case sound =>
    refine ⟨?_, ?_, ?_, sound.body⟩
    · intro g frame' p there parent
      obtain old | ⟨rfl, rfl⟩ := known there
      · exact sound.older g frame' p old parent
      · exact inside p parent
    · intro g frame' name w there binding
      obtain old | ⟨-, rfl⟩ := known there
      · exact sound.bound g frame' name w old binding
      · exact made name w binding
    · intro id c there
      exact (sound.captured id c there).trans (by simp)
  case grows =>
    refine ⟨?_, le_rfl⟩
    intro g frame' there
    obtain ⟨old, -⟩ := Array.getElem?_eq_some_iff.mp there
    exact ⟨frame', by rw [Array.getElem?_push_lt old, ← Array.getElem?_eq_getElem old, there], rfl⟩

theorem grown_addClosure {c : Closure} (sound : s.Sound) (inFrame : c.frame < s.frames.size)
    (made : ∀ e ∈ c.body, s.Made e) : s.Grown (s.addClosure c).2 := by
  have grows : Grows s (s.addClosure c).2 := by
    refine ⟨fun _ frame there => ⟨frame, there, rfl⟩, ?_⟩
    simp [addClosure]
  have known {id : ClosureId} {c' : Closure} (there : (s.closures.push c)[id]? = some c') :
      s.closures[id]? = some c' ∨ c' = c := by
    rw [Array.getElem?_push] at there
    split at there
    · cases there
      exact .inr rfl
    · exact .inl there
  refine ⟨⟨sound.older, ?_, ?_, ?_⟩, grows⟩
  · intro g frame name w there binding
    exact grows.made (sound.bound g frame name w there binding)
  · intro id c' there
    obtain old | rfl := known there
    · exact sound.captured id c' old
    · exact inFrame
  · intro id c' there e member
    obtain old | rfl := known there
    · exact grows.made (sound.body id c' old e member)
    · exact grows.made (made e member)

theorem grown_nextCell (next : CellId) (sound : s.Sound) :
    s.Grown { s with nextCell := next } :=
  ⟨⟨sound.older, sound.bound, sound.captured, sound.body⟩,
    ⟨fun _ frame there => ⟨frame, there, rfl⟩, le_rfl⟩⟩

theorem grown_assign (name : String) (span : Span) (sound : s.Sound) (made : s.Made v) :
    s.Grown ((Machine.assign f name v span).after s) := by
  rw [Machine.after_assign]
  cases s.find? f name with
  | none => exact ⟨sound, .refl s⟩
  | some found => exact grown_define name sound made

theorem made_of_get? {name : String} (sound : s.Sound) (found : s.get? f name = some v) :
    s.Made v := by
  obtain ⟨⟨g, w⟩, place, rfl⟩ := Option.map_eq_some_iff.mp found
  obtain ⟨frame, there, binding⟩ := find?_eq_some place
  exact sound.bound g frame name w there binding

/-- From a sound store the computation leads to one that has grown, and what it gives is as `P`
says of that. -/
structure Raises {α : Type} (m : Machine α) (P : Store → α → Prop) (s : Store) : Prop where
  grown : s.Grown (m.after s)
  result : ∀ a, m.outcome s = .ok a → P (m.after s) a

theorem Raises.bind {α β : Type} {m : Machine α} {next : α → Machine β} {P : Store → α → Prop}
    {Q : Store → β → Prop} (first : Raises m P s)
    (rest : ∀ s' a, Grows s s' → P s' a → s'.Sound → Raises (next a) Q s') :
    Raises (m >>= next) Q s := by
  cases given : m.outcome s with
  | ok a =>
    obtain ⟨grown, result⟩ :=
      rest (m.after s) a first.grown.grows (first.result a given) first.grown.sound
    refine ⟨?_, ?_⟩
    · rw [Machine.after_bind, given]
      exact ⟨grown.sound, first.grown.grows.trans grown.grows⟩
    · rw [Machine.after_bind, Machine.outcome_bind, given]
      exact result
  | error why =>
    refine ⟨?_, ?_⟩
    · rw [Machine.after_bind, given]
      exact first.grown
    · rw [Machine.outcome_bind, given]
      exact fun _ none => nomatch none

theorem raises_lookup (name : String) (span : Span) (sound : s.Sound) :
    Raises (Machine.lookup f name span) Made s := by
  refine ⟨?_, ?_⟩
  · rw [Machine.after_lookup]
    exact ⟨sound, .refl s⟩
  · intro v given
    rw [Machine.outcome_lookup] at given
    rw [Machine.after_lookup]
    split at given
    · next found =>
      cases given
      exact made_of_get? sound found
    · cases given

theorem raises_bindFormals {parent : FrameId} (formals : List String) (variadic : Bool)
    {arguments : List Value} (span : Span) (sound : s.Sound) (inParent : parent < s.frames.size)
    (made : ∀ v ∈ arguments, s.Made v) :
    Raises (Machine.make fun s => s.bindFormals parent formals variadic arguments span)
      (fun s' inner => inner < s'.frames.size) s := by
  obtain ⟨bindings, within, shape⟩ := bindFormals_eq parent formals variadic span made
  rw [funext shape]
  refine ⟨grown_push sound ?_ (within s.nextCell), ?_⟩
  · rintro p ⟨⟩
    exact inParent
  · rintro inner ⟨⟩
    exact Array.size_push _ ▸ Nat.lt_succ_self _

theorem raises_makeClosure {c : Closure} (name : Option String) (span : Span) (sound : s.Sound)
    (inFrame : c.frame < s.frames.size) (made : ∀ e ∈ c.body, s.Made e) :
    Raises (Form.makeClosure c name span) Made s := by
  refine ⟨grown_addClosure sound inFrame made, ?_⟩
  rintro v ⟨⟩
  change s.closures.size < (s.closures.push c).size
  exact Array.size_push _ ▸ Nat.lt_succ_self _

theorem raises_list {vs : List Value} (span : Span) (sound : s.Sound)
    (made : ∀ v ∈ vs, s.Made v) : Raises (Primitive.call .list vs span) Made s := by
  have shape : Primitive.call .list vs span s = .ok ((s.addList (.nil span) vs).1.withSpan span)
      { s with nextCell := ((counting s.nextCell).addList (.nil span) vs).2.nextCell } := by
    change EStateM.Result.ok ((s.addList (.nil span) vs).1.withSpan span)
      (s.addList (.nil span) vs).2 = _
    rw [addList_eq s]
  refine ⟨?_, ?_⟩
  · rw [Machine.after, shape]
    exact grown_nextCell _ sound
  · intro v given
    rw [Machine.outcome, shape] at given
    rw [Machine.after, shape]
    cases given
    exact Value.within_withSpan span (within_addList s (Value.within_nil span) made)

/-- Computations that keep the store a forest. The world is the store itself. -/
def forestry : EvalLogic where
  World := Store
  Later := Grows
  frame s f := f < s.frames.size
  value := Made
  Obeys s _ _ m P := s.Sound → Raises m P s
  frame_later grows known := grows.size_le known
  value_later grows known := grows.made known
  atom _ _ _ _ := trivial
  unspecified _ _ := trivial
  parts known := known
  pure result sound := ⟨⟨sound, .refl _⟩, fun _ same => by cases same; exact result⟩
  stop _ sound := ⟨⟨sound, .refl _⟩, fun _ none => nomatch none⟩
  bind first rest sound := (first sound).bind rest
  lookup name span _ := raises_lookup name span
  assign name span _ known sound := ⟨grown_assign name span sound known, fun _ _ => trivial⟩
  define _ _ known sound := ⟨grown_define _ sound known, fun _ _ => trivial⟩
  enter inParent known inside sound := (raises_bindFormals _ _ _ sound inParent known).bind inside
  makeClosure name span inFrame known sound := raises_makeClosure name span sound inFrame known
  fetch _ _ rest sound :=
    have fetched := rest _ (fun c made => ⟨sound.captured _ c made, sound.body _ c made⟩) sound
    ⟨fetched.grown, fetched.result⟩
  cons span first second sound :=
    ⟨grown_nextCell _ sound, fun _ same => by cases same; exact ⟨first, second⟩⟩
  list span known sound := raises_list span sound known

section Steps

variable {s' : Store}

/-- What may be done to a store from outside: frames are made, names bound, values made, expressions
evaluated and procedures called, with whatever outcome. Only frames that are there and closures that
have been made can be spoken of. -/
inductive Step (s : Store) : Store → Prop where
  | new : Step s (s.addFrame ⟨none, []⟩).2
  | newGlobal : Step s s.addGlobal.2
  | newEnclosed {f : FrameId} (inFrame : f < s.frames.size) : Step s (s.addFrame ⟨some f, []⟩).2
  | extend {f : FrameId} {arguments : List Value} (formals : List String) (variadic : Bool)
      (span : Span) (inFrame : f < s.frames.size) (made : ∀ v ∈ arguments, s.Made v) :
      Step s ((Machine.extend f formals variadic arguments span).after s)
  | define {f : FrameId} {v : Value} (name : String) (inFrame : f < s.frames.size)
      (made : s.Made v) : Step s (s.define f name v)
  | set {f : FrameId} {v : Value} (name : String) (span : Span) (inFrame : f < s.frames.size)
      (made : s.Made v) : Step s ((Machine.assign f name v span).after s)
  | makePairs (next : CellId) : Step s { s with nextCell := next }
  | makeClosure {c : Closure} (inFrame : c.frame < s.frames.size) (made : ∀ e ∈ c.body, s.Made e) :
      Step s (s.addClosure c).2
  | eval {f : FrameId} {e : Value} (fuel : Nat) (inFrame : f < s.frames.size) (made : s.Made e) :
      Step s ((eval fuel f e).after s)
  | apply {p : Procedure} {args : List Value} (fuel : Nat) (span : Span)
      (callable : s.Made (.procedure span p)) (made : ∀ v ∈ args, s.Made v) :
      Step s ((apply fuel p args span).after s)

/-- The stores that come about from the empty one. -/
def Reached (s : Store) : Prop := Relation.ReflTransGen Step empty s

theorem grown_extend {arguments : List Value} (formals : List String) (variadic : Bool)
    (span : Span) (sound : s.Sound) (inFrame : f < s.frames.size)
    (made : ∀ v ∈ arguments, s.Made v) :
    s.Grown ((Machine.extend f formals variadic arguments span).after s) := by
  unfold Machine.extend
  dsimp only
  split
  · exact (raises_bindFormals formals variadic span sound inFrame made).grown
  · exact ⟨sound, .refl s⟩

/-- Every binding of the primitives is free of closures. -/
theorem within_primitives (C : ClosureId → Prop) : Bindings.primitives.Within C := by
  have plain (ps : List Primitive) : Bindings.Within C
      (ps.map fun p => (p.name, .procedure default (.primitive p))) := by
    induction ps with
    | nil => exact fun _ _ none => nomatch none
    | cons p ps ih =>
      intro name v bound
      rw [List.map_cons, Bindings.get?] at bound
      split at bound
      · cases bound
        trivial
      · exact ih name v bound
  exact plain Primitive.all

theorem grown_of_step (sound : s.Sound) (step : Step s s') : s.Grown s' := by
  have orphan {b : Bindings} (p : FrameId) (inside : (⟨none, b⟩ : Frame).parent = some p) :
      p < s.frames.size := nomatch inside
  have empty : Bindings.Within (· < s.closures.size) [] := fun _ _ none => nomatch none
  cases step with
  | new => exact grown_push sound orphan empty
  | newGlobal => exact grown_push sound orphan (within_primitives _)
  | newEnclosed inFrame =>
    refine grown_push sound ?_ empty
    rintro p ⟨⟩
    exact inFrame
  | extend formals variadic span inFrame made =>
    exact grown_extend formals variadic span sound inFrame made
  | define name _ made => exact grown_define name sound made
  | set name span _ made => exact grown_assign name span sound made
  | makePairs next => exact grown_nextCell next sound
  | makeClosure inFrame made => exact grown_addClosure sound inFrame made
  | eval fuel inFrame made => exact (forestry.obeys_eval fuel inFrame made sound).grown
  | apply fuel span callable made =>
    exact (forestry.obeys_apply (f := 0) fuel _ span callable made sound).grown

theorem grown_of_steps (sound : s.Sound) (steps : Relation.ReflTransGen Step s s') :
    s.Grown s' := by
  induction steps with
  | refl => exact ⟨sound, .refl s⟩
  | tail _ step ih =>
    have next := grown_of_step ih.sound step
    exact ⟨next.sound, ih.grows.trans next.grows⟩

theorem sound_empty : Sound empty := by
  constructor
  case older => exact fun _ _ _ none => nomatch none
  case bound => exact fun _ _ _ _ none => nomatch none
  case captured => exact fun _ _ none => nomatch none
  case body => exact fun _ _ none => nomatch none

theorem Reached.sound (reached : Reached s) : s.Sound := (grown_of_steps sound_empty reached).sound

end Steps

section Walks

/-- The frames from a frame outward, along every parent. -/
inductive Walk (s : Store) : FrameId → List FrameId → Prop where
  | outermost {f : FrameId} {frame : Frame} (there : s.frames[f]? = some frame)
      (orphan : frame.parent = none) : Walk s f [f]
  | outward {f p : FrameId} {frame : Frame} {path : List FrameId}
      (there : s.frames[f]? = some frame) (inside : frame.parent = some p) (rest : Walk s p path) :
      Walk s f (f :: path)

/-- The names bound in a frame. -/
def bindingsAt (s : Store) (f : FrameId) : Bindings :=
  match s.frames[f]? with
  | some frame => frame.bindings
  | none => []

theorem bindingsAt_eq {frame : Frame} (there : s.frames[f]? = some frame) :
    s.bindingsAt f = frame.bindings := by
  rw [bindingsAt, there]

variable {path : List FrameId}

theorem exists_walk (ordered : s.Ordered) (known : f < s.frames.size) :
    ∃ path, s.Walk f path := by
  induction f using Nat.strongRecOn with
  | ind f ih =>
    have there := Array.getElem?_eq_getElem known
    cases parent : s.frames[f].parent with
    | none => exact ⟨[f], .outermost there parent⟩
    | some p =>
      have older := ordered f _ p there parent
      obtain ⟨path, walk⟩ := ih p older (older.trans known)
      exact ⟨f :: path, .outward there parent walk⟩

theorem Walk.le (sound : s.Sound) (walk : s.Walk f path) : ∀ g ∈ path, g ≤ f := by
  induction walk with
  | outermost => simp
  | outward there inside _ ih =>
    have older := sound.older _ _ _ there inside
    rw [List.forall_mem_cons]
    exact ⟨le_rfl, fun g member => (ih g member).trans older.le⟩

theorem Walk.nodup (sound : s.Sound) (walk : s.Walk f path) : path.Nodup := by
  induction walk with
  | outermost => exact List.nodup_singleton _
  | outward there inside rest ih =>
    have older := sound.older _ _ _ there inside
    refine List.nodup_cons.mpr ⟨fun again => ?_, ih⟩
    exact absurd (rest.le sound _ again) (Nat.not_le.mpr older)

theorem Walk.length_le (sound : s.Sound) (walk : s.Walk f path) : path.length ≤ f + 1 := by
  induction walk with
  | outermost => simp
  | outward there inside _ ih =>
    have older := sound.older _ _ _ there inside
    exact Nat.succ_le_succ (ih.trans older)

/-- The search for a name goes along the whole walk. -/
theorem find?_eq_findSome? (ordered : s.Ordered) (walk : s.Walk f path) (name : String) :
    s.find? f name = path.findSome? fun g => ((s.bindingsAt g).get? name).map (g, ·) := by
  induction walk with
  | @outermost f frame there orphan =>
    rw [find?, there, List.findSome?_cons, bindingsAt_eq there]
    cases bound : frame.bindings.get? name with
    | none => simp [bound, orphan]
    | some v => simp [bound]
  | @outward f p frame path there inside _ ih =>
    have older := ordered f frame p there inside
    rw [find?, there, List.findSome?_cons, bindingsAt_eq there]
    cases bound : frame.bindings.get? name with
    | none => simp [bound, inside, older, ih]
    | some v => simp [bound]

theorem get?_eq_findSome? (ordered : s.Ordered) (walk : s.Walk f path) (name : String) :
    s.get? f name = path.findSome? fun g => (s.bindingsAt g).get? name := by
  rw [get?, find?_eq_findSome? ordered walk, List.map_findSome?]
  simp [Function.comp_def]

theorem visible_eq_flatMap (sound : s.Sound) (walk : s.Walk f path) :
    s.visible f = path.flatMap fun g => (s.bindingsAt g).names := by
  induction walk with
  | outermost there orphan =>
    rw [visible, there]
    simp [bindingsAt_eq there, orphan]
  | outward there inside _ ih =>
    have older := sound.older _ _ _ there inside
    rw [visible, there]
    simp [bindingsAt_eq there, inside, older, ih]

/-- The path is all the way outward from a frame, and what every search goes along. -/
structure Way (s : Store) (f : FrameId) (path : List FrameId) : Prop where
  walk : s.Walk f path
  distinct : path.Nodup
  short : path.length ≤ s.frames.size
  get : ∀ name, s.get? f name = path.findSome? fun g => (s.bindingsAt g).get? name
  set : ∀ name v, s.set? f name v =
    path.findSome? fun g => ((s.bindingsAt g).get? name).map fun _ => s.define g name v
  visible : s.visible f = path.flatMap fun g => (s.bindingsAt g).names

theorem exists_way (sound : s.Sound) (known : f < s.frames.size) : ∃ path, s.Way f path := by
  obtain ⟨path, walk⟩ := exists_walk sound.older known
  refine ⟨path, walk, walk.nodup sound, (walk.length_le sound).trans known, ?_, ?_,
    visible_eq_flatMap sound walk⟩
  · intro name
    exact get?_eq_findSome? sound.older walk name
  · intro name v
    rw [set?, find?_eq_findSome? sound.older walk, List.map_findSome?]
    simp [Function.comp_def]

theorem Way.mem_visible_iff (way : s.Way f path) (name : String) :
    name ∈ s.visible f ↔ ∃ v, s.get? f name = some v := by
  rw [way.visible, way.get, List.mem_flatMap, ← Option.isSome_iff_exists, List.findSome?_isSome_iff]
  simp only [Bindings.mem_names_iff, Option.isSome_iff_exists]

end Walks

theorem lt_of_occurs {id : ClosureId} (sound : s.Sound) (made : s.Made v)
    (occurs : Occurs s id v) : id < s.closures.size := by
  induction occurs with
  | itself => exact made
  | car _ _ _ _ ih => exact ih made.1
  | cdr _ _ _ _ ih => exact ih made.2
  | body _ _ there member _ ih => exact ih (sound.body _ _ there _ member)

/-- In every store that can be reached, and in all that comes of it, a parent is older than its
frame and stays its parent, and every closure that occurs in a value bound has been made, in a frame
that is there; the same goes for what an evaluation or a call gives. So from every frame there is a
way outward, on which no frame stands twice: to look a name up, to assign it and to list the names
is to go along it, and the names listed are those that are found. -/
theorem reached_forest {s s' : Store} (reached : Reached s)
    (later : Relation.ReflTransGen Step s s') :
    (∀ (f : FrameId) (frame : Frame), s.frames[f]? = some frame →
      (∀ p, frame.parent = some p → p < f) ∧
      (∃ frame', s'.frames[f]? = some frame' ∧ frame'.parent = frame.parent) ∧
      ∀ name v id, frame.bindings.get? name = some v → Occurs s id v →
        ∃ c, s.closures[id]? = some c) ∧
    (∀ (id : ClosureId) (c : Closure), s.closures[id]? = some c → c.frame < s.frames.size) ∧
    (∀ fuel f e v, f < s.frames.size → s.Made e → (eval fuel f e).outcome s = .ok v →
      ((eval fuel f e).after s).Made v) ∧
    (∀ fuel p args span v, s.Made (.procedure span p) → (∀ arg ∈ args, s.Made arg) →
      (apply fuel p args span).outcome s = .ok v → ((apply fuel p args span).after s).Made v) ∧
    ∀ f < s.frames.size, (∃ path, s.Way f path) ∧
      ∀ name, name ∈ s.visible f ↔ ∃ v, s.get? f name = some v := by
  have sound := reached.sound
  refine ⟨?_, sound.captured, ?_, ?_, ?_⟩
  · intro f frame there
    refine ⟨fun p => sound.older f frame p there,
      (grown_of_steps sound later).grows.frames f frame there, ?_⟩
    intro name v id bound occurs
    have old := lt_of_occurs sound (sound.bound f frame name v there bound) occurs
    exact ⟨_, Array.getElem?_eq_getElem old⟩
  · intro fuel f e v inFrame made
    exact (forestry.obeys_eval fuel inFrame made sound).result v
  · intro fuel p args span v callable made
    exact (forestry.obeys_apply (f := 0) fuel p span callable made sound).result v
  · intro f known
    obtain ⟨path, way⟩ := exists_way sound known
    exact ⟨⟨path, way⟩, way.mem_visible_iff⟩

/-- `(define (own x) own)` binds a closure in the frame that it was made in. A call of it makes a
second frame, and from there the way outward is two frames long. -/
theorem reached_forest_of_own :
    let word (name : String) : Value := .atom default (.symbol name)
    let form (parts : List Value) : Value := (empty.addList (.nil default) parts).1
    let definition := form [word "define", form [word "own", word "x"], word "own"]
    let s := (eval 9 0 definition).after empty.addGlobal.2
    let s' := (apply 9 (.closure 0 none) [.nil default] default).after s
    (∃ c, s.get? 0 "own" = some (.procedure default (.closure 0 (some "own"))) ∧
      s.closures[0]? = some c ∧ c.frame = 0) ∧
    s'.frames.size = 2 ∧ s'.Way 1 [1, 0] ∧ s'.visible 1 = "x" :: s.visible 0 := by
  intro word form definition s s'
  have global : Reached empty.addGlobal.2 := .single .newGlobal
  have defined : Step empty.addGlobal.2 s :=
    .eval 9 (by decide) ⟨trivial, ⟨trivial, trivial, trivial⟩, trivial, trivial⟩
  have made : s.Made (.procedure default (.closure 0 none)) := by
    change 0 < s.closures.size
    decide +kernel
  have called : Step s s' := .apply 9 default made (by simp [Made])
  have reached : Reached s' := (global.tail defined).tail called
  have two : s'.frames.size = 2 := by decide +kernel
  have inner : s'.frames[1]?.map Frame.parent = some (some 0) := by decide +kernel
  have outer : s'.frames[0]?.map Frame.parent = some none := by decide +kernel
  obtain ⟨-, -, -, -, ways⟩ := reached_forest reached .refl
  obtain ⟨⟨path, way⟩, -⟩ := ways 1 (by rw [two]; decide)
  have whole : path = [1, 0] := by
    cases way.walk with
    | outermost there orphan => simp [there, orphan] at inner
    | @outward _ p _ _ there inside rest =>
      have zero : p = 0 := by simpa [there, inside] using inner
      subst zero
      cases rest with
      | outermost => rfl
      | outward there inside => simp [there, inside] at outer
  refine ⟨⟨⟨["x"], false, [word "own"], 0⟩, ?_, ?_, rfl⟩, two, whole ▸ way, ?_⟩
  · decide +kernel
  · decide +kernel
  · decide +kernel

end Store
end MiniScheme
