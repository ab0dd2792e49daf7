import Mathlib.Data.List.Forall2
import MiniScheme.Proofs.Eval.Discipline

/-!
# Two evaluations side by side

A correspondence says which spans and which closures of one run stand for which of another. Values
match if they are built alike of parts that correspond, and so do bindings, frames, bodies and whole
stores. What evaluation does to spans is to hand them on and to merge them, and what it does to
closures is to make, fetch and compare them; so if merging keeps the correspondence and it tells the
same closures apart, then evaluating expressions that match, in stores that match, ends the same way
on both sides: with values that match, with errors that match, or not within the depth allowed, and
the stores match again. That is shown in `MiniScheme.Proofs.Eval.InStep`.

The identities of frames and pairs are the same on both sides. `fits` is what a correspondence may
ask of every closure, as long as `lambda` and `define` make no other.
-/
namespace MiniScheme

/-- What `lambda` and `define` see to: no formal stands twice, one is there to take the further
arguments, and the body is not empty. -/
structure Closure.Formed (c : Closure) : Prop where
  distinct : c.formals.Nodup
  rest : c.variadic = true → c.formals ≠ []
  body : c.body ≠ []

/-- A name that is bound keeps its place, and a new one comes last. -/
theorem Bindings.names_put (b : Bindings) (name : String) (v : Value) :
    (b.put name v).names = if name ∈ b.names then b.names else b.names ++ [name] := by
  induction b with
  | nil => rfl
  | cons bound rest ih =>
    obtain ⟨n, w⟩ := bound
    simp only [names] at ih
    by_cases same : n = name
    · simp [put, names, same]
    · by_cases old : name ∈ rest.map (·.1)
      · simp [put, names, same, ih, old]
      · simp [put, names, same, Ne.symm same, ih, old]

namespace Form

/-- No name stands twice, nor is any among those seen before. -/
theorem firstRepeated?_eq_none_iff {seen names : List String} :
    firstRepeated? seen names = none ↔ names.Nodup ∧ ∀ n ∈ names, n ∉ seen := by
  induction names generalizing seen with
  | nil => simp [firstRepeated?]
  | cons n names ih =>
    by_cases old : n ∈ seen
    · simp [firstRepeated?, old]
    · rw [firstRepeated?, if_neg old, ih, List.nodup_cons, List.forall_mem_cons]
      simp only [List.mem_cons, not_or]
      constructor
      · rintro ⟨distinct, new⟩
        exact ⟨⟨fun again => (new n again).1 rfl, distinct⟩, old, fun m member => (new m member).2⟩
      · rintro ⟨⟨once, distinct⟩, -, new⟩
        exact ⟨distinct, fun m member => ⟨fun same => once (same ▸ member), new m member⟩⟩

end Form

structure Correspondence where
  span : Span → Span → Prop
  closure : ClosureId → ClosureId → Prop
  fits : Closure → Prop
  merge {a a' b b' : Span} (first : span a a') (second : span b b') :
    span (a.merge b) (a'.merge b')
  same_iff {i i' j j' : ClosureId} (first : closure i i') (second : closure j j') :
    i = j ↔ i' = j'
  fits_of_formed {c : Closure} (formed : c.Formed) : fits c

namespace Correspondence

/-- Where no closure has another number on the other side. -/
theorem same_iff_of_eq {i i' j j' : ClosureId} (first : i = i') (second : j = j') :
    i = j ↔ i' = j' := by
  rw [first, second]

section Matching

variable (c : Correspondence)

/-- Values that are built alike, pair for pair, of spans and closures that correspond. -/
inductive Matches : Value → Value → Prop where
  | atom {s s' : Span} (a : Atom) (spans : c.span s s') : Matches (.atom s a) (.atom s' a)
  | nil {s s' : Span} (spans : c.span s s') : Matches (.nil s) (.nil s')
  | pair {s s' : Span} {car cdr car' cdr' : Value} (mark : CellId) (spans : c.span s s')
      (first : Matches car car') (second : Matches cdr cdr') :
      Matches (.pair s mark car cdr) (.pair s' mark car' cdr')
  | unspecified {s s' : Span} (spans : c.span s s') : Matches (.unspecified s) (.unspecified s')
  | primitive {s s' : Span} (p : Primitive) (spans : c.span s s') :
      Matches (.procedure s (.primitive p)) (.procedure s' (.primitive p))
  | closure {s s' : Span} {id id' : ClosureId} (name : Option String) (spans : c.span s s')
      (ids : c.closure id id') :
      Matches (.procedure s (.closure id name)) (.procedure s' (.closure id' name))

/-- The same names in the same order, each bound to values that match. -/
structure MatchesBindings (b b' : Bindings) : Prop where
  names : b.names = b'.names
  values : ∀ name, Option.Rel c.Matches (b.get? name) (b'.get? name)

structure MatchesFrame (frame frame' : Frame) : Prop where
  parent : frame.parent = frame'.parent
  bindings : c.MatchesBindings frame.bindings frame'.bindings

structure MatchesClosure (k k' : Closure) : Prop where
  formals : k.formals = k'.formals
  variadic : k.variadic = k'.variadic
  body : List.Forall₂ c.Matches k.body k'.body
  frame : k.frame = k'.frame
  fits : c.fits k

/-- The stores hold as many frames, which match, and closures that match wherever these correspond.
The closures made next will correspond, one by one. -/
structure MatchesStore (s t : Store) : Prop where
  frameCount : s.frames.size = t.frames.size
  frames : ∀ f : FrameId, Option.Rel c.MatchesFrame s.frames[f]? t.frames[f]?
  closures : ∀ {id id' : ClosureId}, c.closure id id' →
    Option.Rel c.MatchesClosure s.closures[id]? t.closures[id']?
  fresh : ∀ n, c.closure (s.closures.size + n) (t.closures.size + n)
  nextCell : s.nextCell = t.nextCell

inductive MatchesError : EvalError → EvalError → Prop where
  | unbound {s s' : Span} (name : String) (spans : c.span s s') :
      MatchesError (.unbound name s) (.unbound name s')
  | arity {s s' : Span} (expected : Arity) (got : Nat) (spans : c.span s s') :
      MatchesError (.arity expected got s) (.arity expected got s')
  | notProcedure {v v' : Value} {s s' : Span} (values : c.Matches v v') (spans : c.span s s') :
      MatchesError (.notProcedure v s) (.notProcedure v' s')
  | argument {s s' : Span} (fault : ArgumentFault) (spans : c.span s s') :
      MatchesError (.argument fault s) (.argument fault s')
  | notSymbol {v v' : Value} (values : c.Matches v v') : MatchesError (.notSymbol v) (.notSymbol v')
  | malformed {form form' : Value} (fault : FormFault) (forms : c.Matches form form') :
      MatchesError (.malformed fault form) (.malformed fault form')
  | emptyApplication {s s' : Span} (spans : c.span s s') :
      MatchesError (.emptyApplication s) (.emptyApplication s')
  | notCode {v v' : Value} (values : c.Matches v v') : MatchesError (.notCode v) (.notCode v')

/-- Outcomes of checks: results as `P` says, or errors that match. -/
inductive MatchesOutcome {α : Type} (P : α → α → Prop) :
    Except EvalError α → Except EvalError α → Prop where
  | ok {a a' : α} (result : P a a') : MatchesOutcome P (.ok a) (.ok a')
  | error {e e' : EvalError} (errors : c.MatchesError e e') :
      MatchesOutcome P (.error e) (.error e')

/-- Both computations have ended the same way and left stores that match. -/
inductive Ends {α : Type} (P : α → α → Prop) :
    EStateM.Result Stop Store α → EStateM.Result Stop Store α → Prop where
  | ok {a a' : α} {s t : Store} (result : P a a') (stores : c.MatchesStore s t) :
      Ends P (.ok a s) (.ok a' t)
  | failed {e e' : EvalError} {s t : Store} (errors : c.MatchesError e e')
      (stores : c.MatchesStore s t) : Ends P (.error (.failed e) s) (.error (.failed e') t)
  | exhausted {s t : Store} (stores : c.MatchesStore s t) :
      Ends P (.error .exhausted s) (.error .exhausted t)

/-- From stores that match both computations end the same way. -/
def InStep {α : Type} (P : α → α → Prop) (m m' : Machine α) : Prop :=
  ∀ ⦃s t : Store⦄, c.MatchesStore s t → c.Ends P (m s) (m' t)

end Matching

variable {c : Correspondence}

section Values

variable {v v' w w' : Value}

/-- A value matches itself if its spans and its closures correspond to themselves. -/
theorem matches_self (spans : ∀ node ∈ v.preorder, c.span node.span node.span)
    (within : v.Within fun id => c.closure id id) : c.Matches v v := by
  induction v with
  | atom s a => exact .atom a (spans (.atom s a) (by simp [Sexpr.preorder]))
  | nil s => exact .nil (spans (.nil s) (by simp [Sexpr.preorder]))
  | pair s mark car cdr ihCar ihCdr =>
    simp only [Sexpr.preorder, List.forall_mem_cons, List.forall_mem_append] at spans
    exact .pair mark spans.1 (ihCar spans.2.1 within.1) (ihCdr spans.2.2 within.2)
  | leaf s r =>
    have here : c.span s s := spans (.leaf s r) (by simp [Sexpr.preorder])
    cases r with
    | unspecified => exact .unspecified here
    | procedure p =>
      cases p with
      | primitive p => exact .primitive p here
      | closure id name => exact .closure name here within

theorem Matches.span (values : c.Matches v v') : c.span v.span v'.span := by
  cases values <;> assumption

theorem Matches.withSpan {s s' : Span} (values : c.Matches v v') (spans : c.span s s') :
    c.Matches (v.withSpan s) (v'.withSpan s') := by
  cases values with
  | atom a => exact .atom a spans
  | nil => exact .nil spans
  | pair mark _ first second => exact .pair mark spans first second
  | unspecified => exact .unspecified spans
  | primitive p => exact .primitive p spans
  | closure name _ ids => exact .closure name spans ids

theorem Matches.symbol? (values : c.Matches v v') : v.symbol? = v'.symbol? := by
  cases values with
  | atom a => cases a <;> rfl
  | _ => rfl

theorem Matches.isTrue (values : c.Matches v v') : v.isTrue = v'.isTrue := by
  cases values with
  | atom a =>
    cases a with
    | boolean b => cases b <;> rfl
    | _ => rfl
  | _ => rfl

theorem Matches.typeName (values : c.Matches v v') : v.typeName = v'.typeName := by
  cases values <;> rfl

/-- Lists match element by element. -/
theorem Matches.toList? (values : c.Matches v v') :
    Option.Rel (List.Forall₂ c.Matches) v.toList? v'.toList? := by
  induction values with
  | nil => exact .some .nil
  | @pair s s' car cdr car' cdr' mark spans first second _ rest =>
    simp only [Sexpr.toList?]
    generalize cdr.toList? = x at rest ⊢
    generalize cdr'.toList? = y at rest ⊢
    cases rest with
    | none => exact .none
    | some elements => exact .some (.cons first elements)
  | _ => exact .none

/-- Equality sees atoms, the identities of pairs and the correspondence of closures. -/
theorem Matches.equal (left : c.Matches v v') (right : c.Matches w w') :
    v.equal w = v'.equal w' := by
  simp only [Value.equal]
  induction left generalizing w w' with
  | pair mark spans first second ihFirst ihSecond =>
    cases right with
    | pair mark' spans' first' second' =>
      simp only [Sexpr.equalBy, ihFirst first', ihSecond second']
    | _ => rfl
  | closure name spans ids =>
    cases right with
    | closure name' spans' ids' =>
      simp [Sexpr.equalBy, Computed.same, Procedure.same, c.same_iff ids ids']
    | _ => rfl
  | _ => cases right <;> rfl

theorem Matches.same (left : c.Matches v v') (right : c.Matches w w') :
    v.same w = v'.same w' := by
  have equal := left.equal right
  cases left with
  | pair =>
    cases right with
    | pair => rfl
    | _ => exact equal
  | _ => cases right <;> exact equal

/-- The external form names closures and shows nothing else of them, and no spans. -/
theorem Matches.chars (values : c.Matches v v') :
    v.charsBy Computed.chars = v'.charsBy Computed.chars ∧
      v.tailCharsBy Computed.chars = v'.tailCharsBy Computed.chars := by
  induction values with
  | pair mark spans first second ihFirst ihSecond =>
    simp only [Sexpr.charsBy, Sexpr.tailCharsBy, ihFirst.1, ihSecond.2, and_self]
  | closure name => cases name <;> exact ⟨rfl, rfl⟩
  | _ => exact ⟨rfl, rfl⟩

theorem Matches.text (values : c.Matches v v') : v.text = v'.text := by
  rw [Value.text, Value.chars, values.chars.1]
  rfl

theorem MatchesError.message {e e' : EvalError} (errors : c.MatchesError e e') :
    e.message = e'.message := by
  cases errors with
  | notProcedure values | notSymbol values | malformed fault values =>
    dsimp only [EvalError.message]
    rw [values.text]
  | notCode values =>
    dsimp only [EvalError.message, EvalError.notCodeMessage]
    rw [values.typeName]
  | _ => rfl

end Values

section Stores

variable {s t : Store} {b b' : Bindings} {v v' : Value}

theorem MatchesBindings.self (values : ∀ name v, b.get? name = some v → c.Matches v v) :
    c.MatchesBindings b b := by
  refine ⟨rfl, fun name => ?_⟩
  cases bound : b.get? name with
  | none => exact .none
  | some v => exact .some (values name v bound)

theorem MatchesBindings.put (bindings : c.MatchesBindings b b') (name : String)
    (values : c.Matches v v') : c.MatchesBindings (b.put name v) (b'.put name v') := by
  refine ⟨?_, fun other => ?_⟩
  · rw [Bindings.names_put, Bindings.names_put, bindings.names]
  · rw [Bindings.get?_put, Bindings.get?_put]
    split
    · exact .some values
    · exact bindings.values other

/-- Binding names in turn to values that match. -/
theorem MatchesBindings.foldl_put (bindings : c.MatchesBindings b b') (names : List String)
    {vs vs' : List Value} (values : List.Forall₂ c.Matches vs vs') :
    c.MatchesBindings
      ((names.zip vs).foldl (fun (b : Bindings) bound => b.put bound.1 bound.2) b)
      ((names.zip vs').foldl (fun (b : Bindings) bound => b.put bound.1 bound.2) b') := by
  induction values generalizing names b b' with
  | nil => simpa using bindings
  | cons first _ ih =>
    cases names with
    | nil => exact bindings
    | cons name names => exact ih (bindings.put name first) names

/-- A name is found in the same frame, if it is found. -/
theorem MatchesStore.find? (stores : c.MatchesStore s t) (f : FrameId) (name : String) :
    (s.find? f name = none ∧ t.find? f name = none) ∨
      ∃ g v v', s.find? f name = some (g, v) ∧ t.find? f name = some (g, v') ∧ c.Matches v v' := by
  induction f using Nat.strongRecOn with
  | ind f ih =>
    rw [Store.find?, Store.find?]
    have frames := stores.frames f
    generalize s.frames[f]? = x at frames ⊢
    generalize t.frames[f]? = y at frames ⊢
    cases frames with
    | none => exact .inl ⟨rfl, rfl⟩
    | @some frame frame' frames =>
      have bound := frames.bindings.values name
      simp only [frames.parent]
      generalize frame.bindings.get? name = x at bound ⊢
      generalize frame'.bindings.get? name = y at bound ⊢
      cases bound with
      | some values => exact .inr ⟨f, _, _, rfl, rfl, values⟩
      | none =>
        cases frame'.parent with
        | none => exact .inl ⟨rfl, rfl⟩
        | some p =>
          by_cases older : p < f
          · simpa only [older, if_true] using ih p older
          · simp [older]

theorem MatchesStore.define (stores : c.MatchesStore s t) (f : FrameId) (name : String)
    (values : c.Matches v v') : c.MatchesStore (s.define f name v) (t.define f name v') := by
  refine ⟨?_, ?_, stores.closures, stores.fresh, stores.nextCell⟩
  · simpa [Store.define] using stores.frameCount
  · intro g
    rw [Store.frames_define, Store.frames_define]
    split
    · have frames := stores.frames g
      generalize s.frames[g]? = x at frames ⊢
      generalize t.frames[g]? = y at frames ⊢
      cases frames with
      | none => exact .none
      | some frames =>
        exact .some ⟨frames.parent, frames.bindings.put name values⟩
    · exact stores.frames g

theorem MatchesStore.addFrame {frame frame' : Frame} (stores : c.MatchesStore s t)
    (frames : c.MatchesFrame frame frame') :
    (s.addFrame frame).1 = (t.addFrame frame').1 ∧
      c.MatchesStore (s.addFrame frame).2 (t.addFrame frame').2 := by
  refine ⟨stores.frameCount, ?_, ?_, stores.closures, stores.fresh, stores.nextCell⟩
  · simpa [Store.addFrame] using stores.frameCount
  · intro g
    simp only [Store.addFrame, Array.getElem?_push, stores.frameCount]
    split
    · exact .some frames
    · exact stores.frames g

/-- The closure made next corresponds to the one made next on the other side. -/
theorem MatchesStore.addClosure {k k' : Closure} (stores : c.MatchesStore s t)
    (closures : c.MatchesClosure k k') :
    c.closure (s.addClosure k).1 (t.addClosure k').1 ∧
      c.MatchesStore (s.addClosure k).2 (t.addClosure k').2 := by
  have made : c.closure s.closures.size t.closures.size := stores.fresh 0
  refine ⟨made, stores.frameCount, stores.frames, ?_, ?_, stores.nextCell⟩
  · intro id id' ids
    simp only [Store.addClosure, Array.getElem?_push, c.same_iff ids made]
    split
    · exact .some closures
    · exact stores.closures ids
  · intro n
    have next := stores.fresh (1 + n)
    simpa only [Store.addClosure, Array.size_push, Nat.add_assoc] using next

theorem MatchesStore.withNextCell (stores : c.MatchesStore s t) (next : CellId) :
    c.MatchesStore { s with nextCell := next } { t with nextCell := next } :=
  ⟨stores.frameCount, stores.frames, stores.closures, stores.fresh, rfl⟩

theorem MatchesStore.addPair {car cdr car' cdr' : Value} {span span' : Span}
    (stores : c.MatchesStore s t) (spans : c.span span span') (first : c.Matches car car')
    (second : c.Matches cdr cdr') :
    c.Matches (s.addPair span car cdr).1 (t.addPair span' car' cdr').1 ∧
      c.MatchesStore (s.addPair span car cdr).2 (t.addPair span' car' cdr').2 := by
  simp only [Store.addPair, stores.nextCell]
  exact ⟨.pair _ spans first second, stores.withNextCell _⟩

/-- A list made of elements that match; its pairs cover spans that correspond. -/
theorem MatchesStore.addList {tail tail' : Value} {vs vs' : List Value}
    (stores : c.MatchesStore s t) (tails : c.Matches tail tail')
    (values : List.Forall₂ c.Matches vs vs') :
    c.Matches (s.addList tail vs).1 (t.addList tail' vs').1 ∧
      c.MatchesStore (s.addList tail vs).2 (t.addList tail' vs').2 := by
  induction values with
  | nil => exact ⟨tails, stores⟩
  | cons first _ ih => exact ih.2.addPair (c.merge first.span ih.1.span) first ih.1

theorem MatchesStore.bindFormals {arguments arguments' : List Value} {span span' : Span}
    (stores : c.MatchesStore s t) (parent : FrameId) (formals : List String) (variadic : Bool)
    (values : List.Forall₂ c.Matches arguments arguments') (spans : c.span span span') :
    (s.bindFormals parent formals variadic arguments span).1 =
        (t.bindFormals parent formals variadic arguments' span').1 ∧
      c.MatchesStore (s.bindFormals parent formals variadic arguments span).2
        (t.bindFormals parent formals variadic arguments' span').2 := by
  let required := (Arity.ofFormals formals variadic).required
  have empty : c.MatchesBindings [] [] := ⟨rfl, fun _ => .none⟩
  have fixed := empty.foldl_put (formals.take required) values
  have collected := stores.addList (.nil spans) (List.forall₂_drop required values)
  unfold Store.bindFormals
  dsimp only
  split
  · exact collected.2.addFrame ⟨rfl, fixed.put _ collected.1⟩
  · exact stores.addFrame ⟨rfl, fixed⟩

end Stores

section Outcomes

variable {α : Type} {P : α → α → Prop} {m m' : Machine α} {s t : Store}

theorem Ends.after (ends : c.Ends P (m s) (m' t)) : c.MatchesStore (m.after s) (m'.after t) := by
  unfold Machine.after
  generalize m s = x at ends ⊢
  generalize m' t = y at ends ⊢
  cases ends <;> assumption

/-- What ends the same way comes to an end on both sides or on neither. -/
theorem Ends.exhausted_iff (ends : c.Ends P (m s) (m' t)) :
    m.outcome s = .error .exhausted ↔ m'.outcome t = .error .exhausted := by
  unfold Machine.outcome
  generalize m s = x at ends ⊢
  generalize m' t = y at ends ⊢
  cases ends <;> simp

/-- Values that match have one external form. -/
theorem Ends.text {m m' : Machine Value} {v : Value} (ends : c.Ends c.Matches (m s) (m' t))
    (given : m.outcome s = .ok v) : ∃ v', m'.outcome t = .ok v' ∧ v.text = v'.text := by
  unfold Machine.outcome at given ⊢
  generalize m s = x at ends given
  generalize m' t = y at ends ⊢
  cases ends with
  | ok values =>
    cases given
    exact ⟨_, rfl, values.text⟩
  | failed | exhausted => cases given

theorem Ends.message {e : EvalError} (ends : c.Ends P (m s) (m' t))
    (given : m.outcome s = .error (.failed e)) :
    ∃ e', m'.outcome t = .error (.failed e') ∧ e.message = e'.message := by
  unfold Machine.outcome at given ⊢
  generalize m s = x at ends given
  generalize m' t = y at ends ⊢
  cases ends with
  | failed errors =>
    cases given
    exact ⟨_, rfl, errors.message⟩
  | ok | exhausted => cases given

end Outcomes

section Steps

variable {α β : Type} {P : α → α → Prop} {Q : β → β → Prop}

theorem inStep_pure {a a' : α} (result : P a a') : c.InStep P (pure a) (pure a') :=
  fun _ _ stores => .ok result stores

theorem inStep_fail {e e' : EvalError} (errors : c.MatchesError e e') :
    c.InStep P (Machine.fail e) (Machine.fail e') :=
  fun _ _ stores => .failed errors stores

theorem InStep.bind {m m' : Machine α} {next next' : α → Machine β} (first : c.InStep P m m')
    (rest : ∀ a a', P a a' → c.InStep Q (next a) (next' a')) :
    c.InStep Q (m >>= next) (m' >>= next') := by
  intro s t stores
  have ends := first stores
  change c.Ends Q (EStateM.bind m next s) (EStateM.bind m' next' t)
  unfold EStateM.bind
  generalize m s = x at ends ⊢
  generalize m' t = y at ends ⊢
  cases ends with
  | ok result stores => exact rest _ _ result stores
  | failed errors stores => exact .failed errors stores
  | exhausted stores => exact .exhausted stores

theorem inStep_ofExcept {x x' : Except EvalError α} (outcomes : c.MatchesOutcome P x x') :
    c.InStep P (Machine.ofExcept x) (Machine.ofExcept x') := by
  cases outcomes with
  | ok result => exact inStep_pure result
  | error errors => exact inStep_fail errors

/-- Operations of the stores that make the like on both sides. -/
theorem inStep_make {f f' : Store → α × Store}
    (makes : ∀ s t, c.MatchesStore s t → P (f s).1 (f' t).1 ∧ c.MatchesStore (f s).2 (f' t).2) :
    c.InStep P (Machine.make f) (Machine.make f') :=
  fun s t stores => .ok (makes s t stores).1 (makes s t stores).2

/-- A check that fails first or else lets the rest go on. -/
theorem inStep_unless {refused refused' : Bool} {e e' : EvalError} {rest rest' : Unit → Machine α}
    (both : refused = refused') (errors : c.MatchesError e e')
    (goesOn : refused = false → c.InStep P (rest ()) (rest' ())) :
    c.InStep P (if refused then Machine.fail e >>= rest else rest ())
      (if refused' then Machine.fail e' >>= rest' else rest' ()) := by
  subst both
  cases refused with
  | true => exact fun _ _ stores => .failed errors stores
  | false => exact goesOn rfl

theorem inStep_lookup {span span' : Span} (f : FrameId) (name : String)
    (spans : c.span span span') :
    c.InStep c.Matches (Machine.lookup f name span) (Machine.lookup f name span') := by
  intro s t stores
  rw [Machine.lookup_eq, Machine.lookup_eq, Store.get?, Store.get?]
  obtain ⟨absent, absent'⟩ | ⟨g, v, v', found, found', values⟩ := stores.find? f name
  · rw [absent, absent']
    exact .failed (.unbound name spans) stores
  · rw [found, found']
    exact .ok values stores

theorem inStep_assign {v v' : Value} {span span' : Span} (f : FrameId) (name : String)
    (values : c.Matches v v') (spans : c.span span span') :
    c.InStep Eq (Machine.assign f name v span) (Machine.assign f name v' span') := by
  intro s t stores
  unfold Machine.assign Store.set?
  obtain ⟨absent, absent'⟩ | ⟨g, w, w', found, found', -⟩ := stores.find? f name
  · rw [absent, absent']
    exact .failed (.unbound name spans) stores
  · rw [found, found']
    exact .ok rfl (stores.define g name values)

theorem inStep_define {v v' : Value} (f : FrameId) (name : String) (values : c.Matches v v') :
    c.InStep Eq (Machine.define f name v) (Machine.define f name v') :=
  fun _ _ stores => .ok rfl (stores.define f name values)

/-- The frame of a call is the same one on both sides. -/
theorem inStep_extend {arguments arguments' : List Value} {span span' : Span} (parent : FrameId)
    (formals : List String) (variadic : Bool) (values : List.Forall₂ c.Matches arguments arguments')
    (spans : c.span span span') :
    c.InStep Eq (Machine.extend parent formals variadic arguments span)
      (Machine.extend parent formals variadic arguments' span') := by
  unfold Machine.extend
  dsimp only
  rw [← values.length_eq]
  split
  · exact inStep_make fun s t stores => stores.bindFormals parent formals variadic values spans
  · exact inStep_fail (.arity _ _ spans)

end Steps

end Correspondence
end MiniScheme
