import MiniScheme.Proofs.Eval.Forest
import MiniScheme.Proofs.Eval.InStep

/-!
# `let` is the call of a `lambda`

`(let ((n e) ...) b ...)` binds its names in a loop of its own and enters a frame at once, where
`((lambda (n ...) b ...) e ...)` makes a closure, keeps it while the operands are evaluated, and
fetches it to be called. The two end the same way all the same. The only trace of the closure is
that those made after it are counted one further, so the runs are compared along a correspondence
that delays them (`Correspondence.delayed`); frames and pairs are even the same.

The call rests on two facts about the closure: it is still there when the operands have been
evaluated (`Store.Extends`), and nothing else in the store speaks of it.
-/
namespace MiniScheme

namespace Correspondence

/-- Where a closure is found if one more was made as number `k`. -/
def delay (k id : Nat) : Nat := if id < k then id else id + 1

theorem delay_of_lt {k id : Nat} (old : id < k) : delay k id = id := if_pos old

theorem delay_of_le {k id : Nat} (new : k ≤ id) : delay k id = id + 1 := if_neg (Nat.not_lt.mpr new)

theorem delay_inj (k i j : Nat) : i = j ↔ delay k i = delay k j := by
  unfold delay
  split <;> split <;> omega

/-- Spans are not looked at; the closures from `k` on are one further on the other side, where one
more has been made. -/
def delayed (k : ClosureId) : Correspondence where
  span _ _ := True
  closure id id' := id' = delay k id
  fits _ := True
  merge _ _ := trivial
  same_iff := by
    rintro i _ j _ rfl rfl
    exact delay_inj k i j
  fits_of_formed _ := trivial

end Correspondence

namespace Store

/-- No closure stands anywhere before it is made. -/
structure Whole (s : Store) : Prop where
  bound : ∀ (f : FrameId) (frame : Frame) name v,
    s.frames[f]? = some frame → frame.bindings.get? name = some v → s.Made v
  body : ∀ (id : ClosureId) (c : Closure), s.closures[id]? = some c → ∀ e ∈ c.body, s.Made e

theorem Sound.whole {s : Store} (sound : s.Sound) : s.Whole := ⟨sound.bound, sound.body⟩

/-- Every closure of the first store is that of the second. -/
def Extends (s s' : Store) : Prop :=
  ∀ (id : ClosureId) (c : Closure), s.closures[id]? = some c → s'.closures[id]? = some c

theorem extends_of_closures_eq {s s' : Store} (same : s'.closures = s.closures) :
    s.Extends s' := by
  intro id c there
  rw [same, there]

theorem Extends.trans {s s' s'' : Store} (first : s.Extends s') (rest : s'.Extends s'') :
    s.Extends s'' :=
  fun id c there => rest id c (first id c there)

theorem extends_addClosure (s : Store) (c : Closure) : s.Extends (s.addClosure c).2 := by
  intro id c' there
  obtain ⟨old, -⟩ := Array.getElem?_eq_some_iff.mp there
  change (s.closures.push c)[id]? = _
  rw [Array.getElem?_push, if_neg (Nat.ne_of_lt old), there]

section Delay

variable {s : Store} {v : Value}

theorem Made.matches_delayed (made : s.Made v) :
    (Correspondence.delayed s.closures.size).Matches v v := by
  refine Correspondence.matches_self (fun _ _ => trivial) (made.mono fun id old => ?_)
  exact (Correspondence.delay_of_lt old).symm

theorem forall₂_delayed {vs : List Value} (made : ∀ v ∈ vs, s.Made v) :
    List.Forall₂ (Correspondence.delayed s.closures.size).Matches vs vs :=
  List.forall₂_same.mpr fun v member => (made v member).matches_delayed

/-- A store is like itself with one more closure. -/
theorem Whole.matches_addClosure (whole : s.Whole) (new : Closure) :
    (Correspondence.delayed s.closures.size).MatchesStore s (s.addClosure new).2 := by
  refine ⟨rfl, ?_, ?_, ?_, rfl⟩
  · intro f
    change Option.Rel _ s.frames[f]? s.frames[f]?
    cases there : s.frames[f]? with
    | none => exact .none
    | some frame =>
      refine .some ⟨rfl, .self fun name v bound => ?_⟩
      exact (whole.bound f frame name v there bound).matches_delayed
  · rintro id _ rfl
    by_cases old : id < s.closures.size
    · have there := Array.getElem?_eq_getElem old
      rw [Correspondence.delay_of_lt old, there, s.extends_addClosure new id _ there]
      exact .some ⟨rfl, rfl, forall₂_delayed (whole.body id _ there), rfl, trivial⟩
    · have beyond : s.closures.size ≤ id := Nat.not_lt.mp old
      have absent : (s.closures.push new)[id + 1]? = none := by simpa using beyond
      rw [Correspondence.delay_of_le beyond, Array.getElem?_eq_none beyond, addClosure, absent]
      exact .none
  · intro n
    change (s.closures.push new).size + n = Correspondence.delay s.closures.size _
    rw [Array.size_push, Correspondence.delay_of_le (Nat.le_add_right _ n)]
    omega

end Delay

end Store

theorem Store.extends_assign (f : FrameId) (name : String) (v : Value) (span : Span) (s : Store) :
    s.Extends ((Machine.assign f name v span).after s) := by
  apply Store.extends_of_closures_eq
  rw [Machine.after_assign]
  cases s.find? f name <;> rfl

/-- Computations that keep every closure. -/
def keeping : Discipline where
  frame _ := True
  closure _ := True
  Obeys _ _ m P := ∀ s, m.Leads Store.Extends P s
  pure result _ := ⟨fun _ same => by cases same; exact result, Store.extends_of_closures_eq rfl⟩
  stop _ _ := ⟨(fun _ none => nomatch none), Store.extends_of_closures_eq rfl⟩
  bind first rest s := (first s).bind Store.Extends.trans rest
  lookup _ _ _ s := ⟨fun v _ => Value.within_of_forall (fun _ => trivial) v,
    Store.extends_of_closures_eq (by rw [Machine.after_lookup])⟩
  assign name span _ _ s := ⟨fun _ _ => trivial, s.extends_assign _ name _ span⟩
  define _ _ _ _ := ⟨fun _ _ => trivial, Store.extends_of_closures_eq rfl⟩
  enter _ _ inside s :=
    have obeys := inside s.frames.size trivial _
    ⟨obeys.result, obeys.related⟩
  makeClosure _ _ s := ⟨fun _ _ => trivial, s.extends_addClosure _⟩
  fetch _ _ rest s :=
    have obeys := rest s (fun _ _ =>
      ⟨trivial, fun e _ => Value.within_of_forall (fun _ => trivial) e⟩) s
    ⟨obeys.result, obeys.related⟩
  makePairs _ _ _ := ⟨fun v _ => Value.within_of_forall (fun _ => trivial) v,
    Store.extends_of_closures_eq rfl⟩

/-- While operands are evaluated, no closure is lost. -/
theorem evalEach_extends (fuel : Nat) (f : FrameId) (es : List Value) (s : Store) :
    s.Extends ((Form.evalEach (eval fuel) f es).after s) := by
  have allowed : ∀ e ∈ es, keeping.Allows e :=
    fun e _ => Value.within_of_forall (fun _ => trivial) e
  have each : ∀ w f e, keeping.logic.frame w f → keeping.logic.value w e →
      keeping.logic.Obeys w f (eval fuel f e) keeping.logic.value :=
    fun _ _ _ _ known => keeping.obeys_eval fuel trivial known
  exact (keeping.logic.obeys_evalEach (w := ()) each trivial allowed s).related

section Shapes

/-- A binding `(name expression)`. -/
def IsBinding (b : Value) (bound : String × Value) : Prop :=
  ∃ target : Value, b.toList? = some [target, bound.2] ∧ target.symbol? = some bound.1

/-- `(let ((name expression) ...) body ...)`. -/
def IsLet (form : Value) (bounds : List (String × Value)) (body : List Value) : Prop :=
  ∃ (keyword bindings : Value) (bs : List Value),
    form.toList? = some (keyword :: bindings :: body) ∧ keyword.symbol? = some "let" ∧
    bindings.toList? = some bs ∧ List.Forall₂ IsBinding bs bounds

/-- `(lambda (name ...) body ...)`. -/
def IsLambda (form : Value) (names : List String) (body : List Value) : Prop :=
  ∃ (keyword params : Value) (symbols : List Value),
    form.toList? = some (keyword :: params :: body) ∧ keyword.symbol? = some "lambda" ∧
    params.toList? = some symbols ∧ symbols.map Sexpr.symbol? = names.map some

/-- `((lambda (name ...) body ...) expression ...)`. -/
def IsLambdaCall (form : Value) (bounds : List (String × Value)) (body : List Value) : Prop :=
  ∃ operator : Value, form.toList? = some (operator :: bounds.map (·.2)) ∧
    IsLambda operator (bounds.map (·.1)) body

theorem exists_pair_of_toList? {form first : Value} {rest : List Value}
    (elements : form.toList? = some (first :: rest)) :
    ∃ mark operands, form = .pair form.span mark first operands ∧ operands.toList? = some rest := by
  cases form with
  | pair span mark car cdr =>
    obtain ⟨es, tail, same⟩ := Option.map_eq_some_iff.mp elements
    cases same
    exact ⟨mark, cdr, rfl, tail⟩
  | _ => cases elements

end Shapes

section Unfolding

variable {ev : Evaluator} {form : Value} {bounds : List (String × Value)} {body : List Value}

/-- A special form is evaluated by its keyword. -/
theorem evalStep_of_keyword {keyword : Value} {operands : List Value} {k : Keyword} (f : FrameId)
    (elements : form.toList? = some (keyword :: operands))
    (named : keyword.symbol? = some k.name) :
    evalStep ev f form = Form.eval ev k f form operands := by
  obtain ⟨mark, rest, shape, tail⟩ := exists_pair_of_toList? elements
  have known : Keyword.ofName? k.name = some k := by cases k <;> rfl
  rw [shape]
  simp only [evalStep, named, Option.bind_some, known, tail]

/-- The bindings of a `let` are evaluated as operands are: in turn, and in the frame of the form. -/
theorem evalBindings_eq {bs : List Value} (f : FrameId) (form : Value)
    (bindings : List.Forall₂ IsBinding bs bounds) :
    Form.evalBindings ev f form bs = (do
      let vs ← Form.evalEach ev f (bounds.map (·.2))
      pure (bounds.map (·.1), vs)) := by
  induction bindings with
  | nil => simp [Form.evalBindings, Form.evalEach]
  | cons first _ ih =>
    obtain ⟨target, items, named⟩ := first
    simp [Form.evalBindings, Form.evalEach, Form.expectSymbol, Machine.ofExcept, items, named, ih]

theorem ensureDistinct_of_nodup {names : List String} (form : Value) (distinct : names.Nodup) :
    Form.ensureDistinct names form = .ok () := by
  have none : Form.firstRepeated? [] names = none :=
    Form.firstRepeated?_eq_none_iff.mpr ⟨distinct, fun _ _ => List.not_mem_nil⟩
  rw [Form.ensureDistinct, none]

/-- What a `let` does: it evaluates the expressions in turn in the frame where it stands, and only
then is there a frame with the new names, for the body. -/
theorem evalStep_let (f : FrameId) (isLet : IsLet form bounds body)
    (distinct : (bounds.map (·.1)).Nodup) (nonempty : body ≠ []) :
    evalStep ev f form = (do
      let vs ← Form.evalEach ev f (bounds.map (·.2))
      let inner ← Machine.extend f (bounds.map (·.1)) false vs form.span
      Form.evalSequence ev inner form.span body) := by
  obtain ⟨keyword, bindings, bs, elements, named, items, binds⟩ := isLet
  rw [evalStep_of_keyword (k := .binding) f elements named]
  simp [Form.eval, Form.evalLet, nonempty, items, evalBindings_eq f form binds,
    ensureDistinct_of_nodup form distinct, Machine.ofExcept]

theorem formalNames_of_symbols {params : Value} {symbols : List Value} {names : List String}
    (items : params.toList? = some symbols)
    (named : symbols.map Sexpr.symbol? = names.map some) :
    Form.formalNames params = .ok (names, false) := by
  induction params generalizing symbols names with
  | atom => cases items
  | leaf => cases items
  | nil =>
    cases items
    cases names with
    | nil => rfl
    | cons => cases named
  | pair span mark car cdr _ ih =>
    obtain ⟨rest, tail, rfl⟩ := Option.map_eq_some_iff.mp items
    cases names with
    | nil => cases named
    | cons name names =>
      obtain ⟨first, others⟩ := List.cons.inj named
      simp only [Form.formalNames, Form.expectSymbol, first, ih tail others]
      rfl

/-- What a `lambda` does: it makes a closure of the frame where it stands. -/
theorem evalStep_lambda {names : List String} (f : FrameId) (isLambda : IsLambda form names body)
    (distinct : names.Nodup) (nonempty : body ≠ []) :
    evalStep ev f form = Form.makeClosure ⟨names, false, body, f⟩ none form.span := by
  obtain ⟨keyword, params, symbols, elements, named, items, symbolsNamed⟩ := isLambda
  rw [evalStep_of_keyword (k := .lambda) f elements named]
  simp [Form.eval, Form.evalLambda, nonempty, Form.formals,
    formalNames_of_symbols items symbolsNamed, ensureDistinct_of_nodup form distinct, Except.map,
    Machine.ofExcept]

end Unfolding

/-- Two ways to go on are one if they do the same from where the first part ends. -/
theorem Machine.bind_congr_after {α β : Type} {m : Machine α} {next next' : α → Machine β}
    {s : Store} (same : ∀ a, m.outcome s = .ok a → next a (m.after s) = next' a (m.after s)) :
    (m >>= next) s = (m >>= next') s := by
  change EStateM.bind m next s = EStateM.bind m next' s
  unfold outcome after at same
  unfold EStateM.bind
  cases ended : m s with
  | ok a t => simpa [ended] using same a
  | error why t => rfl

section Equivalence

variable {s : Store} {form call : Value} {bounds : List (String × Value)} {body : List Value}

/-- What the call of a `lambda` does: all that a `let` does, in a store with one closure more. -/
theorem eval_lambdaCall (fuel : Nat) (f : FrameId) (s : Store)
    (isCall : IsLambdaCall call bounds body) (distinct : (bounds.map (·.1)).Nodup)
    (nonempty : body ≠ []) :
    eval (fuel + 2) f call s =
      (do
        let vs ← Form.evalEach (eval (fuel + 1)) f (bounds.map (·.2))
        let inner ← Machine.extend f (bounds.map (·.1)) false vs call.span
        Form.evalSequence (eval (fuel + 1)) inner call.span body : Machine Value)
      (s.addClosure ⟨bounds.map (·.1), false, body, f⟩).2 := by
  obtain ⟨operator, elements, isLambda⟩ := isCall
  obtain ⟨mark, operands, shape, rest⟩ := exists_pair_of_toList? elements
  let c : Closure := ⟨bounds.map (·.1), false, body, f⟩
  have made : eval (fuel + 1) f operator = Form.makeClosure c none operator.span :=
    evalStep_lambda f isLambda distinct nonempty
  have noKeyword : operator.symbol? = none := by
    obtain ⟨_, _, _, inner, -⟩ := isLambda
    obtain ⟨_, _, pair, -⟩ := exists_pair_of_toList? inner
    rw [pair]
    rfl
  have applied : eval (fuel + 2) f call =
      evalApplication (eval (fuel + 1)) f call operator operands := by
    conv_lhs => rw [shape]
    conv_rhs => rw [shape]
    simp only [eval, evalStep, noKeyword, Option.bind_none]
  have called : eval (fuel + 2) f call s =
      (do
        let vs ← Form.evalEach (eval (fuel + 1)) f (bounds.map (·.2))
        applyBy (eval (fuel + 1)) (.closure s.closures.size none) vs call.span : Machine Value)
      (s.addClosure c).2 := by
    rw [applied, evalApplication, made, rest]
    rfl
  rw [called]
  refine Machine.bind_congr_after fun vs _ => ?_
  -- the closure has been kept while the operands were evaluated
  have there : (s.addClosure c).2.closures[s.closures.size]? = some c := Array.getElem?_push_size
  have kept := evalEach_extends (fuel + 1) f (bounds.map (·.2)) _ _ _ there
  generalize (Form.evalEach (eval (fuel + 1)) f (bounds.map (·.2))).after _ = t at kept ⊢
  rw [applyBy_closure, kept]

/-- The expressions and the body of a `let` hold no closures that the form does not hold. -/
theorem IsLet.made (isLet : IsLet form bounds body) (made : s.Made form) :
    (∀ e ∈ bounds.map (·.2), s.Made e) ∧ ∀ e ∈ body, s.Made e := by
  obtain ⟨keyword, bindings, bs, elements, -, items, binds⟩ := isLet
  have parts : ∀ e ∈ keyword :: bindings :: body, s.Made e :=
    Store.forestry.value_of_toList? made elements
  simp only [List.forall_mem_cons] at parts
  have each : ∀ b ∈ bs, s.Made b := Store.forestry.value_of_toList? parts.2.1 items
  refine ⟨?_, parts.2.2⟩
  clear items
  induction binds with
  | nil => simp
  | cons first _ ih =>
    obtain ⟨target, pieces, -⟩ := first
    rw [List.forall_mem_cons] at each
    have inside := Store.forestry.value_of_toList? each.1 pieces
    rw [List.map_cons, List.forall_mem_cons]
    exact ⟨inside _ (by simp), ih each.2⟩

/-- From a whole store, the two end the same way if two evaluations may be nested. -/
theorem ends_let_lambdaCall (fuel : Nat) (f : FrameId) (isLet : IsLet form bounds body)
    (isCall : IsLambdaCall call bounds body) (distinct : (bounds.map (·.1)).Nodup)
    (nonempty : body ≠ []) (whole : s.Whole) (made : s.Made form) :
    (Correspondence.delayed s.closures.size).Ends (Correspondence.delayed s.closures.size).Matches
      (eval (fuel + 2) f form s) (eval (fuel + 2) f call s) := by
  obtain ⟨madeInits, madeBody⟩ := isLet.made made
  have parts := Correspondence.inStep_eval (c := .delayed s.closures.size) (fuel + 1)
  have inits := Correspondence.inStep_evalEach parts f (Store.forall₂_delayed madeInits)
  rw [eval_lambdaCall fuel f s isCall distinct nonempty, eval,
    evalStep_let f isLet distinct nonempty]
  refine inits.bind (fun vs vs' values => ?_) (whole.matches_addClosure _)
  have spans : (Correspondence.delayed s.closures.size).span form.span call.span := trivial
  refine (Correspondence.inStep_extend f (bounds.map (·.1)) false values spans).bind ?_
  rintro inner - rfl
  exact Correspondence.inStep_evalSequence parts inner spans (Store.forall₂_delayed madeBody)

theorem outcome_evalSequence_zero (f : FrameId) (span : Span) (s : Store) (nonempty : body ≠ []) :
    (Form.evalSequence (eval 0) f span body).outcome s = .error .exhausted := by
  cases body with
  | nil => contradiction
  | cons e es => cases es <;> rfl

/-- Neither ends if less than two evaluations may be nested. -/
theorem outcome_let_one (f : FrameId) (s : Store) (isLet : IsLet form bounds body)
    (distinct : (bounds.map (·.1)).Nodup) (nonempty : body ≠ []) :
    (eval 1 f form).outcome s = .error .exhausted := by
  rw [eval, evalStep_let f isLet distinct nonempty]
  cases bounds with
  | cons bound bounds => rfl
  | nil =>
    change (Form.evalSequence (eval 0) s.frames.size form.span body).outcome _ = _
    exact outcome_evalSequence_zero _ _ _ nonempty

theorem outcome_lambdaCall_one (f : FrameId) (s : Store) (isCall : IsLambdaCall call bounds body) :
    (eval 1 f call).outcome s = .error .exhausted := by
  obtain ⟨operator, elements, isLambda⟩ := isCall
  obtain ⟨mark, operands, shape, rest⟩ := exists_pair_of_toList? elements
  obtain ⟨_, _, _, inner, -⟩ := isLambda
  obtain ⟨_, _, pair, -⟩ := exists_pair_of_toList? inner
  rw [shape, pair]
  rfl

/-- A `let` with distinct names and a body, and the call of the `lambda` with these names and this
body on the same expressions, are evaluated in the same frame of the same store, where no closure
stands before it is made (as in every store that is reached: `Store.Reached.sound`). Within whatever
depth, neither ends, or both end the same way: with values or errors that differ only in spans and
in the numbers of the closures made since, and leave stores that differ no more. So one of them
never ends just if the other never does, and the values are written and the errors worded the same.
A `let` evaluates the expressions in turn in the frame where it stands, and only then is there a
frame where the names are bound. -/
theorem eval_let_as_call {s : Store} {form call : Value} {bounds : List (String × Value)}
    {body : List Value} (f : FrameId) (isLet : IsLet form bounds body)
    (isCall : IsLambdaCall call bounds body) (distinct : (bounds.map (·.1)).Nodup)
    (nonempty : body ≠ []) (whole : s.Whole) (made : s.Made form) :
    (∀ fuel,
      ((eval fuel f form).outcome s = .error .exhausted ∧
        (eval fuel f call).outcome s = .error .exhausted) ∨
      (Correspondence.delayed s.closures.size).Ends
        (Correspondence.delayed s.closures.size).Matches
        (eval fuel f form s) (eval fuel f call s)) ∧
    ((∀ fuel, (eval fuel f form).outcome s = .error .exhausted) ↔
      ∀ fuel, (eval fuel f call).outcome s = .error .exhausted) ∧
    (∀ fuel v, (eval fuel f form).outcome s = .ok v →
      ∃ v', (eval fuel f call).outcome s = .ok v' ∧ v.text = v'.text) ∧
    (∀ fuel e, (eval fuel f form).outcome s = .error (.failed e) →
      ∃ e', (eval fuel f call).outcome s = .error (.failed e') ∧ e.message = e'.message) ∧
    ∀ fuel, eval (fuel + 1) f form = (do
      let vs ← Form.evalEach (eval fuel) f (bounds.map (·.2))
      let inner ← Machine.extend f (bounds.map (·.1)) false vs form.span
      Form.evalSequence (eval fuel) inner form.span body) := by
  have both (fuel : Nat) : ((eval fuel f form).outcome s = .error .exhausted ∧
      (eval fuel f call).outcome s = .error .exhausted) ∨
      (Correspondence.delayed s.closures.size).Ends
        (Correspondence.delayed s.closures.size).Matches
        (eval fuel f form s) (eval fuel f call s) := by
    match fuel with
    | 0 => exact .inl ⟨rfl, rfl⟩
    | 1 =>
      exact .inl ⟨outcome_let_one f s isLet distinct nonempty, outcome_lambdaCall_one f s isCall⟩
    | fuel + 2 =>
      exact .inr (ends_let_lambdaCall fuel f isLet isCall distinct nonempty whole made)
  have exhausted (fuel : Nat) : (eval fuel f form).outcome s = .error .exhausted ↔
      (eval fuel f call).outcome s = .error .exhausted := by
    obtain ⟨left, right⟩ | ends := both fuel
    · simp [left, right]
    · exact ends.exhausted_iff
  refine ⟨both, forall_congr' exhausted, ?_, ?_, fun fuel => ?_⟩
  · intro fuel v given
    obtain ⟨left, -⟩ | ends := both fuel
    · simp [left] at given
    · exact ends.text given
  · intro fuel e given
    obtain ⟨left, -⟩ | ends := both fuel
    · simp [left] at given
    · exact ends.message given
  · exact evalStep_let f isLet distinct nonempty

/-- The value of `(let ((f (lambda (x) x))) f)` is the first closure made, that of
`((lambda (f) f) (lambda (x) x))` the second. -/
theorem eval_let_as_call_of_identity :
    let word (name : String) : Value := .atom default (.symbol name)
    let form (parts : List Value) : Value := (Store.empty.addList (.nil default) parts).1
    let identity := form [word "lambda", form [word "x"], word "x"]
    let binding := form [word "let", form [form [word "f", identity]], word "f"]
    let call := form [form [word "lambda", form [word "f"], word "f"], identity]
    let s := Store.empty.addGlobal.2
    (eval 9 0 binding).outcome s = .ok (.procedure default (.closure 0 none)) ∧
    (eval 9 0 call).outcome s = .ok (.procedure default (.closure 1 none)) ∧
    (Correspondence.delayed 0).Ends (Correspondence.delayed 0).Matches
      (eval 9 0 binding s) (eval 9 0 call s) := by
  intro word form identity binding call s
  have value : (eval 9 0 binding).outcome s = .ok (.procedure default (.closure 0 none)) := by
    decide +kernel
  have reached : Store.Reached s := .single .newGlobal
  have isLet : IsLet binding [("f", identity)] [word "f"] :=
    ⟨word "let", form [form [word "f", identity]], [form [word "f", identity]], rfl, rfl, rfl,
      .cons ⟨word "f", rfl, rfl⟩ .nil⟩
  have isCall : IsLambdaCall call [("f", identity)] [word "f"] :=
    ⟨form [word "lambda", form [word "f"], word "f"], rfl,
      word "lambda", form [word "f"], [word "f"], rfl, rfl, rfl, rfl⟩
  have made : s.Made binding := by
    simp [Store.Made, Value.Within, binding, identity, form, word, Store.addList, Store.addPair]
  obtain ⟨both, -⟩ := eval_let_as_call (s := s) 0 isLet isCall (List.nodup_singleton _)
    (List.cons_ne_nil _ _) reached.sound.whole made
  refine ⟨value, by decide +kernel, (both 9).resolve_left fun exhausted => ?_⟩
  rw [value] at exhausted
  cases exhausted.1

end Equivalence

end MiniScheme
