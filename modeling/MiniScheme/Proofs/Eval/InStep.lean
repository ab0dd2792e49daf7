import MiniScheme.Proofs.Eval.Correspondence

/-!
# Evaluation keeps a correspondence

Every primitive, every form and every call does on both sides what the other does, once its parts
do: one lemma for each, put together by `InStep.bind`. So evaluating expressions that match goes in
step, however deep (`inStep_eval`), and so does calling procedures that correspond (`inStep_apply`).
-/
namespace MiniScheme.Correspondence

variable {c : Correspondence}

section Primitives

variable {args args' : List Value} {span span' : Span}

theorem MatchesOutcome.map {α β : Type} {P : α → α → Prop} {Q : β → β → Prop}
    {x x' : Except EvalError α} {f f' : α → β} (outcomes : c.MatchesOutcome P x x')
    (same : ∀ a a', P a a' → Q (f a) (f' a')) : c.MatchesOutcome Q (x.map f) (x'.map f') := by
  cases outcomes with
  | ok result => exact .ok (same _ _ result)
  | error errors => exact .error errors

theorem numbersFrom_matches (p : Primitive) (position : Nat)
    (values : List.Forall₂ c.Matches args args') (spans : c.span span span') :
    c.MatchesOutcome Eq (p.numbersFrom span position args)
      (p.numbersFrom span' position args') := by
  induction values generalizing position with
  | nil => exact .ok rfl
  | @cons v v' rest rest' first others ih =>
    have refused : c.MatchesError (.argument (.notNumber p position v.typeName) span)
        (.argument (.notNumber p position v'.typeName) span') := by
      rw [first.typeName]
      exact .argument _ spans
    cases first with
    | atom a =>
      cases a with
      | number x => exact (ih (position + 1)).map fun xs xs' same => by rw [same]
      | _ => exact .error refused
    | _ => exact .error refused

theorem fold_matches (p : Primitive) (start : Float) (op : Float → Float → Float)
    (values : List.Forall₂ c.Matches args args') (spans : c.span span span') :
    c.MatchesOutcome c.Matches (p.fold start op args span) (p.fold start op args' span') :=
  (numbersFrom_matches p 1 values spans).map fun xs xs' same => by
    rw [same]
    exact .atom _ spans

theorem compare_matches (p : Primitive) (r : Float → Float → Bool)
    (values : List.Forall₂ c.Matches args args') (spans : c.span span span') :
    c.MatchesOutcome c.Matches (p.compare r args span) (p.compare r args' span') :=
  (numbersFrom_matches p 1 values spans).map fun xs xs' same => by
    rw [same]
    exact .atom _ spans

theorem wrongCount_matches (asked : Arity) (values : List.Forall₂ c.Matches args args')
    (spans : c.span span span') :
    c.MatchesError (Primitive.wrongCount asked args span)
      (Primitive.wrongCount asked args' span') := by
  rw [Primitive.wrongCount, values.length_eq]
  exact .arity _ _ spans

theorem difference_matches (values : List.Forall₂ c.Matches args args')
    (spans : c.span span span') :
    c.MatchesOutcome c.Matches (Primitive.difference args span)
      (Primitive.difference args' span') := by
  unfold Primitive.difference Primitive.numbers
  have numbers := numbersFrom_matches .subtract 1 values spans
  generalize Primitive.subtract.numbersFrom span 1 args = x at numbers ⊢
  generalize Primitive.subtract.numbersFrom span' 1 args' = y at numbers ⊢
  cases numbers with
  | error errors => exact .error errors
  | ok same =>
    subst same
    split
    · contradiction
    · exact .error (wrongCount_matches _ values spans)
    · exact .ok (.atom _ spans)
    · exact .ok (.atom _ spans)

theorem divideBy_matches (x : Float) (divisors : List Float) (spans : c.span span span') :
    c.MatchesOutcome c.Matches (Primitive.divideBy x divisors span)
      (Primitive.divideBy x divisors span') := by
  unfold Primitive.divideBy
  split
  · exact .error (.argument _ spans)
  · exact .ok (.atom _ spans)

theorem quotient_matches (values : List.Forall₂ c.Matches args args')
    (spans : c.span span span') :
    c.MatchesOutcome c.Matches (Primitive.quotient args span) (Primitive.quotient args' span') := by
  unfold Primitive.quotient Primitive.numbers
  have numbers := numbersFrom_matches .divide 1 values spans
  generalize Primitive.divide.numbersFrom span 1 args = x at numbers ⊢
  generalize Primitive.divide.numbersFrom span' 1 args' = y at numbers ⊢
  cases numbers with
  | error errors => exact .error errors
  | ok same =>
    subst same
    split
    · contradiction
    · exact .error (wrongCount_matches _ values spans)
    · exact divideBy_matches _ _ spans
    · exact divideBy_matches _ _ spans

theorem part_matches (p : Primitive) {select : Value → Value → Value}
    (selects : ∀ {a a' d d' : Value}, c.Matches a a' → c.Matches d d' →
      c.Matches (select a d) (select a' d'))
    (values : List.Forall₂ c.Matches args args') (spans : c.span span span') :
    c.MatchesOutcome c.Matches (p.part select args span) (p.part select args' span') := by
  have wrong := wrongCount_matches (.exactly 1) values spans
  cases values with
  | nil => exact .error wrong
  | @cons v v' rest rest' first others =>
    cases others with
    | cons => cases first <;> exact .error wrong
    | nil =>
      have refused : c.MatchesError (.argument (.notPair p v.typeName) v.span)
          (.argument (.notPair p v'.typeName) v'.span) := by
        rw [first.typeName]
        exact .argument _ first.span
      cases first with
      | pair mark _ car cdr => exact .ok (selects car cdr)
      | _ => exact .error refused

theorem test_matches {holds : Value → Bool}
    (same : ∀ {v v' : Value}, c.Matches v v' → holds v = holds v')
    (values : List.Forall₂ c.Matches args args') (spans : c.span span span') :
    c.MatchesOutcome c.Matches (Primitive.test holds args span)
      (Primitive.test holds args' span') := by
  have wrong := wrongCount_matches (.exactly 1) values spans
  cases values with
  | nil => exact .error wrong
  | cons first others =>
    cases others with
    | cons => exact .error wrong
    | nil =>
      simp only [Primitive.test, same first]
      exact .ok (.atom _ spans)

theorem relate_matches {holds : Value → Value → Bool}
    (same : ∀ {v v' w w' : Value}, c.Matches v v' → c.Matches w w' → holds v w = holds v' w')
    (values : List.Forall₂ c.Matches args args') (spans : c.span span span') :
    c.MatchesOutcome c.Matches (Primitive.relate holds args span)
      (Primitive.relate holds args' span') := by
  have wrong := wrongCount_matches (.exactly 2) values spans
  cases values with
  | nil => exact .error wrong
  | cons first others =>
    cases others with
    | nil => exact .error wrong
    | cons second others =>
      cases others with
      | cons => exact .error wrong
      | nil =>
        simp only [Primitive.relate, same first second]
        exact .ok (.atom _ spans)

theorem inStep_call (p : Primitive) (values : List.Forall₂ c.Matches args args')
    (spans : c.span span span') :
    c.InStep c.Matches (p.call args span) (p.call args' span') := by
  cases p with
  | add | multiply => exact inStep_ofExcept (fold_matches _ _ _ values spans)
  | equals | less | lessOrEqual | greater | greaterOrEqual =>
    exact inStep_ofExcept (compare_matches _ _ values spans)
  | subtract => exact inStep_ofExcept (difference_matches values spans)
  | divide => exact inStep_ofExcept (quotient_matches values spans)
  | car => exact inStep_ofExcept (part_matches _ (fun first _ => first) values spans)
  | cdr => exact inStep_ofExcept (part_matches _ (fun _ second => second) values spans)
  | cons =>
    have wrong := wrongCount_matches (.exactly 2) values spans
    cases values with
    | nil => exact inStep_fail wrong
    | cons first others =>
      cases others with
      | nil => exact inStep_fail wrong
      | cons second others =>
        cases others with
        | cons => exact inStep_fail wrong
        | nil => exact inStep_make fun s t stores => stores.addPair spans first second
  | list =>
    refine inStep_make fun s t stores => ?_
    have made := stores.addList (.nil spans) values
    exact ⟨made.1.withSpan spans, made.2⟩
  | not =>
    refine inStep_ofExcept (test_matches (fun first => ?_) values spans)
    rw [first.isTrue]
  | isNull | isPair | isNumber | isBoolean | isSymbol | isString | isCharacter | isProcedure =>
    refine inStep_ofExcept (test_matches (fun first => ?_) values spans)
    cases first with
    | atom a => cases a <;> rfl
    | _ => rfl
  | isSame => exact inStep_ofExcept (relate_matches Matches.same values spans)
  | isEqual => exact inStep_ofExcept (relate_matches Matches.equal values spans)

end Primitives

section Names

variable {v v' form form' : Value}

theorem expectSymbol_matches (values : c.Matches v v') :
    c.MatchesOutcome Eq (Form.expectSymbol v) (Form.expectSymbol v') := by
  unfold Form.expectSymbol
  rw [values.symbol?]
  split
  · exact .ok rfl
  · exact .error (.notSymbol values)

theorem ensureDistinct_matches (names : List String) (forms : c.Matches form form') :
    c.MatchesOutcome (fun _ _ => names.Nodup) (Form.ensureDistinct names form)
      (Form.ensureDistinct names form') := by
  unfold Form.ensureDistinct
  split
  · exact .error (.malformed _ forms)
  · next distinct => exact .ok (Form.firstRepeated?_eq_none_iff.mp distinct).1

/-- A parameter list has the same names on both sides, and one at least if its last takes all
further arguments. -/
theorem formalNames_matches (values : c.Matches v v') :
    c.MatchesOutcome (fun a a' => a = a' ∧ (a.2 = true → a.1 ≠ [])) (Form.formalNames v)
      (Form.formalNames v') := by
  induction values with
  | nil => exact .ok ⟨rfl, fun variadic => nomatch variadic⟩
  | @pair s s' car cdr car' cdr' mark spans first second _ ih =>
    have symbols := expectSymbol_matches first
    unfold Form.formalNames
    generalize Form.expectSymbol car = x at symbols ⊢
    generalize Form.expectSymbol car' = y at symbols ⊢
    cases symbols with
    | error errors => exact .error errors
    | ok same =>
      subst same
      exact ih.map fun a a' same => ⟨by rw [same.1], fun _ => List.cons_ne_nil _ _⟩
  | atom a spans =>
    cases a with
    | symbol name => exact .ok ⟨rfl, fun _ => List.cons_ne_nil name []⟩
    | _ => exact .error (.notSymbol (.atom _ spans))
  | unspecified spans => exact .error (.notSymbol (.unspecified spans))
  | primitive p spans => exact .error (.notSymbol (.primitive p spans))
  | closure name spans ids => exact .error (.notSymbol (.closure name spans ids))

/-- The names and the flag that a parameter list gives are those of a closure that is formed. -/
theorem formals_matches (values : c.Matches v v') (forms : c.Matches form form') :
    c.MatchesOutcome (fun a a' => a = a' ∧ a.1.Nodup ∧ (a.2 = true → a.1 ≠ []))
      (Form.formals v form) (Form.formals v' form') := by
  have names := formalNames_matches values
  unfold Form.formals
  generalize Form.formalNames v = x at names ⊢
  generalize Form.formalNames v' = y at names ⊢
  cases names with
  | error errors => exact .error errors
  | ok same =>
    obtain ⟨rfl, some⟩ := same
    exact (ensureDistinct_matches _ forms).map fun _ _ distinct => ⟨rfl, distinct, some⟩

end Names

section Forms

/-! Each form over two evaluators for its parts that go in step. -/

variable {ev ev' : Evaluator} {form form' : Value} {es es' : List Value}

theorem inStep_makeClosure {names : List String} {variadic : Bool} (f : FrameId)
    (name : Option String) (bodies : List.Forall₂ c.Matches es es') (forms : c.Matches form form')
    (formed : Closure.Formed ⟨names, variadic, es, f⟩) :
    c.InStep c.Matches (Form.makeClosure ⟨names, variadic, es, f⟩ name form.span)
      (Form.makeClosure ⟨names, variadic, es', f⟩ name form'.span) := by
  have made : c.InStep c.closure (Machine.make fun s => s.addClosure ⟨names, variadic, es, f⟩)
      (Machine.make fun s => s.addClosure ⟨names, variadic, es', f⟩) :=
    inStep_make fun s t stores => stores.addClosure ⟨rfl, rfl, bodies, rfl, c.fits_of_formed formed⟩
  exact made.bind fun id id' ids => inStep_pure (.closure name forms.span ids)

theorem inStep_evalLambda (f : FrameId) (forms : c.Matches form form')
    (operands : List.Forall₂ c.Matches es es') :
    c.InStep c.Matches (Form.evalLambda f form es) (Form.evalLambda f form' es') := by
  cases operands with
  | nil => exact inStep_fail (.malformed _ forms)
  | @cons params params' body body' first bodies =>
    simp only [Form.evalLambda]
    have empty : body.isEmpty = body'.isEmpty := by cases bodies <;> rfl
    refine inStep_unless empty (.malformed _ forms) fun nonempty => ?_
    refine (inStep_ofExcept (formals_matches first forms)).bind ?_
    rintro ⟨names, variadic⟩ - ⟨rfl, distinct, rest⟩
    exact inStep_makeClosure f none bodies forms ⟨distinct, rest, by simpa using nonempty⟩

variable (parts : ∀ f e e', c.Matches e e' → c.InStep c.Matches (ev f e) (ev' f e'))
include parts

theorem inStep_evalSequence {span span' : Span} (f : FrameId) (spans : c.span span span')
    (operands : List.Forall₂ c.Matches es es') :
    c.InStep c.Matches (Form.evalSequence ev f span es) (Form.evalSequence ev' f span' es') := by
  induction operands with
  | nil => exact inStep_pure (.unspecified spans)
  | cons first others ih =>
    cases others with
    | nil => exact parts f _ _ first
    | cons => exact (parts f _ _ first).bind fun _ _ _ => ih

theorem inStep_evalEach (f : FrameId) (operands : List.Forall₂ c.Matches es es') :
    c.InStep (List.Forall₂ c.Matches) (Form.evalEach ev f es) (Form.evalEach ev' f es') := by
  induction operands with
  | nil => exact inStep_pure .nil
  | cons first others ih =>
    refine (parts f _ _ first).bind fun v v' value => ?_
    refine ih.bind fun vs vs' values => ?_
    exact inStep_pure (.cons value values)

theorem inStep_evalAssign (f : FrameId) (forms : c.Matches form form')
    (operands : List.Forall₂ c.Matches es es') :
    c.InStep c.Matches (Form.evalAssign ev f form es) (Form.evalAssign ev' f form' es') := by
  have refused : c.InStep c.Matches (Machine.fail (.malformed .assignmentOperands form))
      (Machine.fail (.malformed .assignmentOperands form')) := inStep_fail (.malformed _ forms)
  cases operands with
  | nil => exact refused
  | cons first others =>
    cases others with
    | nil => exact refused
    | cons second others =>
      cases others with
      | cons => exact refused
      | nil =>
        refine (inStep_ofExcept (expectSymbol_matches first)).bind ?_
        rintro name - rfl
        refine (parts f _ _ second).bind fun v v' value => ?_
        refine (inStep_assign f name value forms.span).bind fun _ _ _ => ?_
        exact inStep_pure (.unspecified forms.span)

omit parts in
/-- Both ways to define end by binding the value in the frame. -/
theorem inStep_defined {m m' : Machine Value} (f : FrameId) (name : String)
    (forms : c.Matches form form') (made : c.InStep c.Matches m m') :
    c.InStep c.Matches
      (do
        let v ← m
        Machine.define f name v
        pure (Value.unspecified form.span))
      (do
        let v ← m'
        Machine.define f name v
        pure (Value.unspecified form'.span)) := by
  refine made.bind fun v v' value => ?_
  refine (inStep_define f name value).bind fun _ _ _ => ?_
  exact inStep_pure (.unspecified forms.span)

theorem inStep_evalDefine (f : FrameId) (forms : c.Matches form form')
    (operands : List.Forall₂ c.Matches es es') :
    c.InStep c.Matches (Form.evalDefine ev f form es) (Form.evalDefine ev' f form' es') := by
  cases operands with
  | nil => exact inStep_fail (.malformed _ forms)
  | @cons target target' body body' first bodies =>
    cases first with
    | atom a spans =>
      cases a with
      | symbol name =>
        cases bodies with
        | nil => exact inStep_fail (.malformed _ forms)
        | cons expression others =>
          cases others with
          | nil => exact inStep_defined f name forms (parts f _ _ expression)
          | cons => exact inStep_fail (.malformed _ forms)
      | _ => exact inStep_fail (.notSymbol (.atom _ spans))
    | pair mark spans target params =>
      simp only [Form.evalDefine]
      have empty : body.isEmpty = body'.isEmpty := by cases bodies <;> rfl
      refine inStep_unless empty (.malformed _ forms) fun nonempty => ?_
      refine (inStep_ofExcept (expectSymbol_matches target)).bind ?_
      rintro name - rfl
      refine (inStep_ofExcept (formals_matches params forms)).bind ?_
      rintro ⟨names, variadic⟩ - ⟨rfl, distinct, rest⟩
      exact inStep_defined f name forms
        (inStep_makeClosure f (some name) bodies forms ⟨distinct, rest, by simpa using nonempty⟩)
    | nil spans => exact inStep_fail (.notSymbol (.nil spans))
    | unspecified spans => exact inStep_fail (.notSymbol (.unspecified spans))
    | primitive p spans => exact inStep_fail (.notSymbol (.primitive p spans))
    | closure name spans ids => exact inStep_fail (.notSymbol (.closure name spans ids))

theorem inStep_evalConditional (f : FrameId) (forms : c.Matches form form')
    (operands : List.Forall₂ c.Matches es es') :
    c.InStep c.Matches (Form.evalConditional ev f form es)
      (Form.evalConditional ev' f form' es') := by
  have refused : c.InStep c.Matches (Machine.fail (.malformed .conditionalOperands form))
      (Machine.fail (.malformed .conditionalOperands form')) := inStep_fail (.malformed _ forms)
  cases operands with
  | nil => exact refused
  | cons condition others =>
    cases others with
    | nil => exact refused
    | cons consequent others =>
      cases others with
      | nil =>
        refine (parts f _ _ condition).bind fun v v' value => ?_
        rw [value.isTrue]
        split
        · exact parts f _ _ consequent
        · exact inStep_pure (.unspecified forms.span)
      | cons alternate others =>
        cases others with
        | cons => exact refused
        | nil =>
          refine (parts f _ _ condition).bind fun v v' value => ?_
          rw [value.isTrue]
          split
          · exact parts f _ _ consequent
          · exact parts f _ _ alternate

theorem inStep_evalCond (f : FrameId) (forms : c.Matches form form')
    (operands : List.Forall₂ c.Matches es es') :
    c.InStep c.Matches (Form.evalCond ev f form es) (Form.evalCond ev' f form' es') := by
  induction operands with
  | nil => exact inStep_pure (.unspecified forms.span)
  | @cons clause clause' clauses clauses' first _ ih =>
    have items := first.toList?
    unfold Form.evalCond
    generalize clause.toList? = x at items ⊢
    generalize clause'.toList? = y at items ⊢
    cases items with
    | none => exact inStep_fail (.malformed _ forms)
    | some items =>
      cases items with
      | nil => exact inStep_fail (.malformed _ forms)
      | @cons test test' body body' test bodies =>
        have sequence := inStep_evalSequence parts f forms.span bodies
        have empty : body.isEmpty = body'.isEmpty := by cases bodies <;> rfl
        simp only [test.symbol?, empty]
        split
        · split
          · exact inStep_fail (.malformed _ forms)
          · exact sequence
        · refine (parts f _ _ test).bind fun v v' value => ?_
          rw [value.isTrue]
          split
          · split
            · exact inStep_pure value
            · exact sequence
          · exact ih

theorem inStep_evalBindings (f : FrameId) (forms : c.Matches form form')
    (operands : List.Forall₂ c.Matches es es') :
    c.InStep (fun bound bound' => bound.1 = bound'.1 ∧ List.Forall₂ c.Matches bound.2 bound'.2)
      (Form.evalBindings ev f form es) (Form.evalBindings ev' f form' es') := by
  induction operands with
  | nil => exact inStep_pure ⟨rfl, .nil⟩
  | @cons b b' bs bs' first _ ih =>
    have items := first.toList?
    unfold Form.evalBindings
    generalize b.toList? = x at items ⊢
    generalize b'.toList? = y at items ⊢
    cases items with
    | none => exact inStep_fail (.malformed _ forms)
    | some items =>
      cases items with
      | nil => exact inStep_fail (.malformed _ forms)
      | cons target items =>
        cases items with
        | nil => exact inStep_fail (.malformed _ forms)
        | cons expression items =>
          cases items with
          | cons => exact inStep_fail (.malformed _ forms)
          | nil =>
            refine (inStep_ofExcept (expectSymbol_matches target)).bind ?_
            rintro name - rfl
            refine (parts f _ _ expression).bind fun v v' value => ?_
            refine ih.bind ?_
            rintro ⟨names, vs⟩ ⟨-, vs'⟩ ⟨rfl, values⟩
            exact inStep_pure ⟨rfl, .cons value values⟩

theorem inStep_evalLet (f : FrameId) (forms : c.Matches form form')
    (operands : List.Forall₂ c.Matches es es') :
    c.InStep c.Matches (Form.evalLet ev f form es) (Form.evalLet ev' f form' es') := by
  cases operands with
  | nil => exact inStep_fail (.malformed _ forms)
  | @cons bindings bindings' body body' first bodies =>
    simp only [Form.evalLet]
    have empty : body.isEmpty = body'.isEmpty := by cases bodies <;> rfl
    refine inStep_unless empty (.malformed _ forms) fun _ => ?_
    have items := first.toList?
    generalize bindings.toList? = x at items ⊢
    generalize bindings'.toList? = y at items ⊢
    cases items with
    | none => exact inStep_fail (.malformed _ forms)
    | some items =>
      refine (inStep_evalBindings parts f forms items).bind ?_
      rintro ⟨names, vs⟩ ⟨-, vs'⟩ ⟨rfl, values⟩
      refine (inStep_ofExcept (ensureDistinct_matches names forms)).bind fun _ _ _ => ?_
      refine (inStep_extend f names false values forms.span).bind ?_
      rintro inner - rfl
      exact inStep_evalSequence parts inner forms.span bodies

theorem inStep_evalForm (k : Keyword) (f : FrameId) (forms : c.Matches form form')
    (operands : List.Forall₂ c.Matches es es') :
    c.InStep c.Matches (Form.eval ev k f form es) (Form.eval ev' k f form' es') := by
  cases k with
  | quote =>
    cases operands with
    | nil => exact inStep_fail (.malformed _ forms)
    | cons quoted others =>
      cases others with
      | nil => exact inStep_pure quoted
      | cons => exact inStep_fail (.malformed _ forms)
  | assign => exact inStep_evalAssign parts f forms operands
  | define => exact inStep_evalDefine parts f forms operands
  | conditional => exact inStep_evalConditional parts f forms operands
  | cond => exact inStep_evalCond parts f forms operands
  | sequence => exact inStep_evalSequence parts f forms.span operands
  | lambda => exact inStep_evalLambda f forms operands
  | binding => exact inStep_evalLet parts f forms operands

/-- Procedures that correspond are called alike, on values that match. -/
theorem inStep_applyBy {p p' : Procedure} {origin origin' span span' : Span}
    {args args' : List Value}
    (callable : c.Matches (.procedure origin p) (.procedure origin' p'))
    (values : List.Forall₂ c.Matches args args') (spans : c.span span span') :
    c.InStep c.Matches (applyBy ev p args span) (applyBy ev' p' args' span') := by
  cases callable with
  | primitive p =>
    simp only [applyBy, values.length_eq]
    split
    · exact inStep_call p values spans
    · exact inStep_fail (.arity _ _ spans)
  | @closure _ _ id id' name _ ids =>
    intro s t stores
    have fetched := stores.closures ids
    rw [applyBy_closure, applyBy_closure]
    generalize s.closures[id]? = x at fetched ⊢
    generalize t.closures[id']? = y at fetched ⊢
    cases fetched with
    | none => exact inStep_fail (.notProcedure (.closure name spans ids) spans) stores
    | @some k k' fetched =>
      dsimp only
      rw [fetched.frame, fetched.formals, fetched.variadic]
      refine (inStep_extend k'.frame k'.formals k'.variadic values spans).bind ?_ stores
      rintro inner - rfl
      exact inStep_evalSequence parts inner spans fetched.body

theorem inStep_evalApplication {operator operator' operands operands' : Value} (f : FrameId)
    (forms : c.Matches form form') (operators : c.Matches operator operator')
    (rest : c.Matches operands operands') :
    c.InStep c.Matches (evalApplication ev f form operator operands)
      (evalApplication ev' f form' operator' operands') := by
  have items := rest.toList?
  refine (parts f _ _ operators).bind fun v v' value => ?_
  have called {p p' : Procedure} {s s' : Span} {es es' : List Value}
      (callable : c.Matches (.procedure s p) (.procedure s' p'))
      (items : List.Forall₂ c.Matches es es') :
      c.InStep c.Matches (Form.evalEach ev f es >>= fun args => applyBy ev p args form.span)
        (Form.evalEach ev' f es' >>= fun args => applyBy ev' p' args form'.span) :=
    (inStep_evalEach parts f items).bind fun _ _ values =>
      inStep_applyBy parts callable values forms.span
  generalize operands.toList? = x at items ⊢
  generalize operands'.toList? = y at items ⊢
  cases value with
  | primitive p spans =>
    cases items with
    | none => exact inStep_fail (.malformed _ forms)
    | some items => exact called (.primitive p spans) items
  | closure name spans ids =>
    cases items with
    | none => exact inStep_fail (.malformed _ forms)
    | some items => exact called (.closure name spans ids) items
  | atom a spans => exact inStep_fail (.notProcedure (.atom a spans) operators.span)
  | nil spans => exact inStep_fail (.notProcedure (.nil spans) operators.span)
  | pair mark spans first second =>
    exact inStep_fail (.notProcedure (.pair mark spans first second) operators.span)
  | unspecified spans => exact inStep_fail (.notProcedure (.unspecified spans) operators.span)

/-- One step: expressions that match are taken apart alike. -/
theorem inStep_evalStep (f : FrameId) {e e' : Value} (values : c.Matches e e') :
    c.InStep c.Matches (evalStep ev f e) (evalStep ev' f e') := by
  cases values with
  | atom a spans =>
    cases a with
    | symbol name => exact inStep_lookup f name spans
    | boolean | number | character | string => exact inStep_pure (.atom _ spans)
  | nil spans => exact inStep_fail (.emptyApplication spans)
  | unspecified spans => exact inStep_fail (.notCode (.unspecified spans))
  | primitive p spans => exact inStep_fail (.notCode (.primitive p spans))
  | closure name spans ids => exact inStep_fail (.notCode (.closure name spans ids))
  | @pair s s' operator operands operator' operands' mark spans first second =>
    have forms := Matches.pair mark spans first second
    simp only [evalStep, first.symbol?]
    cases operator'.symbol?.bind Keyword.ofName? with
    | none => exact inStep_evalApplication parts f forms first second
    | some k =>
      have items := second.toList?
      generalize operands.toList? = x at items ⊢
      generalize operands'.toList? = y at items ⊢
      cases items with
      | none => exact inStep_fail (.malformed _ forms)
      | some items => exact inStep_evalForm parts k f forms items

end Forms

/-- Expressions that match are evaluated in step, however deep. -/
theorem inStep_eval (fuel : Nat) (f : FrameId) (e e' : Value) (values : c.Matches e e') :
    c.InStep c.Matches (eval fuel f e) (eval fuel f e') := by
  induction fuel generalizing f e e' with
  | zero => exact fun _ _ stores => .exhausted stores
  | succ fuel ih => exact inStep_evalStep ih f values

theorem inStep_apply (fuel : Nat) {p p' : Procedure} {origin origin' span span' : Span}
    {args args' : List Value} (callable : c.Matches (.procedure origin p) (.procedure origin' p'))
    (values : List.Forall₂ c.Matches args args') (spans : c.span span span') :
    c.InStep c.Matches (apply fuel p args span) (apply fuel p' args' span') :=
  inStep_applyBy (inStep_eval fuel) callable values spans

end MiniScheme.Correspondence
