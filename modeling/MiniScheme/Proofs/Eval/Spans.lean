import Mathlib
import MiniScheme.Proofs.Eval.Discipline
import MiniScheme.Proofs.Eval.Erasure

/-!
# Spans have no influence on evaluation

Evaluation hands spans on, merges them and points errors at them, but never looks at one. So to
forget all spans and evaluate is the same as to evaluate and forget all spans (`eval_erase`), and
two evaluations that differ in spans only stay that way to their end.

One lemma for each form, primitive and operation says that it commutes with forgetting; they are
put together by `Mirrors.bind`.
-/
namespace MiniScheme

/-- The same outcome with the spans forgotten in the error, and by `er` in what is returned. -/
def EvalError.eraseIn {α : Type} (er : α → α) : Except EvalError α → Except EvalError α
  | .ok a => .ok (er a)
  | .error e => .error e.erase

theorem EvalError.eraseIn_map {α β : Type} {er : α → α} {er' : β → β} {g g' : α → β}
    (same : ∀ a, g' (er a) = er' (g a)) (x : Except EvalError α) :
    (eraseIn er x).map g' = eraseIn er' (x.map g) := by
  cases x with
  | ok a => exact congrArg Except.ok (same a)
  | error e => rfl

namespace Machine

variable {α β : Type} {er : α → α} {er' : β → β}

def eraseResult (er : α → α) : EStateM.Result Stop Store α → EStateM.Result Stop Store α
  | .ok a s => .ok (er a) s.erase
  | .error why s => .error why.erase s.erase

/-- On a store without spans `m'` does what `m` does on the store with them, spans aside. -/
def Mirrors (er : α → α) (m m' : Machine α) : Prop :=
  ∀ s : Store, m' s.erase = eraseResult er (m s)

theorem mirrors_pure {a a' : α} (same : er a = a') : Mirrors er (pure a) (pure a') := by
  subst same
  exact fun _ => rfl

theorem mirrors_fail {e e' : EvalError} (same : e.erase = e') :
    Mirrors er (fail e : Machine α) (fail e') := by
  subst same
  exact fun _ => rfl

theorem Mirrors.bind {m m' : Machine α} {next next' : α → Machine β} (first : Mirrors er m m')
    (rest : ∀ a, Mirrors er' (next a) (next' (er a))) :
    Mirrors er' (m >>= next) (m' >>= next') := by
  intro s
  change EStateM.bind m' next' s.erase = eraseResult er' (EStateM.bind m next s)
  unfold EStateM.bind
  rw [first s]
  cases m s with
  | ok a s' => exact rest a s'
  | error why s' => rfl

theorem mirrors_ofExcept {x x' : Except EvalError α} (same : x' = EvalError.eraseIn er x) :
    Mirrors er (ofExcept x) (ofExcept x') := by
  subst same
  cases x with
  | ok a => exact mirrors_pure rfl
  | error e => exact mirrors_fail rfl

theorem mirrors_make {f f' : Store → α × Store}
    (same : ∀ s : Store, f' s.erase = (er (f s).1, (f s).2.erase)) :
    Mirrors er (make f) (make f') := by
  intro s
  change (match f' s.erase with | (a, s') => EStateM.Result.ok a s') = _
  rw [same]
  rfl

/-- A check that fails first or else lets the rest go on. -/
theorem mirrors_unless {refused refused' : Bool} {e e' : EvalError} {rest rest' : Unit → Machine α}
    (both : refused' = refused) (same : e.erase = e') (mirrors : Mirrors er (rest ()) (rest' ())) :
    Mirrors er (if refused then fail e >>= rest else rest ())
      (if refused' then fail e' >>= rest' else rest' ()) := by
  subst both
  cases refused' with
  | true => exact (mirrors_fail same).bind fun _ => mirrors
  | false => exact mirrors

/-- What is read of the store is read of the store without spans. -/
theorem mirrors_get {next next' : Store → Machine α}
    (rest : ∀ s : Store, Mirrors er (next s) (next' s.erase)) :
    Mirrors er (get >>= next) (get >>= next') :=
  fun s => rest s s

theorem mirrors_lookup (f : FrameId) (name : String) (span : Span) :
    Mirrors Sexpr.erase (lookup f name span) (lookup f name default) := by
  intro s
  rw [lookup_eq, lookup_eq, Store.get?_erase]
  cases s.get? f name <;> rfl

theorem mirrors_assign (f : FrameId) (name : String) (v : Value) (span : Span) :
    Mirrors id (assign f name v span) (assign f name v.erase default) := by
  intro s
  unfold assign Store.set?
  rw [Store.find?_erase]
  cases s.find? f name with
  | none => rfl
  | some found => exact congrArg (EStateM.Result.ok ()) (s.erase_define found.1 name v).symm

theorem mirrors_define (f : FrameId) (name : String) (v : Value) :
    Mirrors id (define f name v) (define f name v.erase) :=
  fun s => congrArg (EStateM.Result.ok ()) (s.erase_define f name v).symm

theorem mirrors_extend (parent : FrameId) (formals : List String) (variadic : Bool)
    (arguments : List Value) (span : Span) :
    Mirrors id (extend parent formals variadic arguments span)
      (extend parent formals variadic (arguments.map Sexpr.erase) default) := by
  unfold extend
  dsimp only
  rw [List.length_map]
  split
  · exact mirrors_make fun s => s.bindFormals_erase parent formals variadic arguments span
  · exact mirrors_fail rfl

end Machine

open Machine (Mirrors mirrors_pure mirrors_fail mirrors_ofExcept mirrors_make mirrors_unless)

namespace Primitive

variable (p : Primitive) (args : List Value) (span : Span)

theorem numbersFrom_erase (position : Nat) :
    numbersFrom p default position (args.map Sexpr.erase) =
      EvalError.eraseIn id (numbersFrom p span position args) := by
  induction args generalizing position with
  | nil => rfl
  | cons v rest ih =>
    cases v with
    | atom _ a =>
      cases a with
      | number x =>
        change (numbersFrom p default (position + 1) (rest.map Sexpr.erase)).map _ = _
        rw [ih]
        exact EvalError.eraseIn_map (by intro _; rfl) _
      | _ => rfl
    | _ => rfl

theorem fold_erase (start : Float) (op : Float → Float → Float) :
    fold p start op (args.map Sexpr.erase) default =
      EvalError.eraseIn Sexpr.erase (fold p start op args span) := by
  unfold fold numbers
  rw [numbersFrom_erase p args span]
  exact EvalError.eraseIn_map (by intro _; rfl) _

theorem compare_erase (r : Float → Float → Bool) :
    compare p r (args.map Sexpr.erase) default =
      EvalError.eraseIn Sexpr.erase (compare p r args span) := by
  unfold compare numbers
  rw [numbersFrom_erase p args span]
  exact EvalError.eraseIn_map (by intro _; rfl) _

theorem wrongCount_erase (asked : Arity) :
    wrongCount asked (args.map Sexpr.erase) default = (wrongCount asked args span).erase := by
  unfold wrongCount
  rw [List.length_map]
  rfl

theorem difference_erase :
    difference (args.map Sexpr.erase) default =
      EvalError.eraseIn Sexpr.erase (difference args span) := by
  unfold difference numbers
  rw [numbersFrom_erase _ args span, wrongCount_erase args span]
  cases numbersFrom .subtract span 1 args with
  | error e => rfl
  | ok xs =>
    match xs with
    | [] => rfl
    | [x] => rfl
    | x :: y :: xs => rfl

theorem divideBy_erase (x : Float) (divisors : List Float) :
    divideBy x divisors default = EvalError.eraseIn Sexpr.erase (divideBy x divisors span) := by
  unfold divideBy
  split <;> rfl

theorem quotient_erase :
    quotient (args.map Sexpr.erase) default =
      EvalError.eraseIn Sexpr.erase (quotient args span) := by
  unfold quotient numbers
  rw [numbersFrom_erase _ args span, wrongCount_erase args span]
  cases numbersFrom .divide span 1 args with
  | error e => rfl
  | ok xs =>
    match xs with
    | [] => rfl
    | [x] => exact divideBy_erase span 1.0 [x]
    | x :: y :: xs => exact divideBy_erase span x (y :: xs)

/-- The error points at the argument, not at the call, but either place is forgotten. -/
theorem part_erase {select : Value → Value → Value}
    (selects : ∀ a b : Value, select a.erase b.erase = (select a b).erase) :
    part p select (args.map Sexpr.erase) default =
      EvalError.eraseIn Sexpr.erase (part p select args span) := by
  match args with
  | [] => rfl
  | [.pair _ _ a b] => exact congrArg Except.ok (selects a b)
  | [.atom _ a] => rfl
  | [.nil _] => rfl
  | [.leaf _ r] => rfl
  | v :: w :: vs =>
    cases v <;> exact congrArg Except.error (wrongCount_erase (_ :: w :: vs) span _)

theorem test_erase {holds : Value → Bool} (same : ∀ v : Value, holds v.erase = holds v) :
    test holds (args.map Sexpr.erase) default =
      EvalError.eraseIn Sexpr.erase (test holds args span) := by
  match args with
  | [] => rfl
  | [v] => exact congrArg (fun b => Except.ok (Value.boolean default b)) (same v)
  | v :: w :: vs => exact congrArg Except.error (wrongCount_erase (v :: w :: vs) span _)

theorem relate_erase {holds : Value → Value → Bool}
    (same : ∀ v w : Value, holds v.erase w.erase = holds v w) :
    relate holds (args.map Sexpr.erase) default =
      EvalError.eraseIn Sexpr.erase (relate holds args span) := by
  match args with
  | [] => rfl
  | [v] => rfl
  | [v, w] => exact congrArg (fun b => Except.ok (Value.boolean default b)) (same v w)
  | u :: v :: w :: vs =>
    exact congrArg Except.error (wrongCount_erase (u :: v :: w :: vs) span _)

theorem mirrors_call :
    Mirrors Sexpr.erase (p.call args span) (p.call (args.map Sexpr.erase) default) := by
  cases p with
  | add | multiply => exact mirrors_ofExcept (fold_erase _ args span _ _)
  | subtract => exact mirrors_ofExcept (difference_erase args span)
  | divide => exact mirrors_ofExcept (quotient_erase args span)
  | equals | less | lessOrEqual | greater | greaterOrEqual =>
    exact mirrors_ofExcept (compare_erase _ args span _)
  | cons =>
    match args with
    | [] => exact mirrors_fail rfl
    | [v] => exact mirrors_fail rfl
    | [a, d] => exact mirrors_make fun s => rfl
    | u :: v :: w :: vs => exact mirrors_fail (wrongCount_erase (u :: v :: w :: vs) span _).symm
  | car | cdr => exact mirrors_ofExcept (part_erase _ args span fun _ _ => rfl)
  | list =>
    refine mirrors_make fun s => ?_
    have made : s.erase.addList (.nil default) (args.map Sexpr.erase) = _ :=
      s.addList_erase (.nil span) args
    dsimp only
    rw [made]
    simp
  | isNull | isPair | isNumber | isBoolean | isSymbol | isString | isCharacter | isProcedure =>
    refine mirrors_ofExcept (test_erase args span fun v => ?_)
    cases v with
    | atom _ a => cases a <;> rfl
    | leaf _ r => cases r <;> rfl
    | _ => rfl
  | not => exact mirrors_ofExcept (test_erase args span fun v => congrArg _ v.isTrue_erase)
  | isSame => exact mirrors_ofExcept (relate_erase args span Value.same_erase)
  | isEqual => exact mirrors_ofExcept (relate_erase args span Value.equal_erase)

end Primitive

namespace Form

theorem ensureDistinct_erase (names : List String) (form : Value) :
    ensureDistinct names form.erase = EvalError.eraseIn id (ensureDistinct names form) := by
  unfold ensureDistinct
  cases firstRepeated? [] names <;> rfl

theorem expectSymbol_erase (v : Value) :
    expectSymbol v.erase = EvalError.eraseIn id (expectSymbol v) := by
  unfold expectSymbol
  rw [v.symbol?_erase]
  cases v.symbol? <;> rfl

theorem formalNames_erase (v : Value) :
    formalNames v.erase = EvalError.eraseIn id (formalNames v) := by
  induction v with
  | atom _ a => cases a <;> rfl
  | nil => rfl
  | leaf => rfl
  | pair _ _ car cdr _ ih =>
    simp only [Sexpr.erase, formalNames]
    rw [expectSymbol_erase, ih]
    cases expectSymbol car with
    | error e => rfl
    | ok n => exact EvalError.eraseIn_map (by intro _; rfl) _

theorem formals_erase (v form : Value) :
    formals v.erase form.erase = EvalError.eraseIn id (formals v form) := by
  unfold formals
  rw [formalNames_erase]
  cases formalNames v with
  | error e => rfl
  | ok result =>
    dsimp only [EvalError.eraseIn]
    rw [ensureDistinct_erase]
    exact EvalError.eraseIn_map (by intro _; rfl) _

section Parts

variable {ev ev' : Evaluator} (parts : ∀ f e, Mirrors Sexpr.erase (ev f e) (ev' f e.erase))
variable (f : FrameId) (form : Value)
include parts

theorem mirrors_evalSequence (span : Span) (es : List Value) :
    Mirrors Sexpr.erase (evalSequence ev f span es)
      (evalSequence ev' f default (es.map Sexpr.erase)) := by
  fun_induction evalSequence ev f span es with
  | case1 => exact mirrors_pure rfl
  | case2 e => exact parts f e
  | case3 e es nonempty ih =>
    obtain ⟨e', es', rfl⟩ := List.exists_cons_of_ne_nil nonempty
    exact (parts f e).bind fun _ => ih

theorem mirrors_evalEach (es : List Value) :
    Mirrors (List.map Sexpr.erase) (evalEach ev f es) (evalEach ev' f (es.map Sexpr.erase)) := by
  induction es with
  | nil => exact mirrors_pure rfl
  | cons e es ih =>
    refine (parts f e).bind fun v => ?_
    refine ih.bind fun vs => ?_
    exact mirrors_pure rfl

omit parts in
theorem mirrors_makeClosure (c : Closure) (name : Option String) (span : Span) :
    Mirrors Sexpr.erase (makeClosure c name span) (makeClosure c.erase name default) := by
  have added : Mirrors id (Machine.make fun s => s.addClosure c)
      (Machine.make fun s => s.addClosure c.erase) :=
    mirrors_make fun s => s.addClosure_erase c
  exact added.bind fun id => mirrors_pure rfl

omit parts in
theorem mirrors_unspecified :
    Mirrors Sexpr.erase (pure (Value.unspecified form.span))
      (pure (Value.unspecified form.erase.span)) :=
  mirrors_pure (by rw [form.span_erase]; rfl)

theorem mirrors_evalAssign (operands : List Value) :
    Mirrors Sexpr.erase (evalAssign ev f form operands)
      (evalAssign ev' f form.erase (operands.map Sexpr.erase)) := by
  match operands with
  | [] => exact mirrors_fail rfl
  | [_] => exact mirrors_fail rfl
  | [target, expression] =>
    refine (mirrors_ofExcept (expectSymbol_erase target)).bind fun name => ?_
    refine (parts f expression).bind fun v => ?_
    have assigned := Machine.mirrors_assign f name v form.span
    rw [← form.span_erase] at assigned
    exact assigned.bind fun _ => mirrors_unspecified form
  | _ :: _ :: _ :: _ => exact mirrors_fail rfl

theorem mirrors_evalDefine (operands : List Value) :
    Mirrors Sexpr.erase (evalDefine ev f form operands)
      (evalDefine ev' f form.erase (operands.map Sexpr.erase)) := by
  match operands with
  | [] => exact mirrors_fail rfl
  | .atom _ (.symbol name) :: [] => exact mirrors_fail rfl
  | .atom _ (.symbol name) :: [expression] =>
    refine (parts f expression).bind fun v => ?_
    exact (Machine.mirrors_define f name v).bind fun _ => mirrors_unspecified form
  | .atom _ (.symbol name) :: _ :: _ :: _ => exact mirrors_fail rfl
  | .pair _ _ target params :: body =>
    simp only [evalDefine, List.map_cons, Sexpr.erase]
    apply mirrors_unless List.isEmpty_map rfl
    refine (mirrors_ofExcept (expectSymbol_erase target)).bind fun name => ?_
    refine (mirrors_ofExcept (formals_erase params form)).bind fun signature => ?_
    have made := mirrors_makeClosure ⟨signature.1, signature.2, body, f⟩ (some name) form.span
    rw [← form.span_erase] at made
    refine made.bind fun v => ?_
    exact (Machine.mirrors_define f name v).bind fun _ => mirrors_unspecified form
  | .atom _ (.boolean _) :: _ => exact mirrors_fail rfl
  | .atom _ (.number _) :: _ => exact mirrors_fail rfl
  | .atom _ (.character _) :: _ => exact mirrors_fail rfl
  | .atom _ (.string _) :: _ => exact mirrors_fail rfl
  | .nil _ :: _ => exact mirrors_fail rfl
  | .leaf _ _ :: _ => exact mirrors_fail rfl

theorem mirrors_evalConditional (operands : List Value) :
    Mirrors Sexpr.erase (evalConditional ev f form operands)
      (evalConditional ev' f form.erase (operands.map Sexpr.erase)) := by
  match operands with
  | [] => exact mirrors_fail rfl
  | [_] => exact mirrors_fail rfl
  | [condition, consequent] =>
    refine (parts f condition).bind fun v => ?_
    rw [v.isTrue_erase]
    split
    · exact parts f consequent
    · exact mirrors_unspecified form
  | [condition, consequent, alternate] =>
    refine (parts f condition).bind fun v => ?_
    rw [v.isTrue_erase]
    split
    · exact parts f consequent
    · exact parts f alternate
  | _ :: _ :: _ :: _ :: _ => exact mirrors_fail rfl

theorem mirrors_evalCond (clauses : List Value) :
    Mirrors Sexpr.erase (evalCond ev f form clauses)
      (evalCond ev' f form.erase (clauses.map Sexpr.erase)) := by
  induction clauses with
  | nil => exact mirrors_unspecified form
  | cons clause clauses ih =>
    rw [List.map_cons, evalCond, evalCond, clause.toList?_erase]
    cases clause.toList? with
    | none => exact mirrors_fail rfl
    | some items =>
      cases items with
      | nil => exact mirrors_fail rfl
      | cons test body =>
        have sequence := mirrors_evalSequence parts f form.span body
        rw [← form.span_erase] at sequence
        simp only [Option.map_some, List.map_cons, Sexpr.symbol?_erase, List.isEmpty_map]
        split
        · split
          · exact mirrors_fail rfl
          · exact sequence
        · refine (parts f test).bind fun v => ?_
          rw [v.isTrue_erase]
          split
          · split
            · exact mirrors_pure rfl
            · exact sequence
          · exact ih

omit parts in
theorem mirrors_evalLambda (operands : List Value) :
    Mirrors Sexpr.erase (evalLambda f form operands)
      (evalLambda f form.erase (operands.map Sexpr.erase)) := by
  match operands with
  | [] => exact mirrors_fail rfl
  | params :: body =>
    simp only [evalLambda, List.map_cons]
    apply mirrors_unless List.isEmpty_map rfl
    refine (mirrors_ofExcept (formals_erase params form)).bind fun signature => ?_
    have made := mirrors_makeClosure ⟨signature.1, signature.2, body, f⟩ none form.span
    rwa [← form.span_erase] at made

theorem mirrors_evalBindings (bindings : List Value) :
    Mirrors (Prod.map id (List.map Sexpr.erase)) (evalBindings ev f form bindings)
      (evalBindings ev' f form.erase (bindings.map Sexpr.erase)) := by
  induction bindings with
  | nil => exact mirrors_pure rfl
  | cons b bs ih =>
    rw [List.map_cons, evalBindings, evalBindings, b.toList?_erase]
    match b.toList? with
    | none => exact mirrors_fail rfl
    | some [] => exact mirrors_fail rfl
    | some [_] => exact mirrors_fail rfl
    | some [target, expression] =>
      refine (mirrors_ofExcept (expectSymbol_erase target)).bind fun name => ?_
      refine (parts f expression).bind fun v => ?_
      refine ih.bind fun bound => ?_
      exact mirrors_pure rfl
    | some (_ :: _ :: _ :: _) => exact mirrors_fail rfl

theorem mirrors_evalLet (operands : List Value) :
    Mirrors Sexpr.erase (evalLet ev f form operands)
      (evalLet ev' f form.erase (operands.map Sexpr.erase)) := by
  match operands with
  | [] => exact mirrors_fail rfl
  | bindings :: body =>
    simp only [evalLet, List.map_cons]
    apply mirrors_unless List.isEmpty_map rfl
    rw [bindings.toList?_erase]
    cases bindings.toList? with
    | none => exact mirrors_fail rfl
    | some bs =>
      refine (mirrors_evalBindings parts f form bs).bind fun bound => ?_
      refine (mirrors_ofExcept (ensureDistinct_erase bound.1 form)).bind fun _ => ?_
      have entered := Machine.mirrors_extend f bound.1 false bound.2 form.span
      rw [← form.span_erase] at entered
      refine entered.bind fun inner => ?_
      have sequence := mirrors_evalSequence parts inner form.span body
      rwa [← form.span_erase] at sequence

theorem mirrors_eval (k : Keyword) (operands : List Value) :
    Mirrors Sexpr.erase (Form.eval ev k f form operands)
      (Form.eval ev' k f form.erase (operands.map Sexpr.erase)) := by
  cases k with
  | quote =>
    match operands with
    | [] => exact mirrors_fail rfl
    | [quoted] => exact mirrors_pure rfl
    | _ :: _ :: _ => exact mirrors_fail rfl
  | assign => exact mirrors_evalAssign parts f form operands
  | define => exact mirrors_evalDefine parts f form operands
  | conditional => exact mirrors_evalConditional parts f form operands
  | cond => exact mirrors_evalCond parts f form operands
  | sequence =>
    have sequence := mirrors_evalSequence parts f form.span operands
    rwa [← form.span_erase] at sequence
  | lambda => exact mirrors_evalLambda f form operands
  | binding => exact mirrors_evalLet parts f form operands

end Parts
end Form

section Parts

variable {ev ev' : Evaluator} (parts : ∀ f e, Mirrors Sexpr.erase (ev f e) (ev' f e.erase))
include parts

theorem mirrors_applyBy (p : Procedure) (args : List Value) (span : Span) :
    Mirrors Sexpr.erase (applyBy ev p args span)
      (applyBy ev' p (args.map Sexpr.erase) default) := by
  cases p with
  | primitive p =>
    simp only [applyBy, List.length_map]
    split
    · exact Primitive.mirrors_call p args span
    · exact mirrors_fail rfl
  | closure id name =>
    refine Machine.mirrors_get fun s => ?_
    rw [s.closures_erase]
    cases s.closures[id]? with
    | none => exact mirrors_fail rfl
    | some c =>
      refine (Machine.mirrors_extend c.frame c.formals c.variadic args span).bind fun inner => ?_
      exact Form.mirrors_evalSequence parts inner span c.body

theorem mirrors_evalApplication (f : FrameId) (form operator operands : Value) :
    Mirrors Sexpr.erase (evalApplication ev f form operator operands)
      (evalApplication ev' f form.erase operator.erase operands.erase) := by
  refine (parts f operator).bind fun v => ?_
  rw [operator.span_erase, operands.toList?_erase]
  match v with
  | .leaf _ (.procedure p) =>
    cases operands.toList? with
    | none => exact mirrors_fail rfl
    | some es =>
      refine (Form.mirrors_evalEach parts f es).bind fun args => ?_
      have called := mirrors_applyBy parts p args form.span
      rwa [← form.span_erase] at called
  | .leaf _ .unspecified => exact mirrors_fail rfl
  | .atom _ _ => exact mirrors_fail rfl
  | .nil _ => exact mirrors_fail rfl
  | .pair _ _ _ _ => exact mirrors_fail rfl

theorem mirrors_evalStep (f : FrameId) (e : Value) :
    Mirrors Sexpr.erase (evalStep ev f e) (evalStep ev' f e.erase) := by
  cases e with
  | atom span a =>
    cases a with
    | symbol name => exact Machine.mirrors_lookup f name span
    | boolean | number | character | string => exact mirrors_pure rfl
  | nil span => exact mirrors_fail rfl
  | leaf span r => exact mirrors_fail rfl
  | pair span mark operator operands =>
    simp only [Sexpr.erase, evalStep, Sexpr.symbol?_erase, Sexpr.toList?_erase]
    cases operator.symbol?.bind Keyword.ofName? with
    | none => exact mirrors_evalApplication parts f _ operator operands
    | some k =>
      cases operands.toList? with
      | none => exact mirrors_fail rfl
      | some es => exact Form.mirrors_eval parts f _ k es

end Parts

/-- Forgetting all spans commutes with evaluating, however deep. -/
theorem eval_erase (fuel : Nat) (f : FrameId) (e : Value) :
    Mirrors Sexpr.erase (eval fuel f e) (eval fuel f e.erase) := by
  induction fuel generalizing f e with
  | zero => exact fun _ => rfl
  | succ fuel ih => exact mirrors_evalStep ih f e

/-- Two outcomes that differ in spans at most. Errors are of one kind and say the same. -/
inductive SameButSpans : Except Stop Value → Except Stop Value → Prop where
  | value {v w : Value} (same : v.erase = w.erase) : SameButSpans (.ok v) (.ok w)
  | failed {e e' : EvalError} (same : e.erase = e'.erase) (message : e.message = e'.message) :
      SameButSpans (.error (.failed e)) (.error (.failed e'))
  | exhausted : SameButSpans (.error .exhausted) (.error .exhausted)

theorem EvalError.message_eq_of_erase_eq {e e' : EvalError} (same : e.erase = e'.erase) :
    e.message = e'.message := by
  rw [← message_erase e, same, message_erase]

theorem sameButSpans_of_eraseResult_eq {m m' : Machine Value} {s t : Store}
    (same : Machine.eraseResult Sexpr.erase (m s) = Machine.eraseResult Sexpr.erase (m' t)) :
    SameButSpans (m.outcome s) (m'.outcome t) ∧ (m.after s).erase = (m'.after t).erase := by
  unfold Machine.outcome Machine.after
  cases left : m s with
  | ok v s' =>
    cases right : m' t with
    | ok w t' =>
      rw [left, right] at same
      injection same with values stores
      exact ⟨.value values, stores⟩
    | error why t' =>
      rw [left, right] at same
      cases same
  | error why s' =>
    cases right : m' t with
    | ok w t' =>
      rw [left, right] at same
      cases same
    | error why' t' =>
      rw [left, right] at same
      injection same with reasons stores
      refine ⟨?_, stores⟩
      cases why with
      | exhausted =>
        cases why' with
        | exhausted => exact .exhausted
        | failed => cases reasons
      | failed e =>
        cases why' with
        | exhausted => cases reasons
        | failed e' =>
          injection reasons with errors
          exact .failed errors (EvalError.message_eq_of_erase_eq errors)

/-- Two expressions and two stores that are the same once all spans are forgotten: either both
evaluations end or none does, and with whatever depth allowed they give the same value or error and
leave the same store, spans aside. -/
theorem eval_ignores_spans (f : FrameId) (e e' : Value) (s t : Store)
    (sameCode : e.erase = e'.erase) (sameStore : s.erase = t.erase) :
    ((∃ fuel, (eval fuel f e).outcome s ≠ .error .exhausted) ↔
      ∃ fuel, (eval fuel f e').outcome t ≠ .error .exhausted) ∧
    ∀ fuel, SameButSpans ((eval fuel f e).outcome s) ((eval fuel f e').outcome t) ∧
      ((eval fuel f e).after s).erase = ((eval fuel f e').after t).erase := by
  have both (fuel : Nat) :
      SameButSpans ((eval fuel f e).outcome s) ((eval fuel f e').outcome t) ∧
        ((eval fuel f e).after s).erase = ((eval fuel f e').after t).erase := by
    apply sameButSpans_of_eraseResult_eq
    rw [← eval_erase fuel f e s, ← eval_erase fuel f e' t, sameCode, sameStore]
  refine ⟨exists_congr fun fuel => not_congr ?_, both⟩
  obtain ⟨same, -⟩ := both fuel
  constructor
  · intro ended
    rw [ended] at same
    generalize (eval fuel f e').outcome t = outcome at same
    cases same
    rfl
  · intro ended
    rw [ended] at same
    generalize (eval fuel f e).outcome s = outcome at same
    cases same
    rfl

/-- A closure that takes a part of a string, written and called at two places. The error points at
the argument, in the body, wherever that was read. -/
theorem eval_ignores_spans_of_moved_call :
    let call (place : Span) : Value := .pair place 2 (.atom place (.symbol "f")) (.nil place)
    let body (place : Span) : Value := .pair place 0 (.atom place (.symbol "car"))
      (.pair place 1 (.atom place (.string "x")) (.nil place))
    let store (place : Span) : Store :=
      ⟨#[⟨none, [("car", .procedure default (.primitive .car)),
        ("f", .procedure place (.closure 0 none))]⟩], #[⟨[], false, [body place], 0⟩], 3⟩
    let outcome (place : Span) := (eval 9 0 (call place)).outcome (store place)
    (∀ place, (call place).erase = (call ⟨0, 7⟩).erase ∧
      (store place).erase = (store ⟨0, 7⟩).erase) ∧
    (∀ place, SameButSpans (outcome place) (outcome ⟨0, 7⟩)) ∧
    ∀ place, outcome place = .error (.failed (.argument (.notPair .car "string") place)) := by
  intro call body store outcome
  have same (place : Span) : (store place).erase = (store ⟨0, 7⟩).erase := by
    simp [store, body, Store.erase, Frame.erase, Bindings.erase, Closure.erase, Sexpr.erase]
  refine ⟨fun place => ⟨rfl, same place⟩, fun place => ?_, fun place => ?_⟩
  · exact ((eval_ignores_spans 0 (call place) (call ⟨0, 7⟩) _ _ rfl (same place)).2 9).1
  · unfold outcome store body call
    cbv

end MiniScheme
