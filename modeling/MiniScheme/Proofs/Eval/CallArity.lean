import Mathlib.Logic.Relation
import MiniScheme.Inspect
import MiniScheme.Proofs.Eval.InStep

/-!
# Arities tell what calls do

How many arguments a procedure takes is said by its arity, and decided three times: when it is
called, when a frame is made for the formals of a closure, and by each primitive for itself. Here
the three are shown to agree.

For closures this rests on how they come about. Only `lambda` and `define` make them, so in every
store that evaluation can reach a variadic closure has a formal to take the further arguments, and
its arity is one less than the number of formals with nothing cut off.
-/
namespace MiniScheme

section Closures

/-- Nothing differs between the two sides, and every closure is as `lambda` and `define` make it. -/
def Correspondence.formation : Correspondence where
  span := Eq
  closure := Eq
  fits := Closure.Formed
  merge := by
    rintro a _ b _ rfl rfl
    rfl
  same_iff := same_iff_of_eq
  fits_of_formed formed := formed

namespace Store

/-- Every closure is as `lambda` and `define` make it. -/
def Formed (s : Store) : Prop :=
  ∀ (id : ClosureId) (c : Closure), s.closures[id]? = some c → c.Formed

theorem matches_formation (v : Value) : Correspondence.formation.Matches v v :=
  Correspondence.matches_self (fun _ _ => rfl) (Value.within_of_forall (fun _ => rfl) v)

theorem Formed.matches_self {s : Store} (formed : s.Formed) :
    Correspondence.formation.MatchesStore s s := by
  refine ⟨rfl, ?_, ?_, fun _ => rfl, rfl⟩
  · intro f
    cases s.frames[f]? with
    | none => exact .none
    | some frame => exact .some ⟨rfl, .self fun name v _ => matches_formation v⟩
  · rintro id _ rfl
    cases there : s.closures[id]? with
    | none => exact .none
    | some c =>
      have body := List.forall₂_same.mpr fun e (_ : e ∈ c.body) => matches_formation e
      exact .some ⟨rfl, rfl, body, rfl, formed id c there⟩

theorem formed_of_matches {s t : Store} (stores : Correspondence.formation.MatchesStore s t) :
    s.Formed := by
  intro id c there
  have closures := stores.closures (Eq.refl id)
  rw [there] at closures
  generalize t.closures[id]? = y at closures
  cases closures with
  | some closures => exact closures.fits

/-- What may happen between one evaluation and the next, besides the evaluations themselves:
whatever makes no closure. -/
inductive Evaluates (s : Store) : Store → Prop where
  | eval (fuel : Nat) (f : FrameId) (e : Value) : Evaluates s ((eval fuel f e).after s)
  | apply (fuel : Nat) (p : Procedure) (args : List Value) (span : Span) :
      Evaluates s ((apply fuel p args span).after s)
  | between {s' : Store} (same : s'.closures = s.closures) : Evaluates s s'

/-- The stores that come about by evaluation. -/
def Evaluated (s : Store) : Prop := Relation.ReflTransGen Evaluates empty s

theorem Formed.evaluates {s s' : Store} (formed : s.Formed) (step : Evaluates s s') :
    s'.Formed := by
  have stores := formed.matches_self
  cases step with
  | eval fuel f e =>
    have ends := Correspondence.inStep_eval fuel f e e (matches_formation e) stores
    exact formed_of_matches ends.after
  | apply fuel p args span =>
    have values := List.forall₂_same.mpr fun v (_ : v ∈ args) => matches_formation v
    have callable := matches_formation (.procedure span p)
    have ends := Correspondence.inStep_apply fuel callable values (Eq.refl span) stores
    exact formed_of_matches ends.after
  | between same =>
    intro id c there
    exact formed id c (same ▸ there)

theorem Evaluated.formed {s : Store} (evaluated : s.Evaluated) : s.Formed := by
  induction evaluated with
  | refl => exact fun _ _ none => nomatch none
  | tail _ step ih => exact ih.evaluates step

/-- A variadic closure asks for one argument less than it has formals, and the difference is that of
the numbers: nothing is cut off. -/
theorem Evaluated.required_arity {s : Store} (evaluated : s.Evaluated) {id : ClosureId}
    {c : Closure} (there : s.closures[id]? = some c) :
    (c.arity.required : Int) = c.formals.length - if c.variadic then 1 else 0 := by
  have formed := evaluated.formed id c there
  cases variadic : c.variadic with
  | false => simp [Closure.arity, Arity.ofFormals, variadic, Arity.exactly]
  | true =>
    have some : 1 ≤ c.formals.length := List.length_pos_iff.mpr (formed.rest variadic)
    simp only [Closure.arity, Arity.ofFormals, variadic, Arity.atLeast, if_true]
    omega

end Store

end Closures

section Primitives

/-- If the error is about a number of arguments, it is the one that the arity makes of these
arguments, whose number it does not accept. -/
def EvalError.Justified (asked : Arity) (args : List Value) (span : Span) : EvalError → Prop
  | .arity expected got place =>
    asked.accepts args.length = false ∧ expected = asked ∧ got = args.length ∧ place = span
  | _ => True

/-- Whatever error the outcome is, it is justified. -/
def Guarded {α : Type} (asked : Arity) (args : List Value) (span : Span) (x : Except EvalError α) :
    Prop :=
  ∀ e, x = .error e → e.Justified asked args span

section Guards

variable {α β : Type} {asked : Arity} {args : List Value} {span : Span}

theorem guarded_ok (a : α) : Guarded asked args span (.ok a : Except EvalError α) :=
  fun _ same => nomatch same

theorem guarded_argument (fault : ArgumentFault) (place : Span) :
    Guarded asked args span (.error (.argument fault place) : Except EvalError α) := by
  rintro e ⟨⟩
  trivial

/-- The guards of the primitives ask for an arity of their own. -/
theorem guarded_wrongCount (refused : asked.accepts args.length = false) :
    Guarded asked args span
      (.error (Primitive.wrongCount asked args span) : Except EvalError α) := by
  rintro e ⟨⟩
  exact ⟨refused, rfl, rfl, rfl⟩

/-- The error of a part is the error of the whole. -/
theorem Guarded.error {x : Except EvalError α} {e : EvalError} (guarded : Guarded asked args span x)
    (failed : x = .error e) : Guarded asked args span (.error e : Except EvalError β) := by
  rintro e ⟨⟩
  exact guarded e failed

theorem Guarded.map {x : Except EvalError α} (guarded : Guarded asked args span x) (f : α → β) :
    Guarded asked args span (x.map f) := by
  cases x with
  | ok a => exact guarded_ok (f a)
  | error e => exact guarded.error rfl

end Guards

namespace Primitive

variable {args : List Value} {span : Span}

/-- To be a number is all that is asked of an argument. -/
theorem numbersFrom_cons (p : Primitive) (span : Span) (position : Nat) (v : Value)
    (rest : List Value) :
    (∃ x, p.numbersFrom span position (v :: rest) =
      (p.numbersFrom span (position + 1) rest).map (x :: ·)) ∨
    ∃ fault, p.numbersFrom span position (v :: rest) = .error (.argument fault span) := by
  cases v with
  | atom _ a =>
    cases a with
    | number x => exact .inl ⟨x, rfl⟩
    | _ => exact .inr ⟨_, rfl⟩
  | _ => exact .inr ⟨_, rfl⟩

theorem guarded_numbersFrom {asked : Arity} (p : Primitive) (position : Nat) (vs : List Value) :
    Guarded asked args span (p.numbersFrom span position vs) := by
  induction vs generalizing position with
  | nil => exact guarded_ok []
  | cons v rest ih =>
    obtain ⟨x, number⟩ | ⟨fault, refused⟩ := p.numbersFrom_cons span position v rest
    · rw [number]
      exact (ih (position + 1)).map (x :: ·)
    · rw [refused]
      exact guarded_argument fault span

/-- There are as many numbers as arguments, if all are numbers. -/
theorem length_numbersFrom {p : Primitive} {position : Nat} {xs : List Float}
    (numbers : p.numbersFrom span position args = .ok xs) : xs.length = args.length := by
  induction args generalizing position xs with
  | nil =>
    cases numbers
    rfl
  | cons v rest ih =>
    obtain ⟨x, number⟩ | ⟨fault, refused⟩ := p.numbersFrom_cons span position v rest
    · cases others : p.numbersFrom span (position + 1) rest with
      | error e => simp [number, others, Except.map] at numbers
      | ok ys =>
        rw [number, others] at numbers
        cases numbers
        simp [ih others]
    · simp [refused] at numbers

/-- Without a number there was no argument. -/
theorem refused_of_no_numbers {p : Primitive} (none : p.numbersFrom span 1 args = .ok []) :
    (Arity.atLeast 1).accepts args.length = false := by
  rw [← length_numbersFrom none]
  rfl

theorem refused_of_length_ne {n : Nat} (other : args.length ≠ n) :
    (Arity.exactly n).accepts args.length = false :=
  Bool.eq_false_iff.mpr (mt (Arity.accepts_exactly n args.length).mp other)

theorem refused_of_not_one (others : ∀ v, args ≠ [v]) :
    (Arity.exactly 1).accepts args.length = false := by
  refine refused_of_length_ne fun one => ?_
  obtain ⟨v, rfl⟩ := List.length_eq_one_iff.mp one
  exact others v rfl

theorem guarded_difference : Guarded (.atLeast 1) args span (difference args span) := by
  unfold difference numbers
  split
  · next failed => exact (guarded_numbersFrom .subtract 1 args).error failed
  · next none => exact guarded_wrongCount (refused_of_no_numbers none)
  · exact guarded_ok _
  · exact guarded_ok _

theorem guarded_divideBy {asked : Arity} (x : Float) (divisors : List Float) :
    Guarded asked args span (divideBy x divisors span) := by
  unfold divideBy
  split
  · exact guarded_argument _ span
  · exact guarded_ok _

theorem guarded_quotient : Guarded (.atLeast 1) args span (quotient args span) := by
  unfold quotient numbers
  split
  · next failed => exact (guarded_numbersFrom .divide 1 args).error failed
  · next none => exact guarded_wrongCount (refused_of_no_numbers none)
  · exact guarded_divideBy _ _
  · exact guarded_divideBy _ _

theorem guarded_part (p : Primitive) (select : Value → Value → Value) :
    Guarded (.exactly 1) args span (p.part select args span) := by
  unfold part
  split
  · exact guarded_ok _
  · exact guarded_argument _ _
  · next others => exact guarded_wrongCount (refused_of_not_one others)

theorem guarded_test (holds : Value → Bool) :
    Guarded (.exactly 1) args span (test holds args span) := by
  unfold test
  split
  · exact guarded_ok _
  · next others => exact guarded_wrongCount (refused_of_not_one others)

theorem guarded_relate (holds : Value → Value → Bool) :
    Guarded (.exactly 2) args span (relate holds args span) := by
  unfold relate
  split
  · exact guarded_ok _
  · next others =>
    refine guarded_wrongCount (refused_of_length_ne fun two => ?_)
    obtain ⟨v, w, rfl⟩ := List.length_eq_two.mp two
    exact others v w rfl

end Primitive

/-- Whatever error a run of the computation ends with, it is justified. -/
def Machine.Guarded {α : Type} (asked : Arity) (args : List Value) (span : Span) (m : Machine α) :
    Prop :=
  ∀ s e, m.outcome s = .error (.failed e) → e.Justified asked args span

theorem guarded_ofExcept {α : Type} {asked : Arity} {args : List Value} {span : Span}
    {x : Except EvalError α} (guarded : Guarded asked args span x) :
    Machine.Guarded asked args span (.ofExcept x) := by
  intro s e failed
  cases x with
  | ok a => cases failed
  | error e' =>
    cases failed
    exact guarded e rfl

/-- Each primitive asks for what its arity says: it complains only about a number of arguments that
the arity does not accept, whatever the arguments are, and then names the arity and that number. -/
theorem Primitive.guarded_call (p : Primitive) (args : List Value) (span : Span) :
    Machine.Guarded p.arity args span (p.call args span) := by
  cases p with
  | add | multiply | equals | less | lessOrEqual | greater | greaterOrEqual =>
    exact guarded_ofExcept ((guarded_numbersFrom _ 1 args).map _)
  | subtract => exact guarded_ofExcept guarded_difference
  | divide => exact guarded_ofExcept guarded_quotient
  | cons =>
    match args with
    | [a, d] => exact fun _ _ failed => nomatch failed
    | [] | [v] | u :: v :: w :: vs =>
      rintro s e ⟨⟩
      exact ⟨rfl, rfl, rfl, rfl⟩
  | list => exact fun _ _ failed => nomatch failed
  | car | cdr => exact guarded_ofExcept (guarded_part _ _)
  | isNull | isPair | isNumber | isBoolean | isSymbol | isString | isCharacter | isProcedure
  | not => exact guarded_ofExcept (guarded_test _)
  | isSame | isEqual => exact guarded_ofExcept (guarded_relate _)

end Primitives

section Calls

variable {s : Store}

/-- A call with a number of arguments that the arity does not accept stops at once. -/
theorem apply_of_refused {p : Procedure} {arity : Arity} {args : List Value}
    (known : p.arity? s = some arity) (refused : arity.accepts args.length = false) (fuel : Nat)
    (span : Span) :
    apply fuel p args span s = .error (.failed (.arity arity args.length span)) s := by
  cases p with
  | primitive p =>
    cases known
    simp only [apply, applyBy, refused]
    rfl
  | closure id name =>
    obtain ⟨c, there, rfl⟩ := Option.map_eq_some_iff.mp known
    unfold Closure.arity at refused ⊢
    rw [apply, applyBy_closure, there]
    simp only [Machine.extend, refused]
    rfl

/-- A call of a closure with a number of arguments that its arity accepts enters a new frame. -/
theorem apply_of_accepted {id : ClosureId} {c : Closure} {args : List Value}
    (there : s.closures[id]? = some c) (accepted : c.arity.accepts args.length = true) (fuel : Nat)
    (name : Option String) (span : Span) :
    ∃ inner s', Machine.extend c.frame c.formals c.variadic args span s = .ok inner s' ∧
      apply fuel (.closure id name) args span s =
        Form.evalSequence (eval fuel) inner span c.body s' := by
  have entered : Machine.extend c.frame c.formals c.variadic args span =
      Machine.make fun s => s.bindFormals c.frame c.formals c.variadic args span := if_pos accepted
  refine ⟨_, _, congrFun entered s, ?_⟩
  rw [apply, applyBy_closure, there]
  simp only [entered]
  rfl

/-- In every store that evaluation can reach, each closure has distinct formals, a body and, if it
is variadic, a formal for the further arguments. A call with a number of arguments that the arity of
the procedure does not accept fails with just that arity, number and span, and leaves the store as
it was. With a number that it accepts, a closure gets its frame and runs its body there, and a
primitive, whatever the arguments, never complains about their number. -/
theorem calls_agree_with_arity (evaluated : s.Evaluated) :
    (∀ (id : ClosureId) (c : Closure), s.closures[id]? = some c →
      c.formals.Nodup ∧ c.body ≠ [] ∧ (c.variadic = true → 1 ≤ c.formals.length)) ∧
    (∀ p arity args, p.arity? s = some arity → arity.accepts args.length = false → ∀ fuel span,
      apply fuel p args span s = .error (.failed (.arity arity args.length span)) s) ∧
    (∀ id c args, s.closures[id]? = some c → c.arity.accepts args.length = true →
      ∀ fuel name span, ∃ inner s',
        Machine.extend c.frame c.formals c.variadic args span s = .ok inner s' ∧
        apply fuel (.closure id name) args span s =
          Form.evalSequence (eval fuel) inner span c.body s') ∧
    ∀ (p : Primitive) args, p.arity.accepts args.length = true → ∀ fuel span,
      apply fuel (.primitive p) args span = p.call args span ∧
      ∀ t expected got at',
        (p.call args span).outcome t ≠ .error (.failed (.arity expected got at')) := by
  refine ⟨?_, ?_, ?_, ?_⟩
  · intro id c there
    have formed := evaluated.formed id c there
    exact ⟨formed.distinct, formed.body, fun rest => List.length_pos_iff.mpr (formed.rest rest)⟩
  · intro p arity args known refused fuel span
    exact apply_of_refused known refused fuel span
  · intro id c args there accepted fuel name span
    exact apply_of_accepted there accepted fuel name span
  · intro p args accepted fuel span
    refine ⟨if_pos accepted, ?_⟩
    intro t expected got place complaint
    obtain ⟨refused, -⟩ := p.guarded_call args span t _ complaint
    exact Bool.false_ne_true (refused.symm.trans accepted)

/-- `(define (pick x . rest) x)` makes a closure of two formals that asks for one argument. -/
theorem calls_agree_with_arity_of_rest :
    let word (name : String) : Value := .atom default (.symbol name)
    let form (parts : List Value) (tail : Value) : Value := (Store.empty.addList tail parts).1
    let target := form [word "pick", word "x"] (word "rest")
    let definition := form [word "define", target, word "x"] (.nil default)
    let s := (eval 9 0 definition).after (Store.empty.addFrame ⟨none, []⟩).2
    s.closures[0]? = some ⟨["x", "rest"], true, [word "x"], 0⟩ ∧ ["x", "rest"].Nodup ∧
    (∀ fuel span, apply fuel (.closure 0 none) [] span s =
      .error (.failed (.arity (.atLeast 1) 0 span)) s) ∧
    ∀ fuel span, apply fuel (.primitive .car) [] span s =
      .error (.failed (.arity (.exactly 1) 0 span)) s := by
  intro word form target definition s
  have framed : Store.Evaluates .empty (Store.empty.addFrame ⟨none, []⟩).2 := .between rfl
  have evaluated : s.Evaluated := .tail (.single framed) (.eval 9 0 definition)
  have there : s.closures[0]? = some ⟨["x", "rest"], true, [word "x"], 0⟩ := by decide +kernel
  have known : (Procedure.closure 0 none).arity? s = some (.atLeast 1) := by
    rw [Procedure.arity?, there]
    rfl
  obtain ⟨formed, refused, -, -⟩ := calls_agree_with_arity evaluated
  exact ⟨there, (formed 0 _ there).1, refused _ _ [] known rfl,
    refused (.primitive .car) _ [] rfl rfl⟩

end Calls

end MiniScheme
