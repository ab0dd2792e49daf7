import MiniScheme.Eval.Form
import MiniScheme.Eval.Primitive

/-!
# Evaluation

One step of evaluation is given over an arbitrary evaluator for the parts; `eval` closes the
recursion with a bound on its depth. Running out of depth is told apart from every answer.
-/
namespace MiniScheme

/-- Calls a procedure on values. A closure runs in a new frame inside the one it was made in. -/
def applyBy (ev : Evaluator) (p : Procedure) (args : List Value) (span : Span) : Machine Value :=
  match p with
  | .primitive p =>
    if p.arity.accepts args.length then p.call args span
    else .fail (.arity p.arity args.length span)
  | .closure id _ => do
    match (← get).closures[id]? with
    | none => Machine.fail (.notProcedure (.procedure span p) span)
    | some c =>
      let inner ← Machine.extend c.frame c.formals c.variadic args span
      Form.evalSequence ev inner span c.body

/-- The store is read only to fetch the closure. -/
theorem applyBy_closure (ev : Evaluator) (id : ClosureId) (name : Option String) (args : List Value)
    (span : Span) (s : Store) :
    applyBy ev (.closure id name) args span s =
      (match s.closures[id]? with
        | none => Machine.fail (.notProcedure (.procedure span (.closure id name)) span)
        | some c => do
          let inner ← Machine.extend c.frame c.formals c.variadic args span
          Form.evalSequence ev inner span c.body : Machine Value) s := rfl

/-- An application: the operator first, which must be a procedure, then the operands in order. -/
def evalApplication (ev : Evaluator) (f : FrameId) (form operator operands : Value) :
    Machine Value := do
  match ← ev f operator with
  | .procedure _ p =>
    match operands.toList? with
    | none => Machine.fail (.malformed .applicationNotList form)
    | some es =>
      let args ← Form.evalEach ev f es
      applyBy ev p args form.span
  | v => Machine.fail (.notProcedure v operator.span)

/-- Evaluates an expression, its parts by `ev`. -/
def evalStep (ev : Evaluator) : Evaluator := fun f expression =>
  match expression with
  | .atom span (.symbol name) => Machine.lookup f name span
  | .atom _ _ => pure expression
  | .nil span => Machine.fail (.emptyApplication span)
  | .pair _ _ operator operands =>
    match operator.symbol?.bind Keyword.ofName? with
    | some k =>
      match operands.toList? with
      | none => Machine.fail (.malformed .formNotList expression)
      | some es => Form.eval ev k f expression es
    | none => evalApplication ev f expression operator operands
  | .leaf _ _ => Machine.fail (.notCode expression)

/-- Evaluates an expression with at most `fuel` evaluations nested. -/
def eval : Nat → Evaluator
  | 0 => fun _ _ => throw .exhausted
  | fuel + 1 => evalStep (eval fuel)

/-- Calls a procedure with at most `fuel` evaluations nested. -/
def apply (fuel : Nat) (p : Procedure) (args : List Value) (span : Span) : Machine Value :=
  applyBy (eval fuel) p args span

end MiniScheme
