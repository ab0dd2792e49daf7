import MiniScheme.Eval.Machine

/-!
# Special forms

A special form is an application whose operator is one of eight keywords. Keywords are known by name
alone: binding a variable of that name changes nothing.

The forms are given here over an arbitrary evaluator for their parts, so that each can be understood
without the others.
-/
namespace MiniScheme

inductive Keyword where
  | quote
  | assign
  | define
  | conditional
  | cond
  | sequence
  | lambda
  | binding
  deriving DecidableEq, Repr

namespace Keyword

/-- Every keyword once. -/
def all : List Keyword :=
  [.quote, .assign, .define, .conditional, .cond, .sequence, .lambda, .binding]

def name : Keyword → String
  | .quote => "quote"
  | .assign => "set!"
  | .define => "define"
  | .conditional => "if"
  | .cond => "cond"
  | .sequence => "begin"
  | .lambda => "lambda"
  | .binding => "let"

/-- The keyword with a name. -/
def ofName? (name : String) : Option Keyword := all.find? (·.name == name)

theorem mem_all (k : Keyword) : k ∈ all := by
  cases k <;> decide

end Keyword

/-- Evaluates an expression in a frame. -/
abbrev Evaluator := FrameId → Value → Machine Value

namespace Form

/-- The first name that stands for the second time. -/
def firstRepeated? (seen : List String) : List String → Option String
  | [] => none
  | n :: ns => if n ∈ seen then some n else firstRepeated? (n :: seen) ns

/-- Refuses a list of variables with a name twice in it. -/
def ensureDistinct (names : List String) (form : Value) : Except EvalError Unit :=
  match firstRepeated? [] names with
  | some n => .error (.malformed (.duplicate n) form)
  | none => .ok ()

/-- The name that a symbol is. -/
def expectSymbol (v : Value) : Except EvalError String :=
  match v.symbol? with
  | some name => .ok name
  | none => .error (.notSymbol v)

/-- The names of a parameter list, and whether the last takes all further arguments: `(a b)`,
`(a . rest)` or `args`. -/
def formalNames : Value → Except EvalError (List String × Bool)
  | .nil _ => .ok ([], false)
  | .pair _ _ car cdr =>
    match expectSymbol car with
    | .error e => .error e
    | .ok n => (formalNames cdr).map fun rest => (n :: rest.1, rest.2)
  | .atom _ (.symbol rest) => .ok ([rest], true)
  | v => .error (.notSymbol v)

/-- A parameter list without repetitions. -/
def formals (v form : Value) : Except EvalError (List String × Bool) :=
  match formalNames v with
  | .error e => .error e
  | .ok result => (ensureDistinct result.1 form).map fun _ => result

/-- Evaluates expressions in order; the value is that of the last, or unspecified. -/
def evalSequence (ev : Evaluator) (f : FrameId) (span : Span) : List Value → Machine Value
  | [] => pure (.unspecified span)
  | [e] => ev f e
  | e :: es => do
    let _ ← ev f e
    evalSequence ev f span es

/-- The values of expressions, evaluated in order. -/
def evalEach (ev : Evaluator) (f : FrameId) : List Value → Machine (List Value)
  | [] => pure []
  | e :: es => do
    let v ← ev f e
    let vs ← evalEach ev f es
    pure (v :: vs)

/-- A new closure. -/
def makeClosure (c : Closure) (name : Option String) (span : Span) : Machine Value := do
  let id ← Machine.make fun s => s.addClosure c
  pure (.procedure span (.closure id name))

/-- `(quote datum)`: the datum itself. -/
def evalQuote (form : Value) : List Value → Machine Value
  | [quoted] => pure quoted
  | _ => .fail (.malformed .quoteOperands form)

/-- `(set! name expression)`: the name is looked at before the expression is evaluated, and looked
up after. -/
def evalAssign (ev : Evaluator) (f : FrameId) (form : Value) : List Value → Machine Value
  | [target, expression] => do
    let name ← Machine.ofExcept (expectSymbol target)
    let v ← ev f expression
    Machine.assign f name v form.span
    pure (.unspecified form.span)
  | _ => .fail (.malformed .assignmentOperands form)

/-- `(define name expression)`, or `(define (name . formals) body ...)` for a named closure. -/
def evalDefine (ev : Evaluator) (f : FrameId) (form : Value) : List Value → Machine Value
  | [] => .fail (.malformed .definitionEmpty form)
  | .atom _ (.symbol name) :: rest =>
    match rest with
    | [expression] => do
      let v ← ev f expression
      Machine.define f name v
      pure (.unspecified form.span)
    | _ => .fail (.malformed .definitionOperands form)
  | .pair _ _ target params :: body => do
    if body.isEmpty then Machine.fail (.malformed .definitionBody form)
    let name ← Machine.ofExcept (expectSymbol target)
    let (names, variadic) ← Machine.ofExcept (formals params form)
    let v ← makeClosure ⟨names, variadic, body, f⟩ (some name) form.span
    Machine.define f name v
    pure (.unspecified form.span)
  | v :: _ => .fail (.notSymbol v)

/-- `(if condition consequent)` or `(if condition consequent alternate)`. -/
def evalConditional (ev : Evaluator) (f : FrameId) (form : Value) : List Value → Machine Value
  | [condition, consequent] => do
    let v ← ev f condition
    if v.isTrue then ev f consequent else pure (.unspecified form.span)
  | [condition, consequent, alternate] => do
    let v ← ev f condition
    if v.isTrue then ev f consequent else ev f alternate
  | _ => .fail (.malformed .conditionalOperands form)

/-- `(cond clause ...)`: clauses are looked at one by one, so what stands after the one selected may
be anything. A clause without a body gives the value of its test. -/
def evalCond (ev : Evaluator) (f : FrameId) (form : Value) : List Value → Machine Value
  | [] => pure (.unspecified form.span)
  | clause :: clauses =>
    match clause.toList? with
    | none => .fail (.malformed .clauseNotList form)
    | some [] => .fail (.malformed .clauseEmpty form)
    | some (test :: body) =>
      if test.symbol? = some "else" then
        if body.isEmpty then .fail (.malformed .elseEmpty form)
        else evalSequence ev f form.span body
      else do
        let v ← ev f test
        if v.isTrue then
          if body.isEmpty then pure v else evalSequence ev f form.span body
        else evalCond ev f form clauses

/-- `(lambda formals body ...)`. -/
def evalLambda (f : FrameId) (form : Value) : List Value → Machine Value
  | [] => .fail (.malformed .lambdaEmpty form)
  | params :: body => do
    if body.isEmpty then Machine.fail (.malformed .lambdaBody form)
    let (names, variadic) ← Machine.ofExcept (formals params form)
    makeClosure ⟨names, variadic, body, f⟩ none form.span

/-- The names and values of `(name expression)` bindings. Each name is looked at before its
expression is evaluated, and all expressions are evaluated in the frame of the form. -/
def evalBindings (ev : Evaluator) (f : FrameId) (form : Value) :
    List Value → Machine (List String × List Value)
  | [] => pure ([], [])
  | b :: bs =>
    match b.toList? with
    | some [target, expression] => do
      let name ← Machine.ofExcept (expectSymbol target)
      let v ← ev f expression
      let (names, vs) ← evalBindings ev f form bs
      pure (name :: names, v :: vs)
    | _ => .fail (.malformed .letBinding form)

/-- `(let ((name expression) ...) body ...)`. -/
def evalLet (ev : Evaluator) (f : FrameId) (form : Value) : List Value → Machine Value
  | [] => .fail (.malformed .letEmpty form)
  | bindings :: body => do
    if body.isEmpty then Machine.fail (.malformed .letBody form)
    match bindings.toList? with
    | none => .fail (.malformed .letNotList form)
    | some bs => do
      let (names, vs) ← evalBindings ev f form bs
      Machine.ofExcept (ensureDistinct names form)
      let inner ← Machine.extend f names false vs form.span
      evalSequence ev inner form.span body

/-- A special form with its operands. -/
def eval (ev : Evaluator) (k : Keyword) (f : FrameId) (form : Value) (operands : List Value) :
    Machine Value :=
  match k with
  | .quote => evalQuote form operands
  | .assign => evalAssign ev f form operands
  | .define => evalDefine ev f form operands
  | .conditional => evalConditional ev f form operands
  | .cond => evalCond ev f form operands
  | .sequence => evalSequence ev f form.span operands
  | .lambda => evalLambda f form operands
  | .binding => evalLet ev f form operands

end Form
end MiniScheme
