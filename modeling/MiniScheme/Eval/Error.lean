import MiniScheme.Value

/-!
# Evaluation errors

Each way an evaluation can fail is a cause of its own, with the span to point at. The words of an
error are made from its cause in one place, `EvalError.message`.
-/
namespace MiniScheme

/-- How a form or an application can be written wrongly. -/
inductive FormFault where
  | formNotList
  | applicationNotList
  | quoteOperands
  | assignmentOperands
  | definitionEmpty
  | definitionOperands
  | definitionBody
  | conditionalOperands
  | clauseNotList
  | clauseEmpty
  | elseEmpty
  | lambdaEmpty
  | lambdaBody
  | letEmpty
  | letBody
  | letNotList
  | letBinding
  | duplicate (name : String)
  deriving DecidableEq, Repr

def FormFault.message : FormFault → String
  | .formNotList => "form must be a proper list"
  | .applicationNotList => "application must be a proper list"
  | .quoteOperands => "quote expects exactly one operand"
  | .assignmentOperands => "set! expects a variable and an expression"
  | .definitionEmpty => "define expects a name and an expression"
  | .definitionOperands => "define expects a name and exactly one expression"
  | .definitionBody => "procedure definition needs a body"
  | .conditionalOperands => "if expects condition, consequent, and optional alternate"
  | .clauseNotList => "cond clause must be a list"
  | .clauseEmpty => "cond clause must not be empty"
  | .elseEmpty => "else clause needs at least one expression"
  | .lambdaEmpty => "lambda expects formals and a body"
  | .lambdaBody => "lambda needs at least one body expression"
  | .letEmpty => "let expects bindings and a body"
  | .letBody => "let needs at least one body expression"
  | .letNotList => "let bindings must be a list"
  | .letBinding => "each let binding must be (name expression)"
  | .duplicate name => "duplicate variable '" ++ name ++ "'"

/-- What a primitive can find wrong with its arguments; `found` is the type found. -/
inductive ArgumentFault where
  | notNumber (p : Primitive) (position : Nat) (found : String)
  | notPair (p : Primitive) (found : String)
  | divisionByZero
  deriving DecidableEq, Repr

def ArgumentFault.message : ArgumentFault → String
  | .notNumber p position found =>
    "Primitive '" ++ p.name ++ "' expects a number for argument " ++ position.repr ++ ", got " ++
      found
  | .notPair p found => p.name ++ ": Expected a pair, got " ++ found
  | .divisionByZero => "Division by zero"

/-- Why an evaluation gave no value. -/
inductive EvalError where
  | unbound (name : String) (span : Span)
  | arity (expected : Arity) (got : Nat) (span : Span)
  | notProcedure (v : Value) (span : Span)
  | argument (fault : ArgumentFault) (span : Span)
  | notSymbol (v : Value)
  | malformed (fault : FormFault) (form : Value)
  | emptyApplication (span : Span)
  | notCode (v : Value)
  deriving DecidableEq, Repr

namespace EvalError

/-- Where the error is to be reported. -/
def span : EvalError → Span
  | .unbound _ s => s
  | .arity _ _ s => s
  | .notProcedure _ s => s
  | .argument _ s => s
  | .notSymbol v => v.span
  | .malformed _ form => form.span
  | .emptyApplication s => s
  | .notCode v => v.span

/-- What is said of a value that is no program. -/
def notCodeMessage (v : Value) : String :=
  "cannot evaluate a " ++ v.typeName ++ " as an expression"

def message : EvalError → String
  | .unbound name _ => "Unbound variable: '" ++ name ++ "'"
  | .arity expected got _ => "Procedure expects " ++ expected.text ++ ", got " ++ got.repr
  | .notProcedure v _ => "Evaluation Error: Expected a procedure, but got: " ++ v.text
  | .argument fault _ => "Evaluation Error: Invalid arguments - " ++ fault.message
  | .notSymbol v => "Evaluation Error: Expected a symbol, but got: " ++ v.text
  | .malformed fault form =>
    "Evaluation Error: Invalid special form - " ++ fault.message ++ ": " ++ form.text
  | .emptyApplication _ => "Evaluation Error: Application operator must have a procedure: ()"
  | .notCode v => "Internal Error: " ++ notCodeMessage v

end EvalError
end MiniScheme
