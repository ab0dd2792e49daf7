import MiniScheme.Eval.Error
import MiniScheme.Store

/-!
# The machine

Evaluation reads and changes a store, and may stop before it has a value: with an error, or because
the steps it was allowed have run out. The store as it was at that moment is kept in either case, so
effects before an error remain.
-/
namespace MiniScheme

/-- Why an evaluation stopped without a value. -/
inductive Stop where
  | failed (e : EvalError)
  | exhausted
  deriving DecidableEq, Repr

/-- A computation on a store. -/
abbrev Machine := EStateM Stop Store

namespace Machine

/-- Stops with an error. -/
def fail {α : Type} (e : EvalError) : Machine α := throw (.failed e)

/-- Stops with the error, if there is one. -/
def ofExcept {α : Type} : Except EvalError α → Machine α
  | .ok a => pure a
  | .error e => fail e

/-- Runs an operation of the store that makes something. -/
def make {α : Type} (f : Store → α × Store) : Machine α := modifyGet f

/-- The value of a name seen from a frame, which is an error at `span` if there is none. -/
def lookup (f : FrameId) (name : String) (span : Span) : Machine Value := do
  match (← get).get? f name with
  | some v => pure v
  | none => fail (.unbound name span)

/-- Changes the nearest binding of a name. -/
def assign (f : FrameId) (name : String) (v : Value) (span : Span) : Machine Unit := fun s =>
  match s.set? f name v with
  | some s' => .ok () s'
  | none => .error (.failed (.unbound name span)) s

/-- Binds a name in a frame. -/
def define (f : FrameId) (name : String) (v : Value) : Machine Unit :=
  modify fun s => s.define f name v

/-- A frame for a call, if the formals accept the arguments. -/
def extend (parent : FrameId) (formals : List String) (variadic : Bool) (arguments : List Value)
    (span : Span) : Machine FrameId :=
  let arity := Arity.ofFormals formals variadic
  if arity.accepts arguments.length then
    make fun s => s.bindFormals parent formals variadic arguments span
  else fail (.arity arity arguments.length span)

theorem lookup_eq (f : FrameId) (name : String) (span : Span) (s : Store) :
    lookup f name span s = match s.get? f name with
      | some v => .ok v s
      | none => .error (.failed (.unbound name span)) s := by
  change (match s.get? f name with
    | some v => pure v
    | none => fail (.unbound name span) : Machine Value) s = _
  cases s.get? f name <;> rfl

end Machine
end MiniScheme
