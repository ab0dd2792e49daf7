import MiniScheme.Datum.Read
import MiniScheme.Eval

/-!
# Sessions

A session is a store whose first frame is the global one, and the limits to read and evaluate
within. It is handed source texts one after another. `run` evaluates every datum of a text and goes
on after an evaluation error; `evalText` stops at the first error of any kind and gives the last
value. For both, the data before a reading error have been evaluated when it is met.
-/
namespace MiniScheme

/-- Why a source text was not run to its end. An internal error is one that no program can cause. -/
inductive RunError where
  | read (e : ReadError)
  | eval (e : EvalError)
  | internal (message : String)
  | exhausted
  deriving DecidableEq, Repr

def RunError.message : RunError → String
  | .read e => e.message
  | .eval e => e.message
  | .internal message => "Internal Error: " ++ message
  | .exhausted => "Evaluation Error: Evaluations are nested too deep"

structure Session where
  store : Store
  maxDepth : Nat
  fuel : Nat
  deriving DecidableEq, Repr

/-- What running a source text gave: the result of each datum, why it stopped early if it did, and
the session after it. -/
structure Run where
  results : List (Except EvalError Value)
  stopped : Option RunError
  session : Session
  deriving Repr

/-- A store with a new frame, without a parent, that binds the primitives. -/
def Store.addGlobal (s : Store) : FrameId × Store := s.addFrame ⟨none, .primitives⟩

namespace Session

/-- The frame in which source texts are evaluated. -/
def globalFrame : FrameId := 0

/-- Evaluations may nest this deep; no program that ends in practice comes near. -/
def defaultFuel : Nat := 1000000000

/-- A session that has run nothing. -/
def fresh (maxDepth : Nat) : Session := ⟨Store.empty.addGlobal.2, maxDepth, defaultFuel⟩

/-- Evaluates a value as an expression in the global frame. -/
def evalValue (s : Session) (v : Value) : Except Stop Value × Session :=
  match eval s.fuel globalFrame v s.store with
  | .ok v store => (.ok v, { s with store })
  | .error stop store => (.error stop, { s with store })

/-- Evaluates a datum in the global frame. -/
def evalDatum (s : Session) (d : Datum) : Except Stop Value × Session :=
  let (v, store) := s.store.load d
  { s with store }.evalValue v

/-- Runs what was read: each datum in turn, up to a reading error or an internal one. -/
def runRead (s : Session) : List (Except ReadError Datum) → Run
  | [] => ⟨[], none, s⟩
  | .error e :: _ => ⟨[], some (.read e), s⟩
  | .ok d :: rest =>
    match s.evalDatum d with
    | (.ok v, s) =>
      let run := s.runRead rest
      { run with results := .ok v :: run.results }
    | (.error (.failed (.notCode v)), s) => ⟨[], some (.internal (EvalError.notCodeMessage v)), s⟩
    | (.error (.failed e), s) =>
      let run := s.runRead rest
      { run with results := .error e :: run.results }
    | (.error .exhausted, s) => ⟨[], some .exhausted, s⟩

/-- Runs a source text. -/
def run (s : Session) (source : String) : Run :=
  s.runRead (Reader.readAll s.maxDepth (scan source))

/-- Evaluates what was read up to the first error; `last` is the value so far. -/
def evalRead (s : Session) (last : Value) :
    List (Except ReadError Datum) → Except RunError Value × Session
  | [] => (.ok last, s)
  | .error e :: _ => (.error (.read e), s)
  | .ok d :: rest =>
    match s.evalDatum d with
    | (.ok v, s) => s.evalRead v rest
    | (.error (.failed (.notCode v)), s) => (.error (.internal (EvalError.notCodeMessage v)), s)
    | (.error (.failed e), s) => (.error (.eval e), s)
    | (.error .exhausted, s) => (.error .exhausted, s)

/-- The value of the last datum of a source text, unspecified if there is none, or the first
error. -/
def evalText (s : Session) (source : String) : Except RunError Value × Session :=
  s.evalRead (.unspecified default) (Reader.readAll s.maxDepth (scan source))

/-- The names bound in the global frame. -/
def names (s : Session) : List String := s.store.visible globalFrame

end Session
end MiniScheme
