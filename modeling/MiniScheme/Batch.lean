import MiniScheme.Transcript

/-!
# The batch program

Files and then expressions are run in one session. An error in one of them does not keep the others
from being run; a file that cannot be read, or an internal error, ends the program at once.
-/
namespace MiniScheme.Batch

/-- Something to run: a named file, with its text if it could be read, or an expression. -/
inductive Input where
  | file (name : String) (text : Option String)
  | expression (text : String)
  deriving DecidableEq, Repr

/-- The name of an expression in diagnostics. -/
def expressionName : String := "<expr>"

/-- What an input is called in diagnostics. -/
def Input.name : Input → String
  | .file name _ => name
  | .expression _ => expressionName

/-- The source text of an input, if there is one. -/
def Input.text? : Input → Option String
  | .file _ text => text
  | .expression text => some text

/-- A file with the bytes found under a name, if any were; its text must be UTF-8. -/
def Input.ofBytes (name : String) (bytes : Option ByteArray) : Input :=
  .file name (bytes.bind String.fromUTF8?)

/-- What the program writes and the status it ends with. -/
structure Outcome where
  lines : List Line
  status : Nat
  deriving DecidableEq, Repr

/-- Takes an input: what is written and, unless the program ends at once, the session after it and
whether anything went wrong. -/
def takeInput (s : Session) (input : Input) : List Line × Option (Session × Bool) :=
  match input.text? with
  | none => ([.error ("Error: Failed to read " ++ input.name)], none)
  | some source =>
    let run := s.run source
    let written := run.lines input.name source
    match run.stopped with
    | some (.internal message) =>
      let complaint := input.name ++ ": " ++ (RunError.internal message).message
      (written ++ [.error ("Error: " ++ complaint)], none)
    | _ => (written, some (run.session, run.failed))

/-- Runs inputs in a session; `failed` says whether something went wrong before. -/
def runFrom (s : Session) (failed : Bool) : List Input → Outcome
  | [] => ⟨[], if failed then 1 else 0⟩
  | input :: rest =>
    match takeInput s input with
    | (written, none) => ⟨written, 1⟩
    | (written, some (s, wrong)) =>
      let after := runFrom s (failed || wrong) rest
      ⟨written ++ after.lines, after.status⟩

/-- Runs the program with a limit on nesting. -/
def run (maxDepth : Nat) (inputs : List Input) : Outcome :=
  runFrom (.fresh maxDepth) false inputs

end MiniScheme.Batch
