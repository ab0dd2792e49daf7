import MiniScheme.Diagnostic

/-!
# Transcripts

What a program writes, line by line and to which of two channels, as data. Running a source text
writes each value that is not unspecified, and the diagnostics of its errors.
-/
namespace MiniScheme

/-- Something that is written: a line to the output, a line to the errors, or a remark to the errors
that ends no line, so that what is written there next stands right behind it. -/
inductive Line where
  | output (text : String)
  | error (text : String)
  | remark (text : String)
  deriving DecidableEq, Repr

/-- The text of the output channel. -/
def Line.outputText (lines : List Line) : String :=
  String.join <| lines.filterMap fun
    | .output text => some (text ++ "\n")
    | _ => none

/-- The lines of the error channel, the first with `begun` before it. -/
def Line.errorLinesFrom (begun : String) : List Line → List String
  | [] => if begun.isEmpty then [] else [begun]
  | .output _ :: rest => errorLinesFrom begun rest
  | .remark text :: rest => errorLinesFrom (begun ++ text) rest
  | .error text :: rest => (begun ++ text) :: errorLinesFrom "" rest

/-- The lines of the error channel. -/
def Line.errorLines (lines : List Line) : List String := errorLinesFrom "" lines

/-- The lines for the result of one datum of a named text. -/
def resultLines (name source : String) : Except EvalError Value → List Line
  | .ok v => if v.isUnspecified then [] else [.output v.text]
  | .error e => (e.diagnostic.lines name source).map .error

/-- The lines for the run of a named text. -/
def Run.lines (run : Run) (name source : String) : List Line :=
  run.results.flatMap (resultLines name source) ++
    match run.stopped with
    | some e => (e.lines name source).map .error
    | none => []

/-- Whether anything went wrong in a run. -/
def Run.failed (run : Run) : Bool :=
  run.stopped.isSome || run.results.any fun
    | .error _ => true
    | .ok _ => false

end MiniScheme
