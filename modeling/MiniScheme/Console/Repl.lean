import MiniScheme.Console.Entry
import MiniScheme.Transcript

/-!
# The interactive loop

Entries are run one after another in one session, each without the blanks around it, until one says
`exit` or the input ends. The loop is a state that takes one line of input at a time.
-/
namespace MiniScheme.Repl

/-- The name of the source in diagnostics. -/
def sourceName : String := "repl"

/-- What is written at the start. No history of earlier entries is kept, so there is none to be
loaded, whatever files there are. -/
def banner : List Line :=
  [.output "Schemelet REPL v0.1.0", .output "Type 'exit' or press Ctrl-D to quit.",
   .output "No previous history."]

/-- What is written at the end of the input. -/
def farewell : List Line := [.output "", .output "Exiting."]

/-- Whether an entry asks to leave, in letters of any case. -/
def isExit (entry : List Char) : Bool :=
  entry.map Char.toLower == "exit".toList

structure State where
  session : Session
  gathered : List Char
  deriving DecidableEq, Repr

def State.fresh : State := ⟨.fresh defaultMaxDepth, []⟩

/-- Takes an entry: what is written, and the session after it unless the entry asks to leave. -/
def takeEntry (s : Session) (entry : List Char) : List Line × Option Session :=
  let text := Text.trim entry
  if text.isEmpty then ([], some s)
  else if isExit text then ([], none)
  else
    let source := String.ofList text
    let run := s.run source
    (run.lines sourceName source, some run.session)

/-- Takes a line of input: what is written, and the state after it unless it asks to leave. -/
def takeLine (s : State) (line : List Char) : List Line × Option State :=
  let (check, gathered) := Entry.absorb s.gathered line
  match check.verdict with
  | .valid =>
    let (written, session) := takeEntry s.session check.text
    (written, session.map fun session => ⟨session, gathered⟩)
  | .incomplete => ([], some { s with gathered })
  | .invalid b offset =>
    ((Balance.Verdict.invalid b offset).message?.toList.map .remark, some { s with gathered })

/-- Takes lines of input to their end. -/
def takeLines (s : State) : List (List Char) → List Line
  | [] => farewell
  | line :: rest =>
    match takeLine s line with
    | (written, none) => written
    | (written, some s) => written ++ takeLines s rest

/-- All that is written for an input. -/
def transcript (input : String) : List Line :=
  banner ++ takeLines .fresh (Entry.lines input.toList)

end MiniScheme.Repl
