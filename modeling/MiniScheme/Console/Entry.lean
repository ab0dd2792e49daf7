import MiniScheme.Console.Balance
import MiniScheme.Console.Typed

/-!
# Entries

Lines are gathered until their brackets balance. What has been gathered is checked after every line,
without the end of that line and with its backspaces applied; an entry is what was found complete. A
text with a bracket that closes nothing is kept without that end and stays so, unless a later line
takes the bracket back. An entry that is not complete at the end of the input is dropped.
-/
namespace MiniScheme.Entry

/-- The lines of a text, each with its newline; the last may lack it. -/
def lines : List Char → List (List Char)
  | [] => []
  | c :: cs =>
    if c = '\n' then [c] :: lines cs
    else
      match lines cs with
      | [] => [[c]]
      | line :: rest => (c :: line) :: rest

/-- A text without the end of its last line, and that end: a newline with the return before it. -/
def splitEnd (cs : List Char) : List Char × List Char :=
  match cs.reverse with
  | '\n' :: '\r' :: body => (body.reverse, ['\r', '\n'])
  | '\n' :: body => (body.reverse, ['\n'])
  | _ => (cs, [])

/-- A text that was checked, and the verdict on it. -/
structure Check where
  text : List Char
  verdict : Balance.Verdict
  deriving DecidableEq, Repr

/-- Adds a line to what has been gathered: the check made, and what is gathered after it. -/
def absorb (gathered line : List Char) : Check × List Char :=
  let (typed, ending) := splitEnd (gathered ++ line)
  let body := Typed.corrected typed
  let verdict := Balance.check body
  let kept := match verdict with
    | .valid => []
    | .incomplete => body ++ ending
    | .invalid _ _ => body
  (⟨body, verdict⟩, kept)

/-- The checks made while lines are read. -/
def checksFrom (gathered : List Char) : List (List Char) → List Check
  | [] => []
  | line :: rest =>
    let (check, kept) := absorb gathered line
    check :: checksFrom kept rest

/-- The checks made while a text is read. -/
def checks (cs : List Char) : List Check := checksFrom [] (lines cs)

end MiniScheme.Entry
