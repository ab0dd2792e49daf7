import MiniScheme.Source.Position
import MiniScheme.Token

/-!
# Balance of brackets

Whether a text that is being typed can be handed on. Brackets are matched outside strings and
comments; nothing else of the token patterns is looked at, so a bracket in a character literal
counts as a bracket.
-/
namespace MiniScheme.Balance

/-- What is known of a text: it is complete, it lacks something, or the closing bracket at an offset
closes nothing. -/
inductive Verdict where
  | valid
  | incomplete
  | invalid (closer : Bracket) (offset : Nat)
  deriving DecidableEq, Repr

/-- What is said of a verdict, if anything. -/
def Verdict.message? : Verdict → Option String
  | .invalid b offset =>
    some ("  - Unmatched '" ++ String.singleton b.closing ++ "' at position " ++ offset.repr)
  | _ => none

/-- Where in the text a character stands. -/
inductive Mode where
  | code
  | comment
  | string
  | escape
  deriving DecidableEq, Repr

/-- The bracket a character opens. -/
def opened? : Char → Option Bracket
  | '(' => some .round
  | '[' => some .square
  | _ => none

/-- The bracket a character closes. -/
def closed? : Char → Option Bracket
  | ')' => some .round
  | ']' => some .square
  | _ => none

/-- The mode after a character that is no bracket of the code. -/
def Mode.after (c : Char) : Mode → Mode
  | .code => if c = '"' then .string else if c = ';' then .comment else .code
  | .comment => if c = '\n' then .code else .comment
  | .string => if c = '\\' then .escape else if c = '"' then .code else .string
  | .escape => .string

/-- Checks a text from an offset, in a mode, with the brackets open, innermost first. -/
def checkFrom (mode : Mode) (stack : List Bracket) (offset : Nat) : List Char → Verdict
  | [] =>
    match mode with
    | .string => .incomplete
    | .escape => .incomplete
    | _ => if stack.isEmpty then .valid else .incomplete
  | c :: cs =>
    let next := offset + c.utf8Size
    if mode = .code then
      match opened? c, closed? c with
      | some b, _ => checkFrom .code (b :: stack) next cs
      | none, some b =>
        match stack with
        | top :: rest => if top = b then checkFrom .code rest next cs else .invalid b offset
        | [] => .invalid b offset
      | none, none => checkFrom (mode.after c) stack next cs
    else checkFrom (mode.after c) stack next cs

/-- The verdict on a text. -/
def check (cs : List Char) : Verdict := checkFrom .code [] 0 cs

end MiniScheme.Balance
