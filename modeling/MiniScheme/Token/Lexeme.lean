import MiniScheme.Text.CharClass
import MiniScheme.Token

/-!
# Lexemes

A lexeme is the longest stretch of text that some token pattern, or one of the two patterns that are
skipped, matches at its start. `classify` finds the class and the length of the lexeme that begins
with a given character. The classes that share a first character (numbers, signs, arrows and dots)
are told apart here by what follows; no two classes match the same text.
-/
namespace MiniScheme

/-- The class of a lexeme. -/
inductive Lexeme where
  | blank
  | comment
  | opener (b : Bracket)
  | closer (b : Bracket)
  | dot
  | quote
  | boolean (b : Bool)
  | number
  | character
  | string
  | symbol
  | unknown
  deriving DecidableEq, Repr

namespace Lexeme

/-- The characters skipped between tokens. -/
def isLayout (c : Char) : Bool :=
  c ∈ [' ', '\t', '\n', '\r', '\x0c']

/-- The characters that may begin a symbol. -/
def isInitial (c : Char) : Bool :=
  Text.isLetter c ||
    c ∈ ['!', '$', '%', '&', '*', '/', ':', '<', '=', '>', '?', '^', '_', '~']

/-- The characters that may follow in a symbol. -/
def isSubsequent (c : Char) : Bool :=
  isInitial c || c.isDigit || c ∈ ['+', '-', '.', '@']

/-- The characters that may follow the first one in a character literal. -/
def isNameChar (c : Char) : Bool :=
  !Text.isBlank c && !(c ∈ ['(', ')', '[', ']', '"', ';', '\x27'])

/-- Length of the longest start whose characters all satisfy `p`. -/
def runLength (p : Char → Bool) (cs : List Char) : Nat :=
  (cs.takeWhile p).length

/-- Length of the exponent at the start of a text, zero if none is complete. -/
def exponentLength : List Char → Nat
  | [] => 0
  | c :: cs =>
    if c = 'e' ∨ c = 'E' then
      let signLength := match cs with
        | '+' :: _ => 1
        | '-' :: _ => 1
        | _ => 0
      match runLength Char.isDigit (cs.drop signLength) with
      | 0 => 0
      | n + 1 => 1 + signLength + (n + 1)
    else 0

/-- Length of the digits, with an optional point among or before them, at the start of a text, zero
if there is no digit. -/
def mantissaLength (cs : List Char) : Nat :=
  let whole := runLength Char.isDigit cs
  match cs.drop whole with
  | '.' :: ds =>
    let fraction := runLength Char.isDigit ds
    if whole = 0 ∧ fraction = 0 then 0 else whole + 1 + fraction
  | _ => whole

/-- Length of the unsigned number at the start of a text, zero if there is none. -/
def unsignedLength (cs : List Char) : Nat :=
  match mantissaLength cs with
  | 0 => 0
  | n + 1 => (n + 1) + exponentLength (cs.drop (n + 1))

/-- Length of a string literal after its opening quote: to the closing quote and with it, or to the
end, or to a backslash that a newline or the end follows. -/
def stringLength : List Char → Nat
  | [] => 0
  | '"' :: _ => 1
  | '\\' :: [] => 0
  | '\\' :: c :: cs => if c = '\n' then 0 else 2 + stringLength cs
  | _ :: cs => 1 + stringLength cs

/-- The lexeme that begins with a number sign. -/
def classifyHash : List Char → Lexeme × Nat
  | 't' :: _ => (.boolean true, 1)
  | 'T' :: _ => (.boolean true, 1)
  | 'f' :: _ => (.boolean false, 1)
  | 'F' :: _ => (.boolean false, 1)
  | '\\' :: c :: cs => if c = '\n' then (.unknown, 0) else (.character, 2 + runLength isNameChar cs)
  | _ => (.unknown, 0)

/-- The lexeme that begins with a point: a number, three dots or one. -/
def classifyDot (cs : List Char) : Lexeme × Nat :=
  if runLength Char.isDigit cs = 0 then
    match cs with
    | '.' :: '.' :: _ => (.symbol, 2)
    | _ => (.dot, 0)
  else (.number, unsignedLength ('.' :: cs) - 1)

/-- The lexeme that begins with a plus: a number, or the symbol alone. -/
def classifyPlus (cs : List Char) : Lexeme × Nat :=
  match unsignedLength cs with
  | 0 => (.symbol, 0)
  | n => (.number, n)

/-- The lexeme that begins with a minus: a number, an arrow symbol, or the symbol alone. -/
def classifyMinus (cs : List Char) : Lexeme × Nat :=
  match unsignedLength cs with
  | 0 =>
    match cs with
    | '>' :: ds => (.symbol, 1 + runLength isSubsequent ds)
    | _ => (.symbol, 0)
  | n => (.number, n)

/-- The class of the lexeme that begins with `c`, and how many of the characters `cs` after `c`
belong to it. -/
def classify (c : Char) (cs : List Char) : Lexeme × Nat :=
  match c with
  | ';' => (.comment, runLength (· ≠ '\n') cs)
  | '(' => (.opener .round, 0)
  | ')' => (.closer .round, 0)
  | '[' => (.opener .square, 0)
  | ']' => (.closer .square, 0)
  | '\x27' => (.quote, 0)
  | '"' => (.string, stringLength cs)
  | '#' => classifyHash cs
  | '.' => classifyDot cs
  | '+' => classifyPlus cs
  | '-' => classifyMinus cs
  | c =>
    if isLayout c then (.blank, runLength isLayout cs)
    else if c.isDigit then (.number, unsignedLength (c :: cs) - 1)
    else if isInitial c then (.symbol, runLength isSubsequent cs)
    else (.unknown, 0)

end Lexeme
end MiniScheme
