import MiniScheme.Session
import MiniScheme.Source.Position

/-!
# Diagnostics

What is shown of an error: a title, a label, and the place in the shown text that the label is put
at. A place counts characters: the offsets of a span, which count bytes, are taken for numbers of
characters once they have been cut to the length of the text. So in a text with characters of
several bytes before the error the place lies further on than the error, and it may lie outside the
text, where nothing is pointed at.
-/
namespace MiniScheme

/-- A line and a column, both counted from one. -/
structure Place where
  line : Nat
  column : Nat
  deriving DecidableEq, Repr

namespace Place

/-- The characters that end a line. -/
def lineEnds : List Char :=
  ['\n', '\r', '\x0b', '\x0c', Char.ofNat 0x85, Char.ofNat 0x2028, Char.ofNat 0x2029]

/-- Whether a line ends after `c`, given what follows. A return and the newline after it end one
line together, and the end of the text begins no new line. -/
def endsLine (c : Char) (rest : List Char) : Bool :=
  c ∈ lineEnds && !rest.isEmpty && !(c = '\r' && rest.head? = some '\n')

/-- The place `n` characters on from a place with the text `cs` before it. -/
def forward (p : Place) : Nat → List Char → Place
  | 0, _ => p
  | n + 1, [] => ⟨p.line, p.column + (n + 1)⟩
  | n + 1, c :: cs =>
    if endsLine c cs then forward ⟨p.line + 1, 1⟩ n cs
    else forward ⟨p.line, p.column + 1⟩ n cs

/-- The place after `n` characters of a text. -/
def ofOffset (cs : List Char) (n : Nat) : Place := forward ⟨1, 1⟩ n cs

def text (p : Place) : String := p.line.repr ++ ":" ++ p.column.repr

end Place

structure Diagnostic where
  title : String
  label : String
  span : Span
  deriving DecidableEq, Repr

namespace Diagnostic

/-- A span cut to the bytes of a text. -/
def clamp (shown : String) (s : Span) : Span :=
  let stop := min s.stop shown.utf8ByteSize
  ⟨min s.start stop, stop⟩

/-- The place to point at in the shown text. There is none if the span begins, or its last character
lies, beyond the end of the text. -/
def place? (d : Diagnostic) (shown : String) : Option Place :=
  let s := clamp shown d.span
  let count := shown.length
  if count < s.start ∨ (s.start < s.stop ∧ count < s.stop - 1) then none
  else some (.ofOffset shown.toList s.start)

/-- The label, if all it is put at lies in the shown text. -/
def label? (d : Diagnostic) (shown : String) : Option String :=
  if (clamp shown d.span).stop ≤ shown.length then some d.label else none

/-- The lines written for a diagnostic about a named text. -/
def lines (d : Diagnostic) (name shown : String) : List String :=
  let place := (d.place? shown).map fun p => "  at " ++ name ++ ":" ++ p.text
  let label := (d.label? shown).map fun l => "  " ++ l
  ("Error: " ++ d.title) :: (place.toList ++ label.toList)

end Diagnostic

def LexicalError.diagnostic (e : LexicalError) : Diagnostic :=
  ⟨"Lexer Error", e.fault.message, e.span⟩

/-- The diagnostic of a reading error; one about an empty text points at the end of the shown
text. -/
def ReadError.diagnostic (shown : String) : ReadError → Diagnostic
  | .unexpected found expected =>
    ⟨"Unexpected token: " ++ found.text, "Expected " ++ expected.text, found.span⟩
  | .unclosed opener b =>
    ⟨"Unclosed list",
     "This " ++ opener.text ++ " is never closed with " ++ String.singleton b.closing, opener.span⟩
  | .nothingBeforeDot dot =>
    ⟨"Invalid dot syntax", "An expression is expected before the dot", dot.span⟩
  | .nothingAfterQuote mark =>
    ⟨"Unexpected end of input", "Expected " ++ Expectation.datum.text ++ " after this", mark.span⟩
  | .emptyInput =>
    ⟨"Unexpected end of input", "Expected a datum",
     ⟨shown.utf8ByteSize - 1, shown.utf8ByteSize⟩⟩
  | .tooDeep token limit =>
    ⟨"Nesting too deep", "This exceeds the limit of " ++ limit.repr ++ " nested levels", token.span⟩
  | .lexical e => e.diagnostic

def EvalError.diagnostic (e : EvalError) : Diagnostic :=
  let (title, label) : String × String :=
    match e with
    | .unbound name _ =>
      ("Unbound symbol `" ++ name ++ "`", "This symbol is not defined in the current scope")
    | .arity _ _ _ => ("Wrong number of arguments", e.message)
    | .notProcedure v _ =>
      ("Not a procedure: " ++ v.text, "This expression cannot be called as a procedure")
    | .argument fault _ => ("Invalid arguments", fault.message)
    | .notSymbol v => ("Not a symbol: " ++ v.text, "Expected a symbol but found a " ++ v.typeName)
    | .malformed fault _ =>
      ("Invalid special form: " ++ fault.message, "This special form is malformed or incomplete")
    | .emptyApplication _ =>
      ("Application operator must have a procedure", "The empty list cannot be called")
    | .notCode v => ("Internal error", EvalError.notCodeMessage v)
  ⟨title, label, e.span⟩

/-- The lines written for an error that ended the run of a named text. -/
def RunError.lines (name shown : String) : RunError → List String
  | .read e => (e.diagnostic shown).lines name shown
  | .eval e => e.diagnostic.lines name shown
  | .internal message => [name ++ ": internal error: " ++ message]
  | .exhausted => ["Error: " ++ RunError.exhausted.message]

end MiniScheme
