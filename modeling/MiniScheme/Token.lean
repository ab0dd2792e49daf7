import MiniScheme.Atom
import MiniScheme.Source.Span

/-!
# Tokens

A token is a bracket, a dot, a quote mark or an atom, with the span it covers and the line it begins
on. What the scanner cannot make a token of is a lexical error with the same two places and the text
at fault.
-/
namespace MiniScheme

/-- The two shapes of brackets. They mean the same and must match. -/
inductive Bracket where
  | round
  | square
  deriving DecidableEq, Repr

namespace Bracket

def opening : Bracket → Char
  | .round => '('
  | .square => '['

def closing : Bracket → Char
  | .round => ')'
  | .square => ']'

end Bracket

namespace Token

/-- What a token is, wherever it stands. -/
inductive Kind where
  | opener (b : Bracket)
  | closer (b : Bracket)
  | dot
  | quote
  | atom (a : Atom)
  deriving DecidableEq, Repr

/-- The token as source text. A string shows all its characters. -/
def Kind.text : Kind → String
  | .opener b => String.singleton b.opening
  | .closer b => String.singleton b.closing
  | .dot => "."
  | .quote => "'"
  | .atom a => String.ofList (a.charsBy Text.visibleEscape)

end Token

/-- A token in its place. Lines are numbered from one. -/
structure Token where
  kind : Token.Kind
  span : Span
  line : Nat
  deriving DecidableEq, Repr

/-- The token as source text. -/
def Token.text (t : Token) : String := t.kind.text

/-- Why a lexeme is no token. -/
inductive LexicalFault where
  | unterminatedString
  | invalidNumber (text : String)
  | invalidCharacter (text : String)
  | unknownEscape (c : Char)
  | invalidToken
  deriving DecidableEq, Repr

def LexicalFault.message : LexicalFault → String
  | .unterminatedString => "Unterminated string literal"
  | .invalidNumber text => "Invalid number format: '" ++ text ++ "'"
  | .invalidCharacter text => "Invalid character literal: '" ++ text ++ "'"
  | .unknownEscape c => "Unknown escape sequence: '\\" ++ String.singleton c ++ "'"
  | .invalidToken => "Invalid token"

/-- A fault in its place, with the source text of the span. -/
structure LexicalError where
  fault : LexicalFault
  span : Span
  line : Nat
  text : String
  deriving DecidableEq, Repr

def LexicalError.message (e : LexicalError) : String :=
  "line " ++ e.line.repr ++ ": " ++ e.fault.message ++ " in \"" ++ e.text ++ "\""

end MiniScheme
