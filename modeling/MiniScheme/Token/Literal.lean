import MiniScheme.Token.Lexeme

/-!
# Literals

What the text of a lexeme stands for. The patterns admit some texts that stand for nothing (a string
without its closing quote, an unknown escape, a character name nobody gave), so that the fault can
be named with the whole lexeme at hand.
-/
namespace MiniScheme.Literal

/-- The character that an escape in a string stands for. -/
def escaped? : Char → Option Char
  | 'n' => some '\n'
  | 'r' => some '\r'
  | 't' => some '\t'
  | '\\' => some '\\'
  | '"' => some '"'
  | _ => none

/-- The contents of a string, from after its opening quote to its closing one. The first fault from
the left is the one reported. -/
def unescape : List Char → Except LexicalFault (List Char)
  | [] => .error .unterminatedString
  | '"' :: _ => .ok []
  | '\\' :: [] => .error .unterminatedString
  | '\\' :: c :: cs =>
    match escaped? c with
    | none => .error (.unknownEscape c)
    | some d => (unescape cs).map (d :: ·)
  | c :: cs => (unescape cs).map (c :: ·)

/-- A character literal: a name or a single character after the two marks. -/
def character (text : List Char) : Except LexicalFault Char :=
  let body := text.drop 2
  match Atom.characterNamed? (String.ofList body) with
  | some c => .ok c
  | none =>
    match body with
    | [c] => .ok c
    | _ => .error (.invalidCharacter (String.ofList text))

/-- A number literal. -/
def number (text : List Char) : Except LexicalFault Float :=
  match Number.Decimal.ofLiteral? text with
  | some d => .ok d.toFloat
  | none => .error (.invalidNumber (String.ofList text))

/-- The token that a lexeme with a text is, or its fault. What is skipped is no token. -/
def decode (lexeme : Lexeme) (text : List Char) : Except LexicalFault Token.Kind :=
  match lexeme with
  | .opener b => .ok (.opener b)
  | .closer b => .ok (.closer b)
  | .dot => .ok .dot
  | .quote => .ok .quote
  | .boolean b => .ok (.atom (.boolean b))
  | .number => (number text).map fun x => .atom (.number x)
  | .character => (character text).map fun c => .atom (.character c)
  | .string => (unescape (text.drop 1)).map fun cs => .atom (.string (String.ofList cs))
  | .symbol => .ok (.atom (.symbol (String.ofList text)))
  | .blank => .error .invalidToken
  | .comment => .error .invalidToken
  | .unknown => .error .invalidToken

end MiniScheme.Literal
