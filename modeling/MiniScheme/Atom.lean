import MiniScheme.Number.Shortest
import MiniScheme.Text.Quoted

/-!
# Atoms

The indivisible data: booleans, numbers, characters, strings and symbols. Numbers are doubles and
are compared as doubles are, so a number that is not a number equals nothing and the two zeros are
equal.
-/
namespace MiniScheme

inductive Atom where
  | boolean (b : Bool)
  | number (x : Float)
  | character (c : Char)
  | string (s : String)
  | symbol (name : String)
  deriving DecidableEq, Repr

namespace Atom

/-- Characters that have names. Each name is longer than one character, so a named literal is never
the literal of its first character. -/
def characterNames : List (String × Char) :=
  [("nul", '\x00'), ("tab", '\t'), ("newline", '\n'), ("return", '\r'), ("space", ' ')]

/-- The character with a name. -/
def characterNamed? (name : String) : Option Char :=
  (characterNames.find? (·.1 == name)).map (·.2)

/-- The name of a character. -/
def characterName? (c : Char) : Option String :=
  (characterNames.find? (·.2 == c)).map (·.1)

/-- Equality of atoms as a program sees it. -/
def equal : Atom → Atom → Bool
  | .boolean a, .boolean b => a == b
  | .number a, .number b => a == b
  | .character a, .character b => a == b
  | .string a, .string b => a == b
  | .symbol a, .symbol b => a == b
  | _, _ => false

/-- Name of the atom's type. -/
def typeName : Atom → String
  | .boolean _ => "boolean"
  | .number _ => "number"
  | .character _ => "character"
  | .string _ => "string"
  | .symbol _ => "symbol"

/-- The literal for a character: its name if it has one. -/
def characterChars (c : Char) : List Char :=
  '#' :: '\\' :: match characterName? c with
    | some name => name.toList
    | none => [c]

/-- The written form of an atom, with the characters of a string written by `escape`. -/
def charsBy (escape : Char → List Char) : Atom → List Char
  | .boolean true => ['#', 't']
  | .boolean false => ['#', 'f']
  | .number x => Number.text x
  | .character c => characterChars c
  | .string s => Text.quoted escape s.toList
  | .symbol name => name.toList

/-- The written form of an atom in a printed value. -/
def chars (a : Atom) : List Char := a.charsBy Text.plainEscape

end Atom
end MiniScheme
