import MiniScheme.Text.Hidden

/-!
# Quoted texts

Two ways to write a text between double quotes. The plain way escapes what the scanner could not
read back otherwise or would read as a line; the visible way also names, by its code point, every
character that would not be seen.
-/
namespace MiniScheme.Text

/-- A text between double quotes, each character written by `escape`. -/
def quoted (escape : Char → List Char) (cs : List Char) : List Char :=
  '"' :: cs.flatMap escape ++ ['"']

/-- The quote, the backslash and the three line controls have escapes; all else stands for
itself. -/
def plainEscape (c : Char) : List Char :=
  match c with
  | '"' => ['\\', '"']
  | '\\' => ['\\', '\\']
  | '\n' => ['\\', 'n']
  | '\r' => ['\\', 'r']
  | '\t' => ['\\', 't']
  | c => [c]

/-- A code point in braces, in lower case hexadecimal digits. -/
def codeEscape (c : Char) : List Char :=
  '\\' :: 'u' :: '\x7b' :: Nat.toDigits 16 c.toNat ++ ['\x7d']

/-- As `plainEscape`, with an escape for the null character and code points for the characters
that would not be seen. -/
def visibleEscape (c : Char) : List Char :=
  match c with
  | '\x00' => ['\\', '0']
  | '"' => ['\\', '"']
  | '\\' => ['\\', '\\']
  | '\n' => ['\\', 'n']
  | '\r' => ['\\', 'r']
  | '\t' => ['\\', 't']
  | c => if isHidden c then codeEscape c else [c]

end MiniScheme.Text
