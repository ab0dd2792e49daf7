import MiniScheme.Datum.Read

/-!
# The command line

What the words of a command line ask for: files, expressions, a limit on nesting, or the interactive
loop. A value may follow its option as the next word or after an equals sign, and that of `-e` also
at once; after `--` every word is a file. The option `-v` asks for more lines in a log; there is no
log, so it is taken and changes nothing.

Options of one letter do not share a word, of several limits the last counts, and the next word is
taken for a value whatever it begins with.
-/
namespace MiniScheme

structure Options where
  files : List String
  expressions : List String
  maxDepth : Nat
  interactive : Bool
  deriving DecidableEq, Repr

/-- Why a command line is refused. -/
inductive OptionFault where
  | missingValue (option : String)
  | invalidDepth (text : String)
  | unknown (option : String)
  deriving DecidableEq, Repr

def OptionFault.message : OptionFault → String
  | .missingValue option => "a value is required for '" ++ option ++ "' but none was supplied"
  | .invalidDepth text => "invalid value '" ++ text ++ "' for '--max-depth'"
  | .unknown option => "unexpected argument '" ++ option ++ "' found"

namespace Options

def none : Options := ⟨[], [], defaultMaxDepth, false⟩

/-- A word cut at its first equals sign, or behind the option `-e`. -/
def splitValue (word : List Char) : List Char × Option (List Char) :=
  match word with
  | '-' :: 'e' :: '=' :: value => (['-', 'e'], some value)
  | '-' :: 'e' :: c :: value => (['-', 'e'], some (c :: value))
  | _ =>
    match word.dropWhile (· ≠ '=') with
    | [] => (word, .none)
    | _ :: value => (word.takeWhile (· ≠ '='), some value)

/-- Sets the limit on nesting. -/
def setDepth (o : Options) (text : String) : Except OptionFault Options :=
  let ds := text.toList
  if ds.isEmpty || !ds.all Char.isDigit then .error (.invalidDepth text)
  else .ok { o with maxDepth := Number.Decimal.ofDigits ds }

/-- Reads words after the options `o`; files and expressions keep their order. -/
def parseFrom (o : Options) : List String → Except OptionFault Options
  | [] => .ok o
  | "--" :: files => .ok { o with files := o.files ++ files }
  | word :: rest =>
    let (option, value) := splitValue word.toList
    match String.ofList option, value, rest with
    | "--repl", .none, rest => parseFrom { o with interactive := true } rest
    | "-v", .none, rest => parseFrom o rest
    | "--verbose", .none, rest => parseFrom o rest
    | "-e", .none, text :: rest =>
      parseFrom { o with expressions := o.expressions ++ [text] } rest
    | "--eval", .none, text :: rest =>
      parseFrom { o with expressions := o.expressions ++ [text] } rest
    | "--max-depth", .none, text :: rest =>
      match o.setDepth text with
      | .error e => .error e
      | .ok o => parseFrom o rest
    | "-e", some text, rest =>
      parseFrom { o with expressions := o.expressions ++ [String.ofList text] } rest
    | "--eval", some text, rest =>
      parseFrom { o with expressions := o.expressions ++ [String.ofList text] } rest
    | "--max-depth", some text, rest =>
      match o.setDepth (String.ofList text) with
      | .error e => .error e
      | .ok o => parseFrom o rest
    | name, _, rest =>
      if name ∈ ["-e", "--eval", "--max-depth"] then .error (.missingValue name)
      else
        match option with
        | '-' :: _ :: _ => .error (.unknown word)
        | _ => parseFrom { o with files := o.files ++ [word] } rest

/-- Reads the words of a command line. -/
def parse (words : List String) : Except OptionFault Options := parseFrom .none words

end Options
end MiniScheme
