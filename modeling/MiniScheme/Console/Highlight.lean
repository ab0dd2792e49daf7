import MiniScheme.Console.Balance

/-!
# Colours for a line

String literals are green. Brackets outside of them are matched by a stack: a closing bracket that
does not match is red, with the opening bracket it met; if the cursor stands behind one bracket of a
pair that matches, both are blue. Comments and character literals are not looked at.

The output is made in one pass. An opening bracket goes to it plain, and its place in the output is
remembered; if it gets a colour, the coloured bracket is put in that place later.
-/
namespace MiniScheme.Highlight

inductive Colour where
  | plain
  | green
  | blue
  | boldBlue
  | red
  | boldRed
  deriving DecidableEq, Repr

/-- The control sequence that begins a colour. -/
def Colour.code? : Colour → Option String
  | .plain => none
  | .green => some "\x1b[32m"
  | .blue => some "\x1b[34m"
  | .boldBlue => some "\x1b[1;34m"
  | .red => some "\x1b[31m"
  | .boldRed => some "\x1b[1;31m"

/-- A character between the sequences that begin and end its colour. -/
def paint (c : Char) (colour : Colour) : String :=
  match colour.code? with
  | none => String.singleton c
  | some code => code ++ String.singleton c ++ "\x1b[0m"

/-- Puts a new text in the place of the bytes from `start` to `stop` of a text. It fails if these
are not all bytes of the text, or begin or end inside a character. -/
def replaceRange? (text : String) (start stop : Nat) (new : String) : Option String :=
  if start ≤ stop ∧ String.Pos.Raw.IsValid text ⟨start⟩ ∧ String.Pos.Raw.IsValid text ⟨stop⟩ then
    let before := String.Pos.Raw.extract text 0 ⟨start⟩
    let after := String.Pos.Raw.extract text ⟨stop⟩ text.rawEndPos
    some (before ++ new ++ after)
  else none

/-- An opening bracket not closed yet, with its byte offset in the line and its place, the byte
offset at which it stands in the output. -/
structure Open where
  bracket : Bracket
  offset : Nat
  place : Nat
  deriving DecidableEq, Repr

/-- What is known after some characters of a line: whether they end in a string, the open brackets,
innermost first, the bytes read, and the output so far. -/
structure State where
  mode : Balance.Mode
  stack : List Open
  offset : Nat
  output : String
  deriving DecidableEq, Repr

/-- Before the first character. -/
def State.start : State := ⟨.code, [], 0, ""⟩

/-- Adds a character with its colour. -/
def State.put (s : State) (c : Char) (colour : Colour) : State :=
  { s with offset := s.offset + c.utf8Size, output := s.output ++ paint c colour }

/-- Colours an opening bracket that stands plain in the output. -/
def State.repaint? (s : State) (o : Open) (colour : Colour) : Option State :=
  let opening := o.bracket.opening
  (replaceRange? s.output o.place (o.place + opening.utf8Size) (paint opening colour)).map
    fun output => { s with output }

/-- Whether the cursor stands right behind the character at an offset. -/
def isBehind (cursor offset : Nat) : Bool := cursor == offset + 1

/-- One character outside of a string. -/
def stepCode? (cursor : Nat) (s : State) (c : Char) : Option State :=
  match Balance.opened? c, Balance.closed? c with
  | some b, _ =>
    let o : Open := ⟨b, s.offset, s.output.utf8ByteSize⟩
    some ({ s with stack := o :: s.stack }.put c .plain)
  | none, some b =>
    match s.stack with
    | [] => some (s.put c .red)
    | o :: rest =>
      let popped := { s with stack := rest }
      if o.bracket = b then
        if isBehind cursor o.offset || isBehind cursor s.offset then
          (popped.put c .blue).repaint? o .boldBlue
        else some (popped.put c .plain)
      else (popped.put c .red).repaint? o .boldRed
  | none, none =>
    if c = '"' then some ({ s with mode := .string }.put c .green) else some (s.put c .plain)

/-- One character. -/
def step? (cursor : Nat) (s : State) (c : Char) : Option State :=
  match s.mode with
  | .string | .escape => some ({ s with mode := s.mode.after c }.put c .green)
  | _ => stepCode? cursor s c

/-- The characters of a line, for a cursor at a byte offset. -/
def run? (cursor : Nat) (cs : List Char) : Option State := cs.foldlM (step? cursor) .start

/-- A line with the control sequences of its colours. -/
def render (line : String) (cursor : Nat) : String :=
  match run? cursor line.toList with
  | some s => s.output
  | none => line

end MiniScheme.Highlight
