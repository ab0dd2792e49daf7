import MiniScheme.Datum
import MiniScheme.Token.Scan

/-!
# Reading data

A reader goes through the items of a text once, with a stack of the lists and quote marks that are
not finished yet, innermost first. A finished datum goes to the innermost of them, or is the result
when there is none. The height of the stack is the nesting depth, which is bounded.

An error ends the datum at hand. What follows the item at fault is left for the next datum.
-/
namespace MiniScheme

/-- The nesting depth allowed unless another is asked for. -/
def defaultMaxDepth : Nat := 512

/-- What a reader would have taken instead of the token it found. -/
inductive Expectation where
  | datum
  | closerOf (b : Bracket) (line : Nat)
  | closerAfterTail (b : Bracket)
  | endOfInput
  deriving DecidableEq, Repr

def Expectation.text : Expectation → String
  | .datum => "a datum"
  | .closerOf b line =>
    String.singleton b.closing ++ " to close " ++ String.singleton b.opening ++ " from line " ++
      line.repr
  | .closerAfterTail b => String.singleton b.closing ++ " after the datum following ."
  | .endOfInput => "end of input"

/-- Why no datum could be read. -/
inductive ReadError where
  | unexpected (found : Token) (expected : Expectation)
  | unclosed (opener : Token) (b : Bracket)
  | nothingBeforeDot (dot : Token)
  | nothingAfterQuote (mark : Token)
  | emptyInput
  | tooDeep (token : Token) (limit : Nat)
  | lexical (e : LexicalError)
  deriving DecidableEq, Repr

def ReadError.message : ReadError → String
  | .unexpected found expected =>
    "line " ++ found.line.repr ++ ": expected " ++ expected.text ++ " but found \"" ++
      found.text ++ "\""
  | .unclosed opener b =>
    "line " ++ opener.line.repr ++ ": " ++ opener.text ++ " must be closed with " ++
      String.singleton b.closing
  | .nothingBeforeDot dot =>
    "line " ++ dot.line.repr ++ ": expression expected before " ++ dot.text
  | .nothingAfterQuote mark =>
    "line " ++ mark.line.repr ++ ": expected " ++ Expectation.datum.text ++ " after \"" ++
      mark.text ++ "\" but found end of input"
  | .emptyInput => "expected a datum but found end of input"
  | .tooDeep token limit =>
    "line " ++ token.line.repr ++ ": nesting deeper than " ++ limit.repr ++ " levels at \"" ++
      token.text ++ "\""
  | .lexical e => e.message

namespace Reader

/-- Something begun that waits for a datum: a list with its elements so far, last first; such a list
after its dot; a quote mark. -/
inductive Pending where
  | list (opener : Token) (b : Bracket) (elements : List Datum)
  | dotted (opener : Token) (b : Bracket) (elements : List Datum)
  | quote (mark : Token)
  deriving DecidableEq, Repr

/-- Where a reader stands: it expects a datum, or it has read the datum after a dot and waits for
the closing bracket only. -/
inductive State where
  | expecting (stack : List Pending)
  | closing (opener : Token) (b : Bracket) (elements : List Datum) (tail : Datum)
      (stack : List Pending)
  deriving DecidableEq, Repr

/-- A step leads to a further state or finishes the outermost datum. -/
inductive Progress where
  | more (s : State)
  | done (d : Datum)
  deriving DecidableEq, Repr

/-- The list with elements, last first, and a tail, from its opening bracket to the end offset of
its closing one. -/
def finish (opener : Token) (elements : List Datum) (tail : Datum) (stop : Nat) : Datum :=
  (Datum.ofList elements.reverse tail).withSpan ⟨opener.span.start, stop⟩

/-- Gives a finished datum to the innermost of what waits for one. -/
def feed (d : Datum) : List Pending → Progress
  | [] => .done d
  | .list opener b elements :: stack => .more (.expecting (.list opener b (d :: elements) :: stack))
  | .dotted opener b elements :: stack => .more (.closing opener b elements d stack)
  | .quote mark :: stack => feed (Datum.quoted mark.span d) stack

/-- Puts a new list or quote mark on the stack, if the limit allows. -/
def enter (limit : Nat) (token : Token) (p : Pending) (stack : List Pending) :
    Except ReadError Progress :=
  if limit ≤ stack.length then .error (.tooDeep token limit)
  else .ok (.more (.expecting (p :: stack)))

/-- A closing bracket where a datum may begin. It is right only for the innermost list of its own
shape; the empty list at its end covers the bracket alone. -/
def close (token : Token) (b : Bracket) : List Pending → Except ReadError Progress
  | .list opener b' elements :: stack =>
    if b = b' then
      let stop := token.span.stop
      .ok (feed (finish opener elements (.nil ⟨stop - 1, stop⟩) stop) stack)
    else .error (.unexpected token (.closerOf b' opener.line))
  | _ => .error (.unexpected token .datum)

/-- A dot where a datum may begin. It is right only after some element of a list. -/
def dot (token : Token) : List Pending → Except ReadError Progress
  | .list _ _ [] :: _ => .error (.nothingBeforeDot token)
  | .list opener b elements :: stack =>
    .ok (.more (.expecting (.dotted opener b elements :: stack)))
  | _ => .error (.unexpected token .datum)

/-- One token. -/
def step (limit : Nat) (s : State) (token : Token) : Except ReadError Progress :=
  match s with
  | .expecting stack =>
    match token.kind with
    | .atom a => .ok (feed (.atom token.span a) stack)
    | .opener b => enter limit token (.list token b []) stack
    | .quote => enter limit token (.quote token) stack
    | .closer b => close token b stack
    | .dot => dot token stack
  | .closing opener b elements tail stack =>
    if token.kind = .closer b then .ok (feed (finish opener elements tail token.span.stop) stack)
    else .error (.unexpected token (.closerAfterTail b))

/-- The error when the items end in a state. -/
def State.unfinished : State → ReadError
  | .closing opener b _ _ _ => .unclosed opener b
  | .expecting (.list opener b _ :: _) => .unclosed opener b
  | .expecting (.dotted opener b _ :: _) => .unclosed opener b
  | .expecting (.quote mark :: _) => .nothingAfterQuote mark
  | .expecting [] => .emptyInput

/-- Reads on from a state: a datum or an error, and the items after it. -/
def readFrom (limit : Nat) (s : State) : List Item → Except ReadError Datum × List Item
  | [] => (.error s.unfinished, [])
  | .error e :: rest => (.error (.lexical e), rest)
  | .ok token :: rest =>
    match step limit s token with
    | .error e => (.error e, rest)
    | .ok (.done d) => (.ok d, rest)
    | .ok (.more s') => readFrom limit s' rest

/-- Reads the first datum of the items. -/
def read (limit : Nat) (items : List Item) : Except ReadError Datum × List Item :=
  readFrom limit (.expecting []) items

theorem length_readFrom_le (limit : Nat) (s : State) (items : List Item) :
    (readFrom limit s items).2.length ≤ items.length - 1 := by
  induction items generalizing s with
  | nil => simp [readFrom]
  | cons item rest ih =>
    unfold readFrom
    split
    · simp
    · simp_all
    · rename_i token rest' h
      cases h
      split
      · simp
      · simp
      · rename_i s' _
        have := ih s'
        simp only [List.length_cons]
        omega

theorem length_read_cons (limit : Nat) (item : Item) (rest : List Item) :
    (read limit (item :: rest)).2.length < (item :: rest).length := by
  have := length_readFrom_le limit (.expecting []) (item :: rest)
  simp only [read, List.length_cons] at *
  omega

/-- Reads data up to the end of the items or up to the first error, which is the last result. -/
def readAll (limit : Nat) : List Item → List (Except ReadError Datum)
  | [] => []
  | item :: rest =>
    let result := read limit (item :: rest)
    match result.1 with
    | .error e => [.error e]
    | .ok d => .ok d :: readAll limit result.2
termination_by items => items.length
decreasing_by exact length_read_cons limit item rest

end Reader

/-- A reader in the middle of a text. -/
structure Reader where
  limit : Nat
  items : List Item
  failed : Bool
  deriving Repr

namespace Reader

/-- A reader at the start of a text. -/
def ofSource (limit : Nat) (source : String) : Reader := ⟨limit, scan source, false⟩

/-- The next datum or error, `none` at the end. After an error it goes on with the item after the
one at fault. -/
def next (r : Reader) : Option (Except ReadError Datum) × Reader :=
  match r.items with
  | [] => (none, r)
  | items =>
    let (result, rest) := read r.limit items
    (some result, { r with items := rest })

/-- As `next`, but nothing more after an error that this function has given. -/
def nextUnlessFailed (r : Reader) : Option (Except ReadError Datum) × Reader :=
  if r.failed then (none, r)
  else
    match r.next with
    | (some (.error e), r') => (some (.error e), { r' with failed := true })
    | result => result

end Reader

namespace Datum

/-- Reads exactly one datum; anything after it is an error. -/
def parse (source : String) : Except ReadError Datum :=
  match Reader.read defaultMaxDepth (scan source) with
  | (.error e, _) => .error e
  | (.ok d, []) => .ok d
  | (.ok _, .error e :: _) => .error (.lexical e)
  | (.ok _, .ok token :: _) => .error (.unexpected token .endOfInput)

/-- Reads every datum of a text, or gives its first error. -/
def parseAll (source : String) : Except ReadError (List Datum) :=
  (Reader.readAll defaultMaxDepth (scan source)).mapM id

end Datum
end MiniScheme
