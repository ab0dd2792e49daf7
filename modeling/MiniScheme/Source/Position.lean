/-!
# Positions in a text

A position is a byte offset together with the number of the line it is on. Lines are numbered from
one and end at a newline.
-/
namespace MiniScheme

/-- Number of bytes of a text in UTF-8. -/
def byteLength (cs : List Char) : Nat :=
  cs.foldr (fun c n => c.utf8Size + n) 0

/-- A place between two characters of a text. -/
structure Position where
  offset : Nat
  line : Nat
  deriving DecidableEq, Repr

namespace Position

/-- Before the first character. -/
def first : Position := ⟨0, 1⟩

/-- The position after a stretch of text that begins here. -/
def advance (p : Position) (cs : List Char) : Position :=
  ⟨p.offset + byteLength cs, p.line + cs.count '\n'⟩

end Position

@[simp] theorem byteLength_nil : byteLength [] = 0 := rfl

@[simp] theorem byteLength_cons (c : Char) (cs : List Char) :
    byteLength (c :: cs) = c.utf8Size + byteLength cs := rfl

@[simp] theorem byteLength_append (cs ds : List Char) :
    byteLength (cs ++ ds) = byteLength cs + byteLength ds := by
  induction cs with
  | nil => simp
  | cons c cs ih => simp [ih, Nat.add_assoc]

theorem Position.advance_append (p : Position) (cs ds : List Char) :
    p.advance (cs ++ ds) = (p.advance cs).advance ds := by
  simp [advance, Nat.add_assoc]

end MiniScheme
