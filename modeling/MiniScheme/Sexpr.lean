import MiniScheme.Atom
import MiniScheme.Source.Span

/-!
# S-expressions

One type of trees serves for what is read and for what is computed. A tree is an atom, the empty
list, a pair, or a leaf of some further type `ρ`; each node has a span and each pair a mark of type
`κ`. Data read from text have no further leaves and no marks worth telling apart; the values of a
running program have both (see `Datum` and `Value`).
-/
namespace MiniScheme

inductive Sexpr (κ ρ : Type) where
  | atom (span : Span) (a : Atom)
  | nil (span : Span)
  | pair (span : Span) (mark : κ) (car cdr : Sexpr κ ρ)
  | leaf (span : Span) (r : ρ)
  deriving DecidableEq, Repr

namespace Sexpr

variable {κ ρ : Type}

/-- The span of the root. -/
def span : Sexpr κ ρ → Span
  | .atom s _ => s
  | .nil s => s
  | .pair s _ _ _ => s
  | .leaf s _ => s

/-- The same tree with another span at its root. -/
def withSpan (s : Span) : Sexpr κ ρ → Sexpr κ ρ
  | .atom _ a => .atom s a
  | .nil _ => .nil s
  | .pair _ m a d => .pair s m a d
  | .leaf _ r => .leaf s r

/-- The elements of a proper list; `none` for a tree that is no such list. -/
def toList? : Sexpr κ ρ → Option (List (Sexpr κ ρ))
  | .nil _ => some []
  | .pair _ _ a d => (toList? d).map (a :: ·)
  | _ => none

/-- The name of a symbol. -/
def symbol? : Sexpr κ ρ → Option String
  | .atom _ (.symbol name) => some name
  | _ => none

/-- Everything but the false boolean counts as true. -/
def isTrue : Sexpr κ ρ → Bool
  | .atom _ (.boolean false) => false
  | _ => true

/-- Name of the tree's type; `leafName` names those of the further leaves. -/
def typeNameBy (leafName : ρ → String) : Sexpr κ ρ → String
  | .atom _ a => a.typeName
  | .nil _ => "empty list"
  | .pair _ _ _ _ => "pair"
  | .leaf _ r => leafName r

/-- All nodes, each before its parts and the first part before the second. -/
def preorder : Sexpr κ ρ → List (Sexpr κ ρ)
  | .pair s m a d => .pair s m a d :: (preorder a ++ preorder d)
  | t => [t]

/-- Equality as a program sees it: spans are ignored, and two pairs are equal at once if `sameMark`
says that they are one. -/
def equalBy (sameMark : κ → κ → Bool) (sameLeaf : ρ → ρ → Bool) : Sexpr κ ρ → Sexpr κ ρ → Bool
  | .atom _ a, .atom _ b => a.equal b
  | .nil _, .nil _ => true
  | .pair _ m a c, .pair _ n b d =>
    sameMark m n || (equalBy sameMark sameLeaf a b && equalBy sameMark sameLeaf c d)
  | .leaf _ r, .leaf _ t => sameLeaf r t
  | _, _ => false

theorem span_withSpan (s : Span) (t : Sexpr κ ρ) : (t.withSpan s).span = s := by
  cases t <;> rfl

mutual

/-- The external form; `leafChars` writes the further leaves. -/
def charsBy (leafChars : ρ → List Char) : Sexpr κ ρ → List Char
  | .atom _ a => a.chars
  | .nil _ => ['(', ')']
  | .pair _ _ a d => '(' :: charsBy leafChars a ++ tailCharsBy leafChars d
  | .leaf _ r => leafChars r

/-- What follows the first element of a list: the other elements, a dot before a tail that is no
list, and the closing bracket. -/
def tailCharsBy (leafChars : ρ → List Char) : Sexpr κ ρ → List Char
  | .atom _ a => ' ' :: '.' :: ' ' :: a.chars ++ [')']
  | .nil _ => [')']
  | .pair _ _ a d => ' ' :: charsBy leafChars a ++ tailCharsBy leafChars d
  | .leaf _ r => ' ' :: '.' :: ' ' :: leafChars r ++ [')']

end

end Sexpr
end MiniScheme
