import MiniScheme.Sexpr

/-!
# Data

A datum is an S-expression as it is read: atoms, empty lists and pairs. It knows where it was read
but has no identity.
-/
namespace MiniScheme

/-- What a source text can denote. -/
abbrev Datum := Sexpr Unit Empty

namespace Datum

/-- A pair of data. -/
@[match_pattern] abbrev cons (span : Span) (car cdr : Datum) : Datum := .pair span () car cdr

/-- The elements in front of a tail. Each new pair covers what its two parts cover. -/
def ofList (elements : List Datum) (tail : Datum) : Datum :=
  elements.foldr (fun car cdr => cons (car.span.merge cdr.span) car cdr) tail

/-- The list that a quote mark with a span abbreviates. All but the symbol covers mark and datum. -/
def quoted (mark : Span) (d : Datum) : Datum :=
  let whole := mark.merge d.span
  cons whole (.atom mark (.symbol "quote")) (cons whole d (.nil whole))

/-- Equality of data; where they were read does not matter. -/
def equal (a b : Datum) : Bool :=
  a.equalBy (fun _ _ => false) (fun _ _ => true) b

/-- Name of the datum's type. -/
def typeName (d : Datum) : String := d.typeNameBy fun e => e.elim

/-- The external form. -/
def chars (d : Datum) : List Char := d.charsBy fun e => e.elim

/-- The external form as a string. -/
def text (d : Datum) : String := String.ofList d.chars

end Datum
end MiniScheme
