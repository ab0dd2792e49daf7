import MiniScheme.Number.Binary64

/-!
# Decimal numbers

A decimal is a signed integer coefficient times a power of ten. This module reads decimals from
text, rounds them to doubles and writes them in positional notation.
-/
namespace MiniScheme.Number

/-- The number `coefficient * 10 ^ exponent`, negated if `negative`. -/
structure Decimal where
  negative : Bool
  coefficient : Nat
  exponent : Int
  deriving DecidableEq, Repr

namespace Decimal

/-- The number a run of decimal digits stands for. -/
def ofDigits (ds : List Char) : Nat :=
  ds.foldl (fun n d => 10 * n + (d.toNat - '0'.toNat)) 0

/-- A sign, if there is one, and what follows it. -/
def splitSign : List Char → Bool × List Char
  | '-' :: cs => (true, cs)
  | '+' :: cs => (false, cs)
  | cs => (false, cs)

/-- A whole number with an optional sign. -/
def signed? (cs : List Char) : Option Int :=
  let (negative, ds) := splitSign cs
  if ds.isEmpty || !ds.all Char.isDigit then none
  else some (if negative then -(ofDigits ds : Int) else ofDigits ds)

/-- What follows the mantissa: nothing, or a mark and a whole number. -/
def exponent? : List Char → Option Int
  | [] => some 0
  | c :: cs => if c = 'e' ∨ c = 'E' then signed? cs else none

/-- Reads a literal: sign, digits with an optional point among them, exponent. At least one digit
must stand before the exponent. -/
def ofLiteral? (cs : List Char) : Option Decimal :=
  let (negative, cs) := splitSign cs
  let whole := cs.takeWhile Char.isDigit
  let (fraction, rest) :=
    match cs.dropWhile Char.isDigit with
    | '.' :: ds => (ds.takeWhile Char.isDigit, ds.dropWhile Char.isDigit)
    | ds => ([], ds)
  if whole.isEmpty && fraction.isEmpty then none
  else
    (exponent? rest).map fun e =>
      ⟨negative, ofDigits (whole ++ fraction), e - fraction.length⟩

/-- The bits of the double nearest to the magnitude. Powers of ten far outside the range of doubles
are not computed: above `10 ^ 400` all is infinite, and a coefficient below `2 ^ (b + 1)` over
`10 ^ k` is at most half a unit when `3 * k ≥ b + 1076`. -/
def magnitudeBits (coefficient : Nat) (exponent : Int) : Nat :=
  if coefficient = 0 then 0
  else
    match exponent with
    | .ofNat k => if 400 < k then infinityBits else nearestBits (coefficient * Nat.pow 10 k) 1
    | .negSucc k =>
      if coefficient.log2 + 1076 ≤ 3 * (k + 1) then 0
      else nearestBits coefficient (Nat.pow 10 (k + 1))

/-- The nearest double; a magnitude beyond the greatest double is infinite. -/
def toFloat (d : Decimal) : Float :=
  ofParts d.negative (magnitudeBits d.coefficient d.exponent)

/-- Positional notation: no exponent, and no point when the exponent is not negative. -/
def positional (coefficient : Nat) : Int → List Char
  | .ofNat k => Nat.toDigits 10 coefficient ++ List.replicate k '0'
  | .negSucc k =>
    let digits := Nat.toDigits 10 coefficient
    let padded := List.replicate (k + 2 - digits.length) '0' ++ digits
    padded.take (padded.length - (k + 1)) ++ '.' :: padded.drop (padded.length - (k + 1))

end Decimal
end MiniScheme.Number
