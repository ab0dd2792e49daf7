import MiniScheme.Number.Decimal

/-!
# Shortest decimals

A double is written with the fewest digits that read back as the same double, and of those with the
digits nearest to it; of two equally near the greater. The search goes through the decimal grids
from coarse to fine and tries, on each, the two neighbours of the double.
-/
namespace MiniScheme.Number

/-- The multiple of `10 ^ place` to write for a double, if one reads back as it. Lengths are counted
in quarters of a unit, so that the ends of the interval of numbers that round to the double are
whole; an end belongs to the interval if the mantissa is even. -/
def neighbour? (mantissa scale : Nat) (place : Int) : Option Nat :=
  let factor := Nat.pow 10 (-place).toNat * Nat.pow 2 scale
  let grid := Nat.pow 10 place.toNat * Nat.pow 2 1076
  let value := 4 * mantissa * factor
  let low := (4 * mantissa - if mantissa = Nat.pow 2 52 ∧ 0 < scale then 1 else 2) * factor
  let high := (4 * mantissa + 2) * factor
  let inside (n : Nat) : Bool :=
    if mantissa % 2 = 0 then low ≤ n * grid && n * grid ≤ high
    else low < n * grid && n * grid < high
  let below := value / grid
  match inside below, inside (below + 1) with
  | true, true => some (if 2 * (value % grid) < grid then below else below + 1)
  | true, false => some below
  | false, true => some (below + 1)
  | false, false => none

/-- Searches at most `count` grids, down from `10 ^ place`. Past them all digits are written:
`mantissa * 2 ^ scale` units are `mantissa * 2 ^ scale * 5 ^ 1074` over `10 ^ 1074`. -/
def search (mantissa scale : Nat) : Nat → Int → Nat × Int
  | 0, _ => (mantissa * Nat.pow 2 scale * Nat.pow 5 1074, -1074)
  | count + 1, place =>
    match neighbour? mantissa scale place with
    | some n => (n, place)
    | none => search mantissa scale count (place - 1)

/-- A power of ten not below the first digit, from the number of bits and `log 2 < 0.30103`. -/
def topPlace (mantissa scale : Nat) : Int :=
  ((mantissa.log2 : Int) + 1 + scale - 1074) * 30103 / 100000 + 1

/-- Coefficient and exponent to write for a positive double; seventeen digits suffice. -/
def shortest (mantissa scale : Nat) : Nat × Int :=
  search mantissa scale 20 (topPlace mantissa scale)

/-- The written form of a double's magnitude. -/
def magnitudeText : Magnitude → List Char
  | .nan => ['N', 'a', 'N']
  | .infinite => ['i', 'n', 'f']
  | .finite 0 _ => ['0']
  | .finite (m + 1) scale =>
    let (coefficient, exponent) := shortest (m + 1) scale
    Decimal.positional coefficient exponent

/-- The written form of a double: a sign on all that has one, the negative zero too. -/
def text (x : Float) : List Char :=
  match magnitude x with
  | .nan => magnitudeText .nan
  | m => if isNegative x then '-' :: magnitudeText m else magnitudeText m

end MiniScheme.Number
