/-!
# Doubles as integers

The unit of this module is `2 ^ -1074`, the least positive double: every finite double is an integer
number `mantissa * 2 ^ scale` of units. `magnitude` takes a double apart and `nearestBits` puts
together the double nearest to a quotient of integers.
-/
namespace MiniScheme.Number

/-- What a double holds, its sign apart. -/
inductive Magnitude where
  | nan
  | infinite
  | finite (mantissa scale : Nat)
  deriving DecidableEq, Repr

/-- The bits of positive infinity, one more than those of the greatest double. -/
def infinityBits : Nat := 2047 * Nat.pow 2 52

/-- Takes the bits of a double apart. -/
def magnitude (x : Float) : Magnitude :=
  let bits := x.toBits.toNat
  let field := bits / Nat.pow 2 52 % Nat.pow 2 11
  let fraction := bits % Nat.pow 2 52
  if field = 2047 then
    if fraction = 0 then .infinite else .nan
  else if field = 0 then .finite fraction 0
  else .finite (Nat.pow 2 52 + fraction) (field - 1)

/-- The sign bit, which is also set on the negative zero. -/
def isNegative (x : Float) : Bool :=
  x.toBits.toNat / Nat.pow 2 63 == 1

/-- A quotient to the nearest integer; a half goes to the even neighbour. -/
def roundDiv (num den : Nat) : Nat :=
  let q := num / den
  let r := num % den
  if 2 * r < den ∨ (2 * r = den ∧ q % 2 = 0) then q else q + 1

/-- The bits of the double nearest to `num / den`. The scale is the least that leaves 53 bits; a
mantissa that rounds up to 54 bits carries into the exponent field, where it belongs. -/
def nearestBits (num den : Nat) : Nat :=
  let units := num * Nat.pow 2 1074
  let scale := (units / den).log2 - 52
  min (scale * Nat.pow 2 52 + roundDiv units (den * Nat.pow 2 scale)) infinityBits

/-- The double with a sign and the bits of a magnitude. -/
def ofParts (negative : Bool) (bits : Nat) : Float :=
  Float.ofBits (UInt64.ofNat (if negative then Nat.pow 2 63 + bits else bits))

end MiniScheme.Number
