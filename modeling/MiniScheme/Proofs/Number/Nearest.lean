import MiniScheme.Proofs.Number.Bits

/-!
# Decimals that round to a given double

The numbers that round to the double `mantissa * 2 ^ scale` units are those between the two points
halfway to its neighbours, the ends included if the mantissa is even. Below a power of two the
neighbour is half as far away. `Within` says this in quarters of a unit, and `nearestBits_of_within`
says that `nearestBits` agrees.
-/
namespace MiniScheme.Number

theorem roundDiv_eq {num den m : Nat} (positive : 0 < den)
    (low : 2 * m * den ≤ 2 * num + den) (high : 2 * num ≤ 2 * m * den + den)
    (ties : m % 2 = 1 → 2 * m * den ≠ 2 * num + den ∧ 2 * num ≠ 2 * m * den + den) :
    roundDiv num den = m := by
  have split := Nat.div_add_mod num den
  have remainder := Nat.mod_lt num positive
  unfold roundDiv
  dsimp only
  generalize num / den = q at *
  generalize num % den = r at *
  -- the quotient is `m` or one less, since `num` is at most half of `den` away from `m * den`
  have below : q ≤ m := by
    by_contra more
    have : (m + 1) * den ≤ q * den := Nat.mul_le_mul_right den (by omega)
    nlinarith
  have above : m ≤ q + 1 := by
    by_contra more
    have : (q + 2) * den ≤ m * den := Nat.mul_le_mul_right den (by omega)
    nlinarith
  obtain same | next : m = q ∨ m = q + 1 := by omega
  · subst same
    have twice : 2 * num = 2 * m * den + 2 * r := by
      rw [← split]
      ring
    rw [if_pos (by omega)]
  · subst next
    have twice : 2 * num + 2 * den = 2 * (q + 1) * den + 2 * r := by
      rw [← split]
      ring
    rw [if_neg (by omega)]

/-- Quarters of a unit of the last place from a double to the halfway point below it. -/
def lowerGap (mantissa scale : Nat) : Nat :=
  if mantissa = 2 ^ 52 ∧ 0 < scale then 1 else 2

theorem lowerGap_le (mantissa scale : Nat) : lowerGap mantissa scale ≤ 2 := by
  unfold lowerGap
  split <;> omega

theorem lowerGap_of_odd {mantissa : Nat} (scale : Nat) (odd : mantissa % 2 = 1) :
    lowerGap mantissa scale = 2 := by
  unfold lowerGap
  rw [if_neg (by omega)]

/-- A number of quarters lies in the interval of the numbers that round to a double, with the unit
of the double's last place as `grid`. -/
structure Within (mantissa scale grid quarters : Nat) : Prop where
  low : (4 * mantissa - lowerGap mantissa scale) * grid ≤ quarters
  high : quarters ≤ (4 * mantissa + 2) * grid
  ends : mantissa % 2 = 1 → (4 * mantissa - lowerGap mantissa scale) * grid ≠ quarters ∧
    quarters ≠ (4 * mantissa + 2) * grid

/-- The double itself lies in its interval, inside the ends. -/
theorem within_middle {mantissa grid : Nat} (scale : Nat) (nonzero : 0 < mantissa)
    (positive : 0 < grid) : Within mantissa scale grid (4 * mantissa * grid) := by
  have gap : 0 < lowerGap mantissa scale := by
    unfold lowerGap
    split <;> omega
  have low : (4 * mantissa - lowerGap mantissa scale) * grid < 4 * mantissa * grid :=
    Nat.mul_lt_mul_of_pos_right (by omega) positive
  have high : 4 * mantissa * grid < (4 * mantissa + 2) * grid :=
    Nat.mul_lt_mul_of_pos_right (by omega) positive
  exact ⟨Nat.le_of_lt low, Nat.le_of_lt high, fun _ => ⟨Nat.ne_of_lt low, Nat.ne_of_lt high⟩⟩

theorem log2_div_eq {units den k : Nat} (positive : 0 < den) (low : 2 ^ k * den ≤ units)
    (high : units < 2 ^ (k + 1) * den) : (units / den).log2 = k := by
  have atLeast : 2 ^ k ≤ units / den := (Nat.le_div_iff_mul_le positive).mpr low
  have below : units / den < 2 ^ (k + 1) := (Nat.div_lt_iff_lt_mul positive).mpr high
  have nonzero : units / den ≠ 0 := by
    have := Nat.two_pow_pos k
    omega
  exact (Nat.log2_eq_iff nonzero).mpr ⟨atLeast, below⟩

theorem mul_two_pow (num : Nat) {k j : Nat} (more : j = k + 2) :
    num * Nat.pow 2 j = 4 * (num * Nat.pow 2 k) := by
  rw [more, Nat.pow_eq, Nat.pow_eq, pow_add]
  ring

section

variable {mantissa scale units den : Nat}

/-- On the grid of its own scale, a number in the interval of a double rounds to its mantissa. -/
theorem roundDiv_of_within (positive : 0 < den) (nonzero : 0 < mantissa)
    (within : Within mantissa scale den (4 * units)) : roundDiv units den = mantissa := by
  obtain ⟨low, high, ends⟩ := within
  have gap := lowerGap_le mantissa scale
  have lower : 4 * (mantissa * den) =
      (4 * mantissa - lowerGap mantissa scale) * den + lowerGap mantissa scale * den := by
    rw [← Nat.add_mul, Nat.sub_add_cancel (by omega), Nat.mul_assoc]
  have upper : (4 * mantissa + 2) * den = 4 * (mantissa * den) + 2 * den := by ring
  have narrow : lowerGap mantissa scale * den ≤ 2 * den := Nat.mul_le_mul_right den gap
  have double : 2 * mantissa * den = 2 * (mantissa * den) := Nat.mul_assoc 2 mantissa den
  apply roundDiv_eq positive
  · omega
  · omega
  · intro odd
    have apart := ends odd
    rw [lowerGap_of_odd scale odd] at lower apart
    omega

/-- A mantissa has at most 53 bits, and so has what rounds to it. -/
theorem lt_of_within (positive : 0 < den) (bits : mantissa < 2 ^ 53)
    (within : Within mantissa scale (den * 2 ^ scale) (4 * units)) :
    units < 2 ^ (52 + scale + 1) * den := by
  have high := within.high
  have grid : 0 < den * 2 ^ scale := Nat.mul_pos positive (Nat.two_pow_pos scale)
  have shape : 2 ^ (52 + scale + 1) * den = 2 ^ 53 * (den * 2 ^ scale) := by
    rw [pow_succ, pow_add]
    ring
  have top : (4 * mantissa + 2) * (den * 2 ^ scale) < 4 * 2 ^ 53 * (den * 2 ^ scale) :=
    Nat.mul_lt_mul_of_pos_right (by omega) grid
  rw [shape]
  omega

/-- Only a power of two has numbers in its interval that take one bit less. -/
theorem carries_of_within (full : 2 ^ 52 ≤ mantissa)
    (within : Within mantissa scale (den * 2 ^ scale) (4 * units))
    (short : units < 2 ^ (52 + scale) * den) : mantissa = 2 ^ 52 := by
  have low := within.low
  have shape : 2 ^ (52 + scale) * den = 2 ^ 52 * (den * 2 ^ scale) := by
    rw [pow_add]
    ring
  rw [shape] at short
  by_contra other
  have gap := lowerGap_le mantissa scale
  have most : 4 * 2 ^ 52 * (den * 2 ^ scale) ≤
      (4 * mantissa - lowerGap mantissa scale) * (den * 2 ^ scale) :=
    Nat.mul_le_mul_right _ (by omega)
  omega

/-- The numbers just below a power of two, on the finer grid there, round up to it. -/
theorem roundDiv_of_carries (positive : 0 < den)
    (within : Within (2 ^ 52) (scale + 1) (den * 2 ^ (scale + 1)) (4 * units))
    (short : units < 2 ^ (52 + (scale + 1)) * den) :
    (units / den).log2 = 52 + scale ∧ roundDiv units (den * 2 ^ scale) = 2 ^ 53 := by
  have low := within.low
  have gap : lowerGap (2 ^ 52) (scale + 1) = 1 := by
    unfold lowerGap
    rw [if_pos ⟨rfl, Nat.succ_pos scale⟩]
  have grid : 0 < den * 2 ^ scale := Nat.mul_pos positive (Nat.two_pow_pos scale)
  have coarse : den * 2 ^ (scale + 1) = 2 * (den * 2 ^ scale) := by ring
  have lowBits : 2 ^ (52 + scale) * den = 2 ^ 52 * (den * 2 ^ scale) := by
    rw [pow_add]
    ring
  have topBits : 2 ^ (52 + (scale + 1)) * den = 2 ^ 53 * (den * 2 ^ scale) := by
    rw [pow_add]
    ring
  rw [gap, coarse] at low
  rw [topBits] at short
  constructor
  · apply log2_div_eq positive
    · rw [lowBits]
      omega
    · rw [Nat.add_assoc, topBits]
      exact short
  · apply roundDiv_eq grid
    · omega
    · omega
    · intro odd
      omega

/-- On the grid that the number of bits selects, a number in the interval of a double rounds to the
bits of the double, or carries into them. -/
theorem bits_of_within (positive : 0 < den) (nonzero : 0 < mantissa)
    (canonical : Canonical mantissa scale)
    (within : Within mantissa scale (den * 2 ^ scale) (4 * units)) :
    ((units / den).log2 - 52) * Nat.pow 2 52 +
      roundDiv units (den * Nat.pow 2 ((units / den).log2 - 52)) = scale * 2 ^ 52 + mantissa := by
  simp only [Nat.pow_eq]
  have grid : 0 < den * 2 ^ scale := Nat.mul_pos positive (Nat.two_pow_pos scale)
  have rounded := roundDiv_of_within grid nonzero within
  have topBits := lt_of_within positive canonical.bits within
  by_cases short : units < 2 ^ (52 + scale) * den
  · cases scale with
    | zero =>
      -- below the normal numbers the scale is the least, whatever the number of bits
      have below : units / den < 2 ^ 52 := (Nat.div_lt_iff_lt_mul positive).mpr short
      have least : (units / den).log2 - 52 = 0 := by
        by_cases zero : units / den = 0
        · rw [zero]
          rfl
        · have := (Nat.log2_lt zero).mpr below
          omega
      rw [least, rounded]
    | succ scale =>
      have carry := carries_of_within (canonical.full (Nat.succ_pos scale)) within short
      subst carry
      obtain ⟨bits, up⟩ := roundDiv_of_carries positive within short
      rw [bits, Nat.add_sub_cancel_left, up]
      ring
  · have bits := log2_div_eq positive (Nat.le_of_not_lt short) topBits
    rw [bits, Nat.add_sub_cancel_left, rounded]

/-- The interval of a double is the interval that `nearestBits` rounds to it. -/
theorem nearestBits_of_within {num : Nat} (positive : 0 < den) (nonzero : 0 < mantissa)
    (canonical : Canonical mantissa scale)
    (within : Within mantissa scale (den * 2 ^ scale) (num * Nat.pow 2 1076)) :
    nearestBits num den = scale * 2 ^ 52 + mantissa := by
  have four := mul_two_pow num (show 1076 = 1074 + 2 from rfl)
  have bits := bits_of_within positive nonzero canonical (four.subst within)
  have bounded := bits.le.trans (Nat.le_of_lt canonical.bounded)
  exact (Nat.min_eq_left bounded).trans bits

end

end MiniScheme.Number
