import MiniScheme.Proofs.Number.Nearest

/-!
# Written numbers read back

The text of a finite double is an optional minus, digits, and an optional point with more digits;
reading it gives the same double. The search for the shortest decimal enters only by the interval
that its result lies in.
-/
namespace MiniScheme.Number

/-- The decimal `n * 10 ^ place` lies in the interval of a double. -/
def Within.atPlace (mantissa scale n : Nat) (place : Int) : Prop :=
  Within mantissa scale (10 ^ (-place).toNat * 2 ^ scale) (n * 10 ^ place.toNat * Nat.pow 2 1076)

theorem within_of_inside {mantissa scale grid quarters : Nat}
    (inside : (if mantissa % 2 = 0 then
        decide ((4 * mantissa - lowerGap mantissa scale) * grid ≤ quarters) &&
          decide (quarters ≤ (4 * mantissa + 2) * grid)
      else decide ((4 * mantissa - lowerGap mantissa scale) * grid < quarters) &&
        decide (quarters < (4 * mantissa + 2) * grid)) = true) :
    Within mantissa scale grid quarters := by
  split at inside
  · next even =>
    rw [Bool.and_eq_true, decide_eq_true_eq, decide_eq_true_eq] at inside
    exact ⟨inside.1, inside.2, fun odd => by omega⟩
  · next odd =>
    rw [Bool.and_eq_true, decide_eq_true_eq, decide_eq_true_eq] at inside
    exact ⟨Nat.le_of_lt inside.1, Nat.le_of_lt inside.2,
      fun _ => ⟨Nat.ne_of_lt inside.1, Nat.ne_of_lt inside.2⟩⟩

theorem within_of_neighbour {mantissa scale n : Nat} {place : Int}
    (found : neighbour? mantissa scale place = some n) : Within.atPlace mantissa scale n place := by
  unfold Within.atPlace
  rw [Nat.mul_assoc]
  unfold neighbour? at found
  dsimp only at found
  split at found
  · next below above =>
    have chosen := Option.some.inj found
    split at chosen
    · subst chosen
      exact within_of_inside below
    · subst chosen
      exact within_of_inside above
  · next below above =>
    have chosen := Option.some.inj found
    subst chosen
    exact within_of_inside below
  · next below above =>
    have chosen := Option.some.inj found
    subst chosen
    exact within_of_inside above
  · cases found

theorem exact_quarters (mantissa scale : Nat) {k j : Nat} (more : j = k + 2) :
    mantissa * Nat.pow 2 scale * Nat.pow 5 k * 10 ^ 0 * Nat.pow 2 j =
      4 * mantissa * (10 ^ k * 2 ^ scale) := by
  have ten : 10 ^ k = 2 ^ k * 5 ^ k := mul_pow 2 5 k
  subst more
  simp only [Nat.pow_eq]
  rw [ten, pow_add]
  ring

/-- Past all grids the decimal is exact. -/
theorem within_exact {mantissa : Nat} (scale : Nat) (nonzero : 0 < mantissa) :
    Within.atPlace mantissa scale (mantissa * Nat.pow 2 scale * Nat.pow 5 1074) (-1074) := by
  have grid : 0 < 10 ^ 1074 * 2 ^ scale :=
    Nat.mul_pos (Nat.pow_pos (by decide)) (Nat.two_pow_pos scale)
  have exact := exact_quarters mantissa scale (show 1076 = 1074 + 2 from rfl)
  have middle := within_middle scale nonzero grid
  rw [← exact] at middle
  exact middle

theorem within_search {mantissa : Nat} (scale : Nat) (nonzero : 0 < mantissa) (count : Nat)
    (place : Int) :
    Within.atPlace mantissa scale (search mantissa scale count place).1
      (search mantissa scale count place).2 := by
  induction count generalizing place with
  | zero => exact within_exact scale nonzero
  | succ count ih =>
    unfold search
    split
    · next n found => exact within_of_neighbour found
    · next none => exact ih (place - 1)

theorem lt_log2_of_le {n k j : Nat} (least : 2 * 10 ^ k ≤ n * Nat.pow 2 j) :
    0 < n ∧ 3 * k < n.log2 + j := by
  rw [Nat.pow_eq] at least
  have nonzero : n ≠ 0 := by
    intro zero
    have : 0 < 10 ^ k := Nat.pow_pos (by decide)
    rw [zero, Nat.zero_mul] at least
    omega
  refine ⟨Nat.pos_of_ne_zero nonzero, ?_⟩
  by_contra more
  have small : n * 2 ^ j < 2 * 10 ^ k :=
    calc n * 2 ^ j < 2 ^ (n.log2 + 1) * 2 ^ j :=
          Nat.mul_lt_mul_of_pos_right Nat.lt_log2_self (Nat.two_pow_pos j)
      _ = 2 * 2 ^ (n.log2 + j) := by ring
      _ ≤ 2 * 2 ^ (3 * k) := Nat.mul_le_mul_left 2 (Nat.pow_le_pow_right (by decide) (by omega))
      _ = 2 * 8 ^ k := by rw [pow_mul, show 2 ^ 3 = 8 from rfl]
      _ ≤ 2 * 10 ^ k := Nat.mul_le_mul_left 2 (Nat.pow_le_pow_left (by decide) k)
  omega

/-- A decimal in the interval of a double is not so small that it would be taken for zero. -/
theorem lt_log2_of_within {mantissa scale n k : Nat} (nonzero : 0 < mantissa)
    (within : Within mantissa scale (10 ^ k * 2 ^ scale) (n * Nat.pow 2 1076)) :
    0 < n ∧ 3 * k < n.log2 + 1076 := by
  have gap := lowerGap_le mantissa scale
  have least : 2 * 10 ^ k ≤ (4 * mantissa - lowerGap mantissa scale) * (10 ^ k * 2 ^ scale) :=
    Nat.mul_le_mul (by omega) (Nat.le_mul_of_pos_right _ (Nat.two_pow_pos scale))
  exact lt_log2_of_le (least.trans within.low)

theorem magnitudeBits_of_within {mantissa scale n : Nat} {place : Int} (nonzero : 0 < mantissa)
    (canonical : Canonical mantissa scale) (within : Within.atPlace mantissa scale n place) :
    Decimal.magnitudeBits (n * 10 ^ place.toNat) (min place 0) = scale * 2 ^ 52 + mantissa := by
  have bits := nearestBits_of_within (Nat.pow_pos (by decide)) nonzero canonical within
  obtain ⟨some, notSmall⟩ := lt_log2_of_within nonzero within
  unfold Decimal.magnitudeBits
  rw [if_neg (Nat.ne_of_gt some), ← bits]
  cases place with
  | ofNat k =>
    have whole : min (Int.ofNat k) 0 = Int.ofNat 0 := min_eq_right (Int.natCast_nonneg k)
    have unit : (-Int.ofNat k).toNat = 0 := Int.toNat_neg_natCast k
    rw [whole, unit]
    dsimp only
    rw [if_neg (by decide), Nat.pow_eq, Nat.pow_zero, Nat.mul_one]
  | negSucc k =>
    have part : min (Int.negSucc k) 0 = Int.negSucc k := by omega
    have fraction : (-Int.negSucc k).toNat = k + 1 := by omega
    rw [fraction] at notSmall
    rw [part, fraction]
    dsimp only
    rw [if_neg (by omega), Nat.pow_eq]

/-- The text is digits, or digits around a point, with this coefficient and exponent. -/
inductive Positional : List Char → Nat → Int → Prop where
  | whole {ds : List Char} (some : ds ≠ []) (digits : ∀ d ∈ ds, d.isDigit) :
      Positional ds (Decimal.ofDigits ds) 0
  | point {ds fs : List Char} (some : ds ≠ []) (digits : ∀ d ∈ ds, d.isDigit)
      (fraction : fs ≠ []) (digits' : ∀ d ∈ fs, d.isDigit) :
      Positional (ds ++ '.' :: fs) (Decimal.ofDigits (ds ++ fs)) (-fs.length)

theorem ofDigits_eq (ds : List Char) : Decimal.ofDigits ds = Nat.ofDigitChars 10 ds 0 := rfl

theorem ofDigits_toDigits_append (n k : Nat) :
    Decimal.ofDigits (Nat.toDigits 10 n ++ List.replicate k '0') = n * 10 ^ k := by
  rw [ofDigits_eq, Nat.ofDigitChars_append, Nat.ofDigitChars_ten_toDigits,
    Nat.ofDigitChars_replicate_zero, Nat.mul_comm]

theorem ofDigits_padded (n k : Nat) :
    Decimal.ofDigits (List.replicate k '0' ++ Nat.toDigits 10 n) = n := by
  rw [ofDigits_eq, Nat.ofDigitChars_append, Nat.ofDigitChars_replicate_zero, Nat.mul_zero,
    Nat.ofDigitChars_ten_toDigits]

theorem isDigit_toDigits {n : Nat} {d : Char} (mem : d ∈ Nat.toDigits 10 n) : d.isDigit :=
  Nat.isDigit_of_mem_toDigits (by decide) (by decide) mem

theorem isDigit_replicate {k : Nat} {d : Char} (mem : d ∈ List.replicate k '0') : d.isDigit := by
  rw [List.eq_of_mem_replicate mem]
  rfl

/-- Digits with a point before the last few of them. -/
theorem positional_split {ds : List Char} {k : Nat} (long : k + 1 < ds.length)
    (digits : ∀ d ∈ ds, d.isDigit) :
    Positional (ds.take (ds.length - (k + 1)) ++ '.' :: ds.drop (ds.length - (k + 1)))
      (Decimal.ofDigits ds) (Int.negSucc k) := by
  have front : (ds.take (ds.length - (k + 1))).length = ds.length - (k + 1) := by
    rw [List.length_take]
    omega
  have back : (ds.drop (ds.length - (k + 1))).length = k + 1 := by
    rw [List.length_drop]
    omega
  have some : ds.take (ds.length - (k + 1)) ≠ [] := List.ne_nil_of_length_pos (by omega)
  have fraction : ds.drop (ds.length - (k + 1)) ≠ [] := List.ne_nil_of_length_pos (by omega)
  have shape := Positional.point some (fun d mem => digits d (List.mem_of_mem_take mem)) fraction
    (fun d mem => digits d (List.mem_of_mem_drop mem))
  rw [List.take_append_drop, back] at shape
  exact shape

/-- What `positional` writes, and what it reads as. -/
theorem positional_positional (n : Nat) (place : Int) :
    Positional (Decimal.positional n place) (n * 10 ^ place.toNat) (min place 0) := by
  cases place with
  | ofNat k =>
    have whole : min (Int.ofNat k) 0 = 0 := min_eq_right (Int.natCast_nonneg k)
    have value : Decimal.ofDigits (Decimal.positional n (.ofNat k)) = n * 10 ^ k :=
      ofDigits_toDigits_append n k
    rw [whole, Int.ofNat_eq_natCast, Int.toNat_natCast, ← value]
    apply Positional.whole
    · exact List.append_ne_nil_of_left_ne_nil Nat.toDigits_ne_nil _
    · intro d mem
      obtain front | zeros := List.mem_append.mp mem
      · exact isDigit_toDigits front
      · exact isDigit_replicate zeros
  | negSucc k =>
    have part : min (Int.negSucc k) 0 = Int.negSucc k := by omega
    have value := ofDigits_padded n (k + 2 - (Nat.toDigits 10 n).length)
    rw [part, Int.toNat_negSucc, pow_zero, Nat.mul_one]
    nth_rewrite 2 [← value]
    apply positional_split
    · rw [List.length_append, List.length_replicate]
      omega
    · intro d mem
      obtain zeros | back := List.mem_append.mp mem
      · exact isDigit_replicate zeros
      · exact isDigit_toDigits back

theorem Positional.ne_nil {cs : List Char} {coefficient : Nat} {exponent : Int}
    (shape : Positional cs coefficient exponent) : ∃ d ds, cs = d :: ds ∧ d.isDigit := by
  cases shape with
  | whole some digits =>
    obtain ⟨d, ds, rfl⟩ := List.exists_cons_of_ne_nil some
    exact ⟨d, ds, rfl, digits d List.mem_cons_self⟩
  | point some digits _ _ =>
    obtain ⟨d, ds, rfl⟩ := List.exists_cons_of_ne_nil some
    exact ⟨d, _, rfl, digits d List.mem_cons_self⟩

/-- A sign is split off from digits; nothing else is. -/
theorem splitSign_positional {cs : List Char} {coefficient : Nat} {exponent : Int}
    (shape : Positional cs coefficient exponent) (negative : Bool) :
    Decimal.splitSign (if negative then '-' :: cs else cs) = (negative, cs) := by
  cases negative with
  | true => rfl
  | false =>
    obtain ⟨d, ds, rfl, digit⟩ := shape.ne_nil
    rw [if_neg (by decide)]
    unfold Decimal.splitSign
    split
    · next same =>
      cases same
      cases digit
    · next same =>
      cases same
      cases digit
    · rfl

/-- Positional notation reads as the coefficient and the exponent it was written with. -/
theorem ofLiteral?_positional {cs : List Char} {coefficient : Nat} {exponent : Int}
    (shape : Positional cs coefficient exponent) (negative : Bool) :
    Decimal.ofLiteral? (if negative then '-' :: cs else cs) =
      some ⟨negative, coefficient, exponent⟩ := by
  unfold Decimal.ofLiteral?
  rw [splitSign_positional shape negative]
  dsimp only
  cases shape with
  | whole some digits =>
    rw [List.takeWhile_eq_self_iff.mpr digits, List.dropWhile_eq_nil_iff.mpr digits]
    simp [some, Decimal.exponent?]
  | point some digits fraction digits' =>
    rw [List.takeWhile_append_of_pos digits, List.dropWhile_append_of_pos digits]
    simp [List.takeWhile_eq_self_iff.mpr digits', List.dropWhile_eq_nil_iff.mpr digits', some,
      Decimal.exponent?]

/-- The text of a magnitude rounds to the bits of the magnitude. -/
theorem exists_positional {mantissa scale : Nat} (canonical : Canonical mantissa scale) :
    ∃ coefficient exponent,
      Positional (magnitudeText (.finite mantissa scale)) coefficient exponent ∧
        Decimal.magnitudeBits coefficient exponent = scale * 2 ^ 52 + mantissa := by
  cases mantissa with
  | zero =>
    have least : scale = 0 := by
      by_contra more
      have := canonical.full (Nat.pos_of_ne_zero more)
      omega
    subst least
    have zero : Positional ['0'] (Decimal.ofDigits ['0']) 0 :=
      .whole (List.cons_ne_nil _ _) (List.all_eq_true.mp rfl)
    exact ⟨0, 0, zero, rfl⟩
  | succ m =>
    have within := within_search scale (Nat.succ_pos m) 20 (topPlace (m + 1) scale)
    exact ⟨_, _, positional_positional _ _,
      magnitudeBits_of_within (Nat.succ_pos m) canonical within⟩

/-- The text of a finite double, and what it reads as. -/
theorem text_of_finite (x : Float) (finite : x.isFinite) :
    ∃ cs coefficient exponent, text x = (if isNegative x then '-' :: cs else cs) ∧
      Positional cs coefficient exponent ∧
        Decimal.toFloat ⟨isNegative x, coefficient, exponent⟩ = x := by
  obtain ⟨mantissa, scale, parts, canonical, whole⟩ := exists_magnitude x finite
  obtain ⟨coefficient, exponent, shape, bits⟩ := exists_positional canonical
  refine ⟨_, coefficient, exponent, ?_, shape, ?_⟩
  · unfold text
    rw [parts]
  · unfold Decimal.toFloat
    rw [bits, whole]

end MiniScheme.Number
