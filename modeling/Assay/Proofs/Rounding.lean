import Assay.Binary64
import Mathlib.Algebra.Order.Field.Power
import Mathlib.Algebra.Order.Floor.Semifield
import Mathlib.Data.Int.ConditionallyCompleteOrder
import Mathlib.Data.Rat.Floor
import Mathlib.Tactic.FieldSimp
import Mathlib.Tactic.Linarith
import Mathlib.Tactic.Positivity
import Mathlib.Tactic.Ring

/-!
# Rounding to binary64

A fraction and a binary64 number both stand for a rational number, so the rounding of one to the
other can be compared with what rounding is: the result is as near as a binary64 number can be, and
of two equally near ones it is the even one.

The numbers that have a rank are in the order of their ranks, and around every fraction there are two
ranks next to each other.  The bits of the fraction only serve to find these two.
-/

namespace Assay

namespace Fraction

/-- The rational number that a fraction stands for. -/
def toRat (fraction : Fraction) : ℚ := fraction.numerator / fraction.denominator

variable (fraction : Fraction)

theorem toRat_nonneg : 0 ≤ fraction.toRat := by
  rw [toRat]
  positivity

theorem toRat_scale (exponent : ℤ) :
    (fraction.scale 2 exponent).toRat = fraction.toRat * 2 ^ exponent := by
  rw [scale]
  split
  · next upwards =>
    lift exponent to ℕ using upwards
    simp only [toRat, Int.toNat_natCast, Nat.pow_eq, Nat.cast_mul, Nat.cast_pow, Nat.cast_ofNat,
      zpow_natCast]
    ring
  · next downwards =>
    obtain ⟨shift, rfl⟩ : ∃ shift : ℕ, exponent = -shift := ⟨(-exponent).toNat, by omega⟩
    simp only [toRat, neg_neg, Int.toNat_natCast, Nat.pow_eq, Nat.cast_mul, Nat.cast_pow,
      Nat.cast_ofNat, zpow_neg, zpow_natCast]
    field_simp

theorem floor_eq : fraction.floor = ⌊fraction.toRat⌋₊ := (Nat.floor_div_eq_div _ _).symm

theorem denominator_scale_pos (positive : 0 < fraction.denominator) (exponent : ℤ) :
    0 < (fraction.scale 2 exponent).denominator := by
  rw [scale]
  split
  · exact positive
  · exact Nat.mul_pos positive (Nat.pow_pos (by decide))

theorem toRat_sub_floor (positive : 0 < fraction.denominator) :
    fraction.toRat - fraction.floor =
      (fraction.numerator % fraction.denominator : ℕ) / fraction.denominator := by
  have divided : (fraction.numerator : ℚ) = fraction.denominator * fraction.floor +
      (fraction.numerator % fraction.denominator : ℕ) := by
    exact_mod_cast (Nat.div_add_mod fraction.numerator fraction.denominator).symm
  rw [toRat, divided]
  field_simp
  ring

theorem floor_le : fraction.floor ≤ fraction.toRat := by
  rw [floor_eq]
  exact Nat.floor_le fraction.toRat_nonneg

theorem lt_floor_add_one : fraction.toRat < fraction.floor + 1 := by
  rw [floor_eq]
  exact Nat.lt_floor_add_one fraction.toRat

theorem roundsUp_iff (positive : 0 < fraction.denominator) :
    fraction.roundsUp = true ↔ 1 / 2 < fraction.toRat - fraction.floor ∨
      fraction.toRat - fraction.floor = 1 / 2 ∧ fraction.floor % 2 = 1 := by
  have isPositive : (0 : ℚ) < fraction.denominator := by exact_mod_cast positive
  rw [fraction.toRat_sub_floor positive, div_lt_div_iff₀ two_pos isPositive,
    div_eq_div_iff isPositive.ne' two_ne_zero]
  simp only [roundsUp, Bool.or_eq_true, Bool.and_eq_true, decide_eq_true_eq]
  norm_cast
  rw [Nat.one_mul, Nat.mul_comm 2, eq_comm]

/-- A rational number is rounded to one of two neighbouring ranks or numbers: to the nearer one, and
to the even one if both are equally near. -/
structure Rounds (exact low high : ℚ) (lower chosen : ℕ) : Prop where
  low_le : low ≤ exact
  lt_high : exact < high
  nearer : chosen = lower ∧ exact - low ≤ high - exact ∨
    chosen = lower + 1 ∧ high - exact ≤ exact - low
  even : exact - low = high - exact → chosen % 2 = 0

/-- Rounding does not depend on the unit, nor on an even number of steps further up. -/
theorem Rounds.scale {exact low high unit : ℚ} {lower chosen offset : ℕ}
    (rounds : Rounds exact low high lower chosen) (positive : 0 < unit) (isEven : offset % 2 = 0) :
    Rounds (exact * unit) (low * unit) (high * unit) (offset + lower) (offset + chosen) where
  low_le := mul_le_mul_of_nonneg_right rounds.low_le positive.le
  lt_high := mul_lt_mul_of_pos_right rounds.lt_high positive
  nearer := by
    rw [← sub_mul, ← sub_mul, mul_le_mul_iff_left₀ positive, mul_le_mul_iff_left₀ positive]
    exact rounds.nearer.imp (fun near => ⟨by omega, near.2⟩) fun near => ⟨by omega, near.2⟩
  even tie := by
    rw [← sub_mul, ← sub_mul, mul_left_inj' positive.ne'] at tie
    have := rounds.even tie
    omega

/-- A fraction is rounded to one of the natural numbers around it. -/
theorem rounds_nearest (positive : 0 < fraction.denominator) :
    Rounds fraction.toRat fraction.floor (fraction.floor + 1) fraction.floor fraction.nearest := by
  have decides := fraction.roundsUp_iff positive
  rw [nearest]
  constructor
  case low_le => exact fraction.floor_le
  case lt_high => exact fraction.lt_floor_add_one
  case nearer =>
      split
      · next up =>
        rcases decides.mp up with more | ⟨tie, _⟩
        · exact .inr ⟨rfl, by linarith⟩
        · exact .inr ⟨rfl, by linarith⟩
      · next down =>
        have less := not_lt.mp fun more => down (decides.mpr (.inl more))
        exact .inl ⟨rfl, by linarith⟩
  case even =>
      intro tie
      have middle : fraction.toRat - fraction.floor = 1 / 2 := by linarith
      split
      · next up =>
        rcases decides.mp up with more | ⟨_, isOdd⟩
        · linarith
        · omega
      · next down =>
        have notOdd : ¬ fraction.floor % 2 = 1 := fun isOdd =>
          down (decides.mpr (.inr ⟨middle, isOdd⟩))
        omega

end Fraction

namespace Binary64

/-! ## Numbers with a rank -/

/-- The magnitude of a rank, counted in the smallest positive magnitude. -/
def units (rank : ℕ) : ℕ :=
  if rank < binade then rank else (rank % binade + binade) * 2 ^ (rank / binade - 1)

/-- The magnitude of a rank. -/
def magnitudeAt (rank : ℕ) : ℚ := units rank * 2 ^ lowestExponent

/-- Every rank is a significand of at most 53 bits and a number of doublings, with less than 53 bits
only if nothing is doubled. -/
theorem exists_scaled (rank : ℕ) : ∃ shift significand, rank = shift * binade + significand ∧
    significand < 2 * binade ∧ (shift = 0 ∨ binade ≤ significand) := by
  have divided := Nat.div_add_mod' rank binade
  have small := Nat.mod_lt rank (show 0 < binade by decide)
  by_cases subnormal : rank < binade
  · exact ⟨0, rank, by omega, by omega, .inl rfl⟩
  · have exponent : 1 ≤ rank / binade :=
      (Nat.one_le_div_iff (by decide)).mpr (not_lt.mp subnormal)
    obtain ⟨shift, isShift⟩ := Nat.exists_eq_add_of_le' exponent
    refine ⟨shift, rank % binade + binade, ?_, by omega, .inr (by omega)⟩
    rw [isShift, Nat.succ_mul] at divided
    omega

/-- The significand may also be the first one that is too large, which is the same as a doubling. -/
theorem units_scaled {shift significand : ℕ} (small : significand ≤ 2 * binade)
    (normal : shift = 0 ∨ binade ≤ significand) :
    units (shift * binade + significand) = significand * 2 ^ shift := by
  have positive : 0 < binade := by decide
  rw [units]
  by_cases subnormal : significand < binade
  · obtain rfl : shift = 0 := normal.resolve_right (by omega)
    simp [subnormal]
  · rw [if_neg (by omega)]
    obtain ⟨rest, rfl⟩ := Nat.exists_eq_add_of_le (not_lt.mp subnormal)
    have regrouped : shift * binade + (binade + rest) = rest + binade * (shift + 1) := by ring
    rw [regrouped, Nat.add_mul_mod_self_left, Nat.add_mul_div_left _ _ positive]
    by_cases isFull : rest = binade
    · rw [isFull, Nat.mod_self, Nat.div_self positive]
      simp only [Nat.zero_add, Nat.add_sub_cancel_left, pow_succ]
      ring
    · have isSmall : rest < binade := by omega
      rw [Nat.mod_eq_of_lt isSmall, Nat.div_eq_of_lt isSmall]
      simp only [Nat.zero_add, Nat.add_sub_cancel]
      ring

theorem units_strictMono : StrictMono units := by
  apply strictMono_nat_of_lt_succ
  intro rank
  obtain ⟨shift, significand, rfl, small, normal⟩ := exists_scaled rank
  rw [units_scaled (by omega) normal, Nat.add_assoc,
    units_scaled (show significand + 1 ≤ 2 * binade by omega) (by omega)]
  exact Nat.mul_lt_mul_of_pos_right (Nat.lt_succ_self _) (Nat.two_pow_pos _)

theorem units_zero : units 0 = 0 := by decide

theorem magnitudeAt_strictMono : StrictMono magnitudeAt := by
  intro smaller larger less
  have isLess : (units smaller : ℚ) < units larger := by exact_mod_cast units_strictMono less
  exact mul_lt_mul_of_pos_right isLess (by positivity)

theorem magnitudeAt_scaled {shift significand : ℕ} (small : significand ≤ 2 * binade)
    (normal : shift = 0 ∨ binade ≤ significand) :
    magnitudeAt (shift * binade + significand) = significand * 2 ^ (lowestExponent + shift) := by
  rw [magnitudeAt, units_scaled small normal, zpow_add₀ two_ne_zero, zpow_natCast]
  push_cast
  ring

theorem toRat_magnitude (number : Binary64) : number.magnitude.toRat = magnitudeAt number.rank := by
  rw [magnitude, Fraction.toRat_scale, significand, exponent, magnitudeAt, units]
  split
  · simp [Fraction.toRat]
  · next normal =>
    obtain ⟨shift, isShift⟩ := Nat.exists_eq_add_of_le'
      ((Nat.one_le_div_iff (show 0 < binade by decide)).mpr (not_lt.mp normal))
    rw [isShift, show lowestExponent + ((shift + 1 : ℕ) : ℤ) - 1 = lowestExponent + shift by
      push_cast; ring, zpow_add₀ two_ne_zero, zpow_natCast]
    simp only [Fraction.toRat, Nat.add_sub_cancel]
    push_cast
    ring

/-! ## Signed numbers -/

/-- The rank with the sign of the number. -/
def place (number : Binary64) : ℤ := if number.negative then -number.rank else number.rank

/-- The rational number that a binary64 number stands for. -/
def exact (number : Binary64) : ℚ :=
  if number.negative then -number.magnitude.toRat else number.magnitude.toRat

/-- The rational number at a place. -/
def exactAt : ℤ → ℚ
  | .ofNat rank => magnitudeAt rank
  | .negSucc rank => -magnitudeAt (rank + 1)

theorem magnitudeAt_zero : magnitudeAt 0 = 0 := by simp [magnitudeAt, units_zero]

theorem exactAt_natCast (rank : ℕ) : exactAt rank = magnitudeAt rank := rfl

theorem exactAt_neg (rank : ℕ) : exactAt (-rank) = -magnitudeAt rank := by
  cases rank with
  | zero => simp [exactAt, magnitudeAt_zero]
  | succ rank => rfl

theorem exact_eq (number : Binary64) : number.exact = exactAt number.place := by
  rw [exact, place, toRat_magnitude]
  split
  · rw [exactAt_neg]
  · rfl

theorem exactAt_strictMono : StrictMono exactAt := by
  apply strictMono_int_of_lt_succ
  intro place
  cases place with
  | ofNat rank => exact magnitudeAt_strictMono (Nat.lt_succ_self rank)
  | negSucc rank =>
      rw [Int.negSucc_eq, show -((rank : ℤ) + 1) + 1 = -rank by ring, exactAt_neg, ← Nat.cast_succ,
        exactAt_neg]
      exact neg_lt_neg (magnitudeAt_strictMono (Nat.lt_succ_self rank))

theorem exact_lt_iff {left right : Binary64} :
    left.exact < right.exact ↔ left.place < right.place := by
  rw [exact_eq, exact_eq, exactAt_strictMono.lt_iff_lt]

/-- Equality of binary64 numbers is equality of the rational numbers. -/
theorem same_iff {left right : Binary64} :
    left.same right = true ↔ left.exact = right.exact := by
  rw [exact_eq, exact_eq, exactAt_strictMono.injective.eq_iff, same, isZero, place, place]
  simp only [Bool.and_eq_true, Bool.or_eq_true, beq_iff_eq]
  cases left.negative <;> cases right.negative <;> simp <;> omega

/-- There is a number at every place that is small enough. -/
theorem exists_place (place : ℤ) (small : place.natAbs < rankBound) :
    ∃ number : Binary64, number.place = place := by
  refine ⟨⟨decide (place < 0), place.natAbs, small⟩, ?_⟩
  rw [Binary64.place]
  simp only [decide_eq_true_eq]
  split <;> omega

theorem natAbs_place (number : Binary64) : number.place.natAbs = number.rank := by
  rw [place]
  split <;> omega

theorem exact_neg (number : Binary64) : number.neg.exact = -number.exact := by
  rw [exact, exact, neg]
  cases number.negative <;> simp [magnitude, significand, exponent]

theorem two_dvd_binade : 2 ∣ binade := by decide

/-- A significand is even exactly if the rank is. -/
theorem significand_mod_two (number : Binary64) : number.significand % 2 = number.rank % 2 := by
  rw [significand]
  split
  · rfl
  · rw [Nat.add_mod, Nat.mod_eq_zero_of_dvd two_dvd_binade, Nat.mod_mod_of_dvd _ two_dvd_binade,
      Nat.add_zero, Nat.mod_mod]

/-! ## The nearest number -/

/-- A binary64 number is what a rational number is rounded to: none is nearer, and if another one is
equally near, then the significand is even. -/
structure IsNearest (exact : ℚ) (number : Binary64) : Prop where
  closest : ∀ other : Binary64, |exact - number.exact| ≤ |exact - other.exact|
  even : ∀ other : Binary64, other.exact ≠ number.exact →
    |exact - other.exact| = |exact - number.exact| → number.significand % 2 = 0

section IsNearest

variable {exact : ℚ} {left right number : Binary64}

/-- The number to which a rational number is rounded is determined. -/
theorem IsNearest.unique (isNearest : IsNearest exact left) (isAlso : IsNearest exact right) :
    left.exact = right.exact := by
  by_contra different
  wlog less : left.exact < right.exact generalizing left right
  · exact this isAlso isNearest (Ne.symm different)
      (lt_of_le_of_ne (not_lt.mp less) (Ne.symm different))
  have tie : |exact - right.exact| = |exact - left.exact| :=
    le_antisymm (isAlso.closest left) (isNearest.closest right)
  have leftEven := isNearest.even right (Ne.symm different) tie
  have rightEven := isAlso.even left different tie.symm
  rw [significand_mod_two, ← natAbs_place] at leftEven rightEven
  have leftSmall := left.rank_lt
  have rightSmall := right.rank_lt
  rw [← natAbs_place] at leftSmall rightSmall
  -- Two neighbours are not both even, so a nearer number lies between them.
  have places := exact_lt_iff.mp less
  obtain ⟨between, isBetween⟩ := exists_place (left.place + 1) (by omega)
  have aboveLeft : left.exact < between.exact := exact_lt_iff.mpr (by omega)
  have belowRight : between.exact < right.exact := exact_lt_iff.mpr (by omega)
  have noNearer := isNearest.closest between
  rcases abs_cases (exact - right.exact) with ⟨_, _⟩ | ⟨_, _⟩ <;>
    rcases abs_cases (exact - left.exact) with ⟨_, _⟩ | ⟨_, _⟩ <;>
    rcases abs_cases (exact - between.exact) with ⟨_, _⟩ | ⟨_, _⟩ <;> linarith

/-- Zero is rounded to either zero, and otherwise numbers are known by what they stand for. -/
theorem IsNearest.congr (isNearest : IsNearest exact left) (same : left.exact = right.exact) :
    IsNearest exact right where
  closest other := same ▸ isNearest.closest other
  even other different tie := by
    have samePlace : left.place = right.place :=
      exactAt_strictMono.injective (by rw [← exact_eq, ← exact_eq, same])
    rw [significand_mod_two, ← natAbs_place, ← samePlace, natAbs_place, ← significand_mod_two]
    rw [← same] at different tie
    exact isNearest.even other different tie

/-- A number is rounded to itself. -/
theorem isNearest_exact (number : Binary64) : IsNearest number.exact number where
  closest other := by
    rw [sub_self, abs_zero]
    exact abs_nonneg _
  even other different tie := by
    rw [sub_self, abs_zero, abs_eq_zero, sub_eq_zero] at tie
    exact (different tie.symm).elim

theorem neg_twice (number : Binary64) : number.neg.neg = number := by simp [neg]

theorem abs_neg_sub (other : Binary64) : |-exact - other.exact| = |exact - other.neg.exact| := by
  rw [exact_neg, ← abs_neg]
  congr 1
  ring

theorem IsNearest.neg (isNearest : IsNearest exact number) : IsNearest (-exact) number.neg where
  closest other := by
    rw [abs_neg_sub, abs_neg_sub, neg_twice]
    exact isNearest.closest other.neg
  even other different tie := by
    rw [abs_neg_sub, abs_neg_sub, neg_twice] at tie
    refine isNearest.even other.neg (fun same => different ?_) tie
    rw [exact_neg, ← same, exact_neg, neg_neg]

/-- The number at one of the two ranks around a rational number is what that is rounded to, if the
rank is chosen by nearness. -/
theorem isNearest_of_rounds {lower : ℕ} (positive : number.negative = false)
    (rounds : Fraction.Rounds exact (magnitudeAt lower) (magnitudeAt (lower + 1)) lower
      number.rank) : IsNearest exact number := by
  have isExact : number.exact = magnitudeAt number.rank := by
    simp [Binary64.exact, positive, toRat_magnitude]
  have outside : ∀ other : Binary64,
      other.exact ≤ magnitudeAt lower ∨ magnitudeAt (lower + 1) ≤ other.exact := by
    intro other
    rw [← exactAt_natCast, ← exactAt_natCast, exact_eq, exactAt_strictMono.le_iff_le,
      exactAt_strictMono.le_iff_le]
    omega
  have low := rounds.low_le
  have high := rounds.lt_high
  constructor
  case closest =>
      intro other
      have distance : |exact - number.exact| ≤ exact - magnitudeAt lower ∧
          |exact - number.exact| ≤ magnitudeAt (lower + 1) - exact := by
        rw [isExact]
        rcases rounds.nearer with ⟨isLower, near⟩ | ⟨isUpper, near⟩
        · rw [isLower, abs_of_nonneg (by linarith)]
          exact ⟨le_rfl, near⟩
        · rw [isUpper, abs_of_nonpos (by linarith), neg_sub]
          exact ⟨near, le_rfl⟩
      rcases outside other with isBelow | isAbove
      · have := le_abs_self (exact - other.exact)
        linarith
      · have := neg_le_abs (exact - other.exact)
        linarith
  case even =>
      intro other different tie
      rw [isExact] at different tie
      rw [significand_mod_two]
      apply rounds.even
      rcases rounds.nearer with ⟨isLower, near⟩ | ⟨isUpper, near⟩
      · rw [isLower] at different tie
        rw [abs_of_nonneg (by linarith : 0 ≤ exact - magnitudeAt lower)] at tie
        rcases outside other with isBelow | isAbove
        · have strictlyBelow := lt_of_le_of_ne isBelow different
          have := le_abs_self (exact - other.exact)
          linarith
        · have := neg_le_abs (exact - other.exact)
          linarith
      · rw [isUpper] at different tie
        rw [abs_of_nonpos (by linarith : exact - magnitudeAt (lower + 1) ≤ 0)] at tie
        rcases outside other with isBelow | isAbove
        · have := le_abs_self (exact - other.exact)
          linarith
        · have strictlyAbove := lt_of_le_of_ne isAbove (Ne.symm different)
          have := neg_le_abs (exact - other.exact)
          linarith

end IsNearest

/-! ## Rounding a fraction -/

section Rounding

variable {fraction : Fraction}

/-- A positive fraction lies between the powers of two next to its logarithm. -/
theorem logarithm_bounds (positive : 0 < fraction.denominator) (nonzero : fraction.numerator ≠ 0) :
    (2 : ℚ) ^ (fraction.logarithm - 1) < fraction.toRat ∧
      fraction.toRat < 2 ^ (fraction.logarithm + 1) := by
  have above : ((2 ^ fraction.numerator.log2 : ℕ) : ℚ) ≤ fraction.numerator := by
    exact_mod_cast Nat.log2_self_le nonzero
  have below : (fraction.numerator : ℚ) < (2 ^ (fraction.numerator.log2 + 1) : ℕ) := by
    exact_mod_cast Nat.lt_log2_self
  have aboveToo : ((2 ^ fraction.denominator.log2 : ℕ) : ℚ) ≤ fraction.denominator := by
    exact_mod_cast Nat.log2_self_le positive.ne'
  have belowToo : (fraction.denominator : ℚ) < (2 ^ (fraction.denominator.log2 + 1) : ℕ) := by
    exact_mod_cast Nat.lt_log2_self
  have isPositive : (0 : ℚ) < fraction.denominator := by exact_mod_cast positive
  rw [Fraction.logarithm, Fraction.toRat]
  generalize fraction.numerator.log2 = upper at *
  generalize fraction.denominator.log2 = lower at *
  push_cast at above below aboveToo belowToo
  constructor
  · rw [lt_div_iff₀ isPositive]
    calc (2 : ℚ) ^ ((upper : ℤ) - lower - 1) * fraction.denominator
        < 2 ^ ((upper : ℤ) - lower - 1) * 2 ^ (lower + 1) := by gcongr
      _ = 2 ^ upper := by
        rw [← zpow_natCast, ← zpow_natCast, ← zpow_add₀ two_ne_zero]
        congr 1
        push_cast
        ring
      _ ≤ fraction.numerator := above
  · rw [div_lt_iff₀ isPositive]
    calc (fraction.numerator : ℚ) < 2 ^ (upper + 1) := below
      _ = 2 ^ ((upper : ℤ) - lower + 1) * 2 ^ lower := by
        rw [← zpow_natCast, ← zpow_natCast, ← zpow_add₀ two_ne_zero]
        congr 1
        push_cast
        ring
      _ ≤ 2 ^ ((upper : ℤ) - lower + 1) * fraction.denominator := by gcongr

/-- At its exponent, a positive fraction has a significand of at most 53 bits, and of fewer only if
the exponent is the lowest one. -/
theorem unitExponent_spec (positive : 0 < fraction.denominator)
    (nonzero : fraction.numerator ≠ 0) :
    lowestExponent ≤ unitExponent fraction ∧
      fraction.toRat * 2 ^ (-unitExponent fraction) < 2 * binade ∧
      (unitExponent fraction = lowestExponent ∨
        binade ≤ fraction.toRat * 2 ^ (-unitExponent fraction)) := by
  obtain ⟨above, below⟩ := logarithm_bounds positive nonzero
  have isBinade : (binade : ℚ) = 2 ^ (52 : ℤ) := by norm_num [binade]
  rw [unitExponent]
  generalize isGuess : max lowestExponent (fraction.logarithm - 53) = guess
  generalize fraction.logarithm = logarithm at above below isGuess
  have isFloor : 2 * binade ≤ (fraction.scale 2 (-guess)).floor ↔
      2 * (binade : ℚ) ≤ fraction.toRat * 2 ^ (-guess) := by
    rw [Fraction.floor_eq, Nat.le_floor_iff (Fraction.toRat_nonneg _), Fraction.toRat_scale]
    push_cast
    rfl
  simp only [isFloor]
  split
  · next large =>
    -- The guess leaves at most 54 bits, of which one is too many here.
    have bounded : fraction.toRat * 2 ^ (-guess) < 4 * binade := by
      calc fraction.toRat * 2 ^ (-guess)
          < 2 ^ (logarithm + 1) * 2 ^ (-guess) := by gcongr
        _ = 2 ^ (logarithm + 1 - guess) := by rw [← zpow_add₀ two_ne_zero, sub_eq_add_neg]
        _ ≤ 2 ^ (54 : ℤ) := zpow_le_zpow_right₀ one_le_two (by omega)
        _ = 4 * binade := by norm_num [binade]
    have halved : fraction.toRat * 2 ^ (-(guess + 1)) = fraction.toRat * 2 ^ (-guess) / 2 := by
      rw [neg_add, zpow_add₀ two_ne_zero, zpow_neg_one]
      ring
    rw [halved]
    exact ⟨by omega, by linarith, .inr (by linarith)⟩
  · next small =>
    refine ⟨by omega, not_le.mp small, ?_⟩
    by_cases isLowest : guess = lowestExponent
    · exact .inl isLowest
    · right
      calc (binade : ℚ) = 2 ^ (logarithm - 1) * 2 ^ (-guess) := by
            rw [isBinade, ← zpow_add₀ two_ne_zero]
            congr 1
            omega
        _ ≤ fraction.toRat * 2 ^ (-guess) := by gcongr

/-- A fraction is rounded to one of the ranks around it. -/
theorem rounds_nearestRank (positive : 0 < fraction.denominator) : ∃ lower,
    Fraction.Rounds fraction.toRat (magnitudeAt lower) (magnitudeAt (lower + 1)) lower
      (nearestRank fraction) := by
  rw [nearestRank]
  by_cases isZero : fraction.numerator = 0
  · rw [if_pos isZero]
    have rational : fraction.toRat = magnitudeAt 0 := by
      simp [Fraction.toRat, isZero, magnitudeAt_zero]
    have next := magnitudeAt_strictMono (Nat.lt_succ_self 0)
    rw [rational]
    exact ⟨0, le_rfl, next, .inl ⟨rfl, by linarith⟩, fun _ => rfl⟩
  · rw [if_neg isZero]
    obtain ⟨lowest, bounded, normal⟩ := unitExponent_spec positive isZero
    simp only
    generalize unitExponent fraction = exponent at lowest bounded normal ⊢
    have rounds := (fraction.scale 2 (-exponent)).rounds_nearest
      (fraction.denominator_scale_pos positive _)
    have isFloor := (fraction.scale 2 (-exponent)).floor_eq
    rw [Fraction.toRat_scale] at rounds isFloor
    generalize (fraction.scale 2 (-exponent)).nearest = chosen at rounds ⊢
    generalize (fraction.scale 2 (-exponent)).floor = floor at rounds isFloor
    obtain ⟨shift, rfl⟩ := Int.le.dest lowest
    have isShift : (lowestExponent + shift - lowestExponent).toNat = shift := by omega
    have unscaled : fraction.toRat * 2 ^ (-(lowestExponent + shift)) * 2 ^ (lowestExponent + shift) =
        fraction.toRat := by
      rw [mul_assoc, ← zpow_add₀ two_ne_zero, neg_add_cancel, zpow_zero, mul_one]
    have small : floor < 2 * binade := by
      have := rounds.low_le.trans_lt bounded
      exact_mod_cast this
    have isNormal : shift = 0 ∨ binade ≤ floor := by
      rw [isFloor, Nat.le_floor_iff (mul_nonneg fraction.toRat_nonneg (by positivity))]
      exact normal.imp_left fun isLowest => by omega
    have isEven : shift * binade % 2 = 0 := Nat.mod_eq_zero_of_dvd (two_dvd_binade.mul_left shift)
    have scaled := rounds.scale (show (0 : ℚ) < 2 ^ (lowestExponent + shift) by positivity) isEven
    rw [unscaled, ← magnitudeAt_scaled small.le isNormal, ← Nat.cast_add_one,
      ← magnitudeAt_scaled (Nat.succ_le_of_lt small) (isNormal.imp_right Nat.le_succ_of_le),
      Nat.succ_eq_add_one, ← Nat.add_assoc] at scaled
    rw [isShift]
    exact ⟨shift * binade + floor, scaled⟩

/-- A fraction that is not too large is rounded to the number nearest to it. -/
theorem isNearest_of_ofFraction? {negative : Bool} {number : Binary64}
    (positive : 0 < fraction.denominator)
    (rounded : ofFraction? negative fraction = some number) :
    IsNearest (if negative then -fraction.toRat else fraction.toRat) number := by
  obtain ⟨lower, rounds⟩ := rounds_nearestRank positive
  simp only [ofFraction?] at rounded
  split at rounded
  · next finite =>
    cases rounded
    have unsigned : IsNearest fraction.toRat ⟨false, nearestRank fraction, finite⟩ :=
      isNearest_of_rounds rfl rounds
    cases negative with
    | false => exact unsigned
    | true => exact unsigned.neg
  · cases rounded

end Rounding

end Binary64
end Assay
