import Assay.Literal
import Assay.Proofs.Rounding

/-!
# Equality of numbers

A JSON number is an integer or a binary64 number, and either way it stands for a rational number.
Two integers are equal if they are the same, and two binary64 numbers are equal if they stand for the
same rational number.  An integer and a binary64 number, however, are compared only after the integer
has been rounded.  So an integer also equals the number that it is rounded to, and two integers that
are rounded alike are both equal to a third number without being equal to each other.
-/

namespace Assay

namespace Binary64

variable {fraction : Fraction} {rank : ℕ}

theorem nearestRank_le (positive : 0 < fraction.denominator)
    (less : fraction.toRat < magnitudeAt rank) : nearestRank fraction ≤ rank := by
  obtain ⟨lower, rounds⟩ := rounds_nearestRank positive
  have isBelow : lower < rank := magnitudeAt_strictMono.lt_iff_lt.mp (rounds.low_le.trans_lt less)
  rcases rounds.nearer with ⟨isLower, _⟩ | ⟨isUpper, _⟩ <;> omega

/-- Ranks are in the middle of their range where the magnitudes are natural numbers. -/
theorem magnitudeAt_natCast (shift : ℕ) {significand : ℕ} (small : significand ≤ 2 * binade)
    (large : binade ≤ significand) :
    magnitudeAt ((1074 + shift) * binade + significand) = significand * 2 ^ shift := by
  rw [magnitudeAt_scaled small (.inr large),
    show lowestExponent + ((1074 + shift : ℕ) : ℤ) = shift by simp [lowestExponent], zpow_natCast]

/-- Every natural number below `2 ^ 64` is rounded to a finite number. -/
theorem exists_ofNat? (value : ℕ) (small : value < 18446744073709551616) :
    ∃ number, ofNat? value = some number := by
  have less : Fraction.toRat { numerator := value } < magnitudeAt ((1074 + 12) * binade + binade) := by
    rw [magnitudeAt_natCast 12 (by omega) le_rfl]
    norm_num [Fraction.toRat, binade]
    exact small
  have finite : nearestRank { numerator := value } < rankBound :=
    (nearestRank_le Nat.one_pos less).trans_lt (by decide)
  simp only [ofNat?, ofFraction?, dif_pos finite]
  exact ⟨_, rfl⟩

/-- Every natural number up to `2 ^ 53` is the magnitude of a finite number. -/
theorem exists_magnitudeAt_eq {value : ℕ} (small : value ≤ 2 * binade) :
    ∃ rank < rankBound, magnitudeAt rank = value := by
  by_cases large : binade ≤ value
  · have magnitude := magnitudeAt_natCast 0 small large
    rw [pow_zero, mul_one] at magnitude
    have finite : (1074 + 0) * binade + 2 * binade < rankBound := by decide
    exact ⟨_, by omega, magnitude⟩
  · rcases Nat.eq_zero_or_pos value with rfl | positive
    · exact ⟨0, by decide, by simp [magnitudeAt_zero]⟩
    · -- The number is doubled until it has 53 bits.
      have isBinade : binade = 2 ^ 52 := by decide
      have bits : value.log2 < 52 :=
        (Nat.log2_lt positive.ne').mpr (isBinade ▸ not_le.mp large)
      obtain ⟨doublings, isDoublings⟩ := Nat.exists_eq_add_of_lt bits
      have atLeast : binade ≤ value * 2 ^ (doublings + 1) := by
        calc binade = 2 ^ value.log2 * 2 ^ (doublings + 1) := by
              rw [isBinade, ← pow_add, isDoublings, Nat.add_assoc]
          _ ≤ value * 2 ^ (doublings + 1) := by gcongr; exact Nat.log2_self_le positive.ne'
      have atMost : value * 2 ^ (doublings + 1) ≤ 2 * binade := by
        calc value * 2 ^ (doublings + 1) ≤ 2 ^ (value.log2 + 1) * 2 ^ (doublings + 1) := by
              gcongr
              exact Nat.lt_log2_self.le
          _ = 2 * binade := by
              rw [isBinade, ← pow_add, isDoublings]
              ring
      obtain ⟨shift, isShift⟩ : ∃ shift, shift + (doublings + 1) = 1074 :=
        ⟨1074 - (doublings + 1), by omega⟩
      refine ⟨shift * binade + value * 2 ^ (doublings + 1), ?_, ?_⟩
      · have fewer : shift * binade ≤ 1074 * binade := Nat.mul_le_mul_right _ (by omega)
        have finite : 1074 * binade + 2 * binade < rankBound := by decide
        omega
      · have exponent : lowestExponent + shift = -((doublings + 1 : ℕ) : ℤ) := by
          simp only [lowestExponent]
          omega
        rw [magnitudeAt_scaled atMost (.inr atLeast), exponent, zpow_neg, zpow_natCast]
        push_cast
        field_simp

end Binary64

namespace Number

/-- The rational number that a number stands for. -/
def exact : Number → ℚ
  | .integer value _ _ => value
  | .binary value => value.exact

/-- An integer is rounded to a binary64 number, or is equal to it. -/
def RoundsTo : Number → Number → Prop
  | .integer value _ _, .binary number => number.IsNearest value
  | _, _ => False

/-- The integers up to `2 ^ 53`, of either sign, and all binary64 numbers. -/
def IsPrecise : Number → Prop
  | .integer value _ _ => value.natAbs ≤ 2 * Binary64.binade
  | .binary _ => True

section Rounding

variable {value : ℤ}

/-- Every integer of 64 bits is rounded to the binary64 number nearest to it. -/
theorem isNearest_nearestBinary (lower : least ≤ value) (upper : value < unsignedBound) :
    (nearestBinary value).IsNearest value := by
  simp only [least, unsignedBound] at lower upper
  obtain ⟨number, isNumber⟩ := Binary64.exists_ofNat? value.natAbs (by omega)
  have nearest := Binary64.isNearest_of_ofFraction? Nat.one_pos isNumber
  have rational : Fraction.toRat { numerator := value.natAbs } = |(value : ℚ)| := by
    simp [Fraction.toRat]
  simp only [Bool.false_eq_true, if_false, rational] at nearest
  simp only [nearestBinary, isNumber, Option.getD_some]
  split
  · next negative =>
    have isNegative : (value : ℚ) < 0 := by exact_mod_cast negative
    rw [abs_of_neg isNegative] at nearest
    have negated := nearest.neg
    rwa [neg_neg] at negated
  · next positive =>
    have isPositive : (0 : ℚ) ≤ value := by exact_mod_cast not_lt.mp positive
    rwa [abs_of_nonneg isPositive] at nearest

/-- An integer up to `2 ^ 53` is rounded to a number that stands for it. -/
theorem exact_of_isNearest (small : value.natAbs ≤ 2 * Binary64.binade) {number : Binary64}
    (nearest : number.IsNearest value) : number.exact = value := by
  obtain ⟨rank, finite, magnitude⟩ := Binary64.exists_magnitudeAt_eq small
  let itself : Binary64 := ⟨decide (value < 0), rank, finite⟩
  have isExact : itself.exact = value := by
    rw [Binary64.exact, Binary64.toRat_magnitude, magnitude, Nat.cast_natAbs, Int.cast_abs]
    simp only [itself, decide_eq_true_eq]
    split
    · next negative =>
      rw [abs_of_neg (by exact_mod_cast negative), neg_neg]
    · next positive =>
      rw [abs_of_nonneg (by exact_mod_cast not_lt.mp positive)]
  have nearestToo := itself.isNearest_exact
  rw [isExact] at nearestToo
  exact (nearest.unique nearestToo).trans isExact

theorem exact_nearestBinary_eq_iff (lower : least ≤ value) (upper : value < unsignedBound)
    {number : Binary64} :
    (nearestBinary value).exact = number.exact ↔ number.IsNearest value := by
  have nearest := isNearest_nearestBinary lower upper
  constructor
  · exact nearest.congr
  · exact nearest.unique

end Rounding

section Same

variable {left middle right : Number}

theorem same_comm (left right : Number) : left.same right = right.same left := by
  rw [Bool.eq_iff_iff]
  cases left <;> cases right <;> simp only [same, toBinary, Binary64.same_iff, beq_iff_eq] <;>
    exact eq_comm

/-- Two numbers are equal if they stand for the same rational number, or if one of them is an integer
that is rounded to the other. -/
theorem same_iff : left.same right = true ↔
    left.exact = right.exact ∨ left.RoundsTo right ∨ right.RoundsTo left := by
  have mixed : ∀ (value : ℤ) (lower : least ≤ value) (upper : value < unsignedBound)
      (number : Binary64), (nearestBinary value).exact = number.exact ↔
        (value : ℚ) = number.exact ∨ number.IsNearest value := by
    intro value lower upper number
    rw [exact_nearestBinary_eq_iff lower upper]
    constructor
    · exact .inr
    · rintro (isExact | nearest)
      · rw [isExact]
        exact number.isNearest_exact
      · exact nearest
  cases left with
  | integer value lower upper =>
      cases right with
      | integer other => simp [same, exact, RoundsTo]
      | binary number =>
          simp only [same, toBinary, Binary64.same_iff, exact, RoundsTo, or_false]
          exact mixed value lower upper number
  | binary number =>
      cases right with
      | integer value lower upper =>
          simp only [same, toBinary, Binary64.same_iff, exact, RoundsTo, false_or]
          rw [eq_comm, mixed value lower upper number, eq_comm]
      | binary other => simp [same, toBinary, Binary64.same_iff, exact, RoundsTo]

/-- Among precise numbers, nothing is rounded to another number. -/
theorem RoundsTo.exact_eq (rounds : left.RoundsTo right) (precise : left.IsPrecise) :
    left.exact = right.exact := by
  cases left with
  | binary number => exact rounds.elim
  | integer value lower upper =>
      cases right with
      | integer other => exact rounds.elim
      | binary number => exact (exact_of_isNearest precise rounds).symm

/-- Equal numbers are equal when both are taken as binary64 numbers. -/
theorem exact_toBinary_of_same (equal : left.same right = true) :
    left.toBinary.exact = right.toBinary.exact := by
  cases left <;> cases right <;>
    simp only [same, Binary64.same_iff, beq_iff_eq] at equal <;>
    first | exact equal | rw [toBinary, toBinary, equal]

/-- Two numbers that are equal to a third one are equal to each other, unless they are different
integers that are both rounded to the third one. -/
theorem same_trans_iff (first : left.same middle = true) (second : middle.same right = true) :
    left.same right = true ↔
      (left.RoundsTo middle → right.RoundsTo middle → left.exact = right.exact) := by
  have alike := (exact_toBinary_of_same first).trans (exact_toBinary_of_same second)
  cases left with
  | binary number =>
      have equal : Number.same (.binary number) right = true := by
        simpa only [same, Binary64.same_iff] using alike
      exact ⟨fun _ rounds => rounds.elim, fun _ => equal⟩
  | integer value lower upper =>
      cases right with
      | binary number =>
          have equal : Number.same (.integer value lower upper) (.binary number) = true := by
            simpa only [same, Binary64.same_iff] using alike
          exact ⟨fun _ _ rounds => rounds.elim, fun _ => equal⟩
      | integer other lowerToo upperToo =>
          simp only [same, beq_iff_eq, exact, Int.cast_inj]
          constructor
          · exact fun equal _ _ => equal
          · intro unlessRounded
            cases middle with
            | integer between =>
                simp only [same, beq_iff_eq] at first second
                exact first.trans second
            | binary between =>
                rw [same_comm] at second
                simp only [same, toBinary, Binary64.same_iff] at first second
                exact unlessRounded ((exact_nearestBinary_eq_iff lower upper).mp first)
                  ((exact_nearestBinary_eq_iff lowerToo upperToo).mp second)

end Same

end Number

namespace Literal

/-- When literals compare numbers exactly.  A literal accepts the numbers that stand for the same
rational number, and besides them, if it is an integer, what it is rounded to, or if it is not, the
integers that are rounded to it.  So a comparison is exact unless it is between an integer and
another rational number that the integer is rounded to, which does not happen up to `2 ^ 53`.  It does
not matter on which side a number stands, but two numbers that are matched by a third one need not
match each other: they do, unless both are integers that are rounded to the third one. -/
theorem numbers_match_exactly_iff (left middle right : Number) :
    let matching (expected found : Number) : Prop :=
      (Literal.number expected).accepts (some (.number found)) = true
    ((matching left right ↔ left.exact = right.exact) ↔
        ¬ (left.exact ≠ right.exact ∧ (left.RoundsTo right ∨ right.RoundsTo left))) ∧
      (left.IsPrecise → right.IsPrecise → (matching left right ↔ left.exact = right.exact)) ∧
      (matching left right ↔ matching right left) ∧
      (matching left middle → matching middle right →
        (matching left right ↔
          (left.RoundsTo middle → right.RoundsTo middle → left.exact = right.exact))) := by
  simp only [accepts]
  constructor
  case left =>
      rw [Number.same_iff]
      tauto
  case right =>
      refine ⟨fun leftPrecise rightPrecise => ?_, by rw [Number.same_comm], Number.same_trans_iff⟩
      rw [Number.same_iff]
      constructor
      · rintro (equal | rounds | rounds)
        · exact equal
        · exact rounds.exact_eq leftPrecise
        · exact (rounds.exact_eq rightPrecise).symm
      · exact .inl

/-- The least integer above `2 ^ 53` is matched by the number `2 ^ 53`, which it is rounded to, and
does not match the integer `2 ^ 53`, although the two numbers `2 ^ 53` match. -/
theorem numbers_match_inexactly :
    let next : Number := .integer 9007199254740993 (by decide) (by decide)
    let power : Number := .integer 9007199254740992 (by decide) (by decide)
    let binaryPower : Number := .binary ⟨false, 1076 * Binary64.binade, by decide⟩
    (Literal.number next).accepts (some (.number binaryPower)) = true ∧
      next.exact ≠ binaryPower.exact ∧ power.exact = binaryPower.exact ∧
      (Literal.number binaryPower).accepts (some (.number power)) = true ∧
      (Literal.number next).accepts (some (.number power)) = false := by
  have isPower : Binary64.exact ⟨false, 1076 * Binary64.binade, by decide⟩ = 9007199254740992 := by
    have magnitude := Binary64.magnitudeAt_natCast 1 (by decide) le_rfl
    rw [show (1074 + 1) * Binary64.binade + Binary64.binade = 1076 * Binary64.binade by decide]
      at magnitude
    rw [Binary64.exact, Binary64.toRat_magnitude, magnitude]
    norm_num [Binary64.binade]
  simp only [Number.exact, isPower]
  refine ⟨by decide +kernel, by norm_num, by norm_num, by decide +kernel, by decide⟩

end Literal

end Assay
