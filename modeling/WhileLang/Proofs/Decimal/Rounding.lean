import Mathlib
import WhileLang.Proofs.Decimal.Binary64

/-!
# The shortest decimal of a binary64 number rounds to it

The decimals that round to a binary64 number fill an interval around it, and the shortest
decimal of the number is found in this interval.  The intervals of two numbers have nothing
in common.  At most they touch at an end, which lies half way between the two numbers, and
then one of the mantissas is odd and its interval lacks the end.
-/

namespace WhileLang.Decimal

/-- The number that a decimal stands for. -/
def Scaled.value (number : Scaled) : ℚ :=
  number.coefficient * 10 ^ number.exponent

/-- How far the interval of a number reaches below it, in quarters of a step of its
mantissa. -/
def lowerQuarters (mantissa : Nat) (exponent : Int) : Nat :=
  if mantissa = 2 ^ 52 ∧ -1074 < exponent then 1 else 2

/-- A number lies in the interval that rounds to `mantissa * 2 ^ exponent`.  The ends belong
to it if the mantissa is even. -/
structure RoundsTo (number : ℚ) (mantissa : Nat) (exponent : Int) : Prop where
  lower : (4 * mantissa - lowerQuarters mantissa exponent) * 2 ^ exponent ≤ 4 * number
  upper : 4 * number ≤ (4 * mantissa + 2) * 2 ^ exponent
  inside : mantissa % 2 = 1 →
    (4 * mantissa - lowerQuarters mantissa exponent) * 2 ^ exponent < 4 * number ∧
      4 * number < (4 * mantissa + 2) * 2 ^ exponent

theorem lowerQuarters_le (mantissa : Nat) (exponent : Int) : lowerQuarters mantissa exponent ≤ 2 := by
  unfold lowerQuarters
  split <;> decide

theorem lowerQuarters_pos (mantissa : Nat) (exponent : Int) :
    0 < lowerQuarters mantissa exponent := by
  unfold lowerQuarters
  split <;> decide

theorem two_zpow_pos (exponent : Int) : (0 : ℚ) < 2 ^ exponent :=
  zpow_pos (by norm_num) exponent

theorem ten_zpow_pos (exponent : Int) : (0 : ℚ) < 10 ^ exponent :=
  zpow_pos (by norm_num) exponent

/-! ## Intervals of different numbers -/

namespace RoundsTo

variable {number : ℚ} {mantissa mantissa' : Nat} {exponent exponent' : Int}

theorem pos (rounds : RoundsTo number mantissa exponent) (positive : 0 < mantissa) :
    0 < number := by
  have quarters : (lowerQuarters mantissa exponent : ℚ) ≤ 2 := by
    exact_mod_cast lowerQuarters_le mantissa exponent
  have atLeastOne : (1 : ℚ) ≤ mantissa := by exact_mod_cast positive
  have low : 0 < (4 * mantissa - lowerQuarters mantissa exponent : ℚ) * 2 ^ exponent :=
    mul_pos (by linarith) (two_zpow_pos exponent)
  linarith [rounds.lower]

/-- Of two numbers with one exponent, the interval of the smaller one lies below. -/
theorem not_lt_mantissa (rounds : RoundsTo number mantissa exponent)
    (rounds' : RoundsTo number mantissa' exponent) : ¬mantissa < mantissa' := by
  intro less
  have step := two_zpow_pos exponent
  have quarters : (lowerQuarters mantissa' exponent : ℚ) ≤ 2 := by
    exact_mod_cast lowerQuarters_le mantissa' exponent
  have between : (4 * mantissa' - 2 : ℚ) * 2 ^ exponent ≤ (4 * mantissa + 2) * 2 ^ exponent :=
    calc (4 * mantissa' - 2 : ℚ) * 2 ^ exponent
        ≤ (4 * mantissa' - lowerQuarters mantissa' exponent) * 2 ^ exponent :=
          mul_le_mul_of_nonneg_right (by linarith) step.le
      _ ≤ 4 * number := rounds'.lower
      _ ≤ (4 * mantissa + 2) * 2 ^ exponent := rounds.upper
  have neighbours : mantissa' = mantissa + 1 := by
    have : (4 * mantissa' - 2 : ℚ) ≤ 4 * mantissa + 2 := le_of_mul_le_mul_right between step
    have : (mantissa' : ℚ) ≤ mantissa + 1 := by linarith
    have : mantissa' ≤ mantissa + 1 := by exact_mod_cast this
    omega
  subst neighbours
  push_cast at between quarters
  have low := rounds'.lower
  push_cast at low
  have lowest : (4 * mantissa + 2 : ℚ) * 2 ^ exponent ≤
      (4 * (mantissa + 1) - lowerQuarters (mantissa + 1) exponent) * 2 ^ exponent :=
    mul_le_mul_of_nonneg_right (by linarith) step.le
  -- The intervals touch, and one of the two mantissas is odd.
  rcases Nat.mod_two_eq_zero_or_one mantissa with even | odd
  · have inside := (rounds'.inside (by omega)).1
    push_cast at inside
    linarith [rounds.upper]
  · linarith [(rounds.inside odd).2]

/-- Of two numbers with different exponents, the interval of the one with the smaller
exponent lies below. -/
theorem not_lt_exponent (binary : IsBinary64 mantissa exponent)
    (binary' : IsBinary64 mantissa' exponent') (rounds : RoundsTo number mantissa exponent)
    (rounds' : RoundsTo number mantissa' exponent') : ¬exponent < exponent' := by
  intro less
  have step := two_zpow_pos exponent
  have notLeast : -1074 < exponent' := lt_of_le_of_lt binary.least less
  have doubled : (2 : ℚ) * 2 ^ exponent ≤ 2 ^ exponent' := by
    rw [← zpow_one_add₀ (by norm_num)]
    exact zpow_le_zpow_right₀ (by norm_num) (by omega)
  have low : (2 ^ 54 - 1 : ℚ) ≤ 4 * mantissa' - lowerQuarters mantissa' exponent' := by
    unfold lowerQuarters
    split_ifs with leastMantissa
    · rw [leastMantissa.1]
      norm_num
    · have larger : 2 ^ 52 + 1 ≤ mantissa' := by
        have := binary'.normal notLeast
        have : mantissa' ≠ 2 ^ 52 := fun same => leastMantissa ⟨same, notLeast⟩
        omega
      have larger : (2 ^ 52 + 1 : ℚ) ≤ mantissa' := by exact_mod_cast larger
      norm_num
      linarith
  have above : (2 ^ 55 - 2 : ℚ) * 2 ^ exponent ≤ 4 * number :=
    calc (2 ^ 55 - 2 : ℚ) * 2 ^ exponent
        = (2 ^ 54 - 1) * (2 * 2 ^ exponent) := by ring
      _ ≤ (2 ^ 54 - 1) * 2 ^ exponent' := mul_le_mul_of_nonneg_left doubled (by norm_num)
      _ ≤ (4 * mantissa' - lowerQuarters mantissa' exponent') * 2 ^ exponent' :=
          mul_le_mul_of_nonneg_right low (two_zpow_pos exponent').le
      _ ≤ 4 * number := rounds'.lower
  rcases Nat.lt_or_ge mantissa (2 ^ 53 - 1) with smaller | largest
  · have smaller : (mantissa : ℚ) + 1 ≤ 2 ^ 53 - 1 := by
      have : mantissa + 2 ≤ 2 ^ 53 := by omega
      have : (mantissa : ℚ) + 2 ≤ 2 ^ 53 := by exact_mod_cast this
      linarith
    have below : (4 * mantissa + 2 : ℚ) * 2 ^ exponent < (2 ^ 55 - 2) * 2 ^ exponent :=
      mul_lt_mul_of_pos_right (by linarith) step
    linarith [rounds.upper]
  · -- The largest mantissa is odd, so the upper end of its interval is left out.
    have same : mantissa = 2 ^ 53 - 1 := by
      have := binary.bounded
      omega
    have below := (rounds.inside (by omega)).2
    have ends : (4 * mantissa + 2 : ℚ) = 2 ^ 55 - 2 := by
      rw [same]
      norm_num
    rw [ends] at below
    linarith

/-- A number lies in the interval of one binary64 number at most. -/
theorem unique (binary : IsBinary64 mantissa exponent) (binary' : IsBinary64 mantissa' exponent')
    (rounds : RoundsTo number mantissa exponent) (rounds' : RoundsTo number mantissa' exponent') :
    mantissa = mantissa' ∧ exponent = exponent' := by
  have sameExponent : exponent = exponent' := by
    have notLess := not_lt_exponent binary binary' rounds rounds'
    have notGreater := not_lt_exponent binary' binary rounds' rounds
    omega
  subst sameExponent
  have notLess := rounds.not_lt_mantissa rounds'
  have notGreater := rounds'.not_lt_mantissa rounds
  omega

end RoundsTo

/-! ## The interval in whole numbers -/

/-- A power of two in units of a power of ten. -/
theorem unit_mul_ten_zpow (mantissa : Nat) (exponent : Int) :
    ((RoundingInterval.ofBinary mantissa exponent).unit : ℚ) * 10 ^ min exponent 0 =
      2 ^ exponent := by
  simp only [RoundingInterval.ofBinary, Nat.pow_eq]
  split_ifs with nonnegative
  · obtain ⟨natural, rfl⟩ := Int.eq_ofNat_of_zero_le nonnegative
    rw [min_eq_right nonnegative, zpow_zero, mul_one, Int.toNat_natCast, zpow_natCast,
      Nat.cast_pow, Nat.cast_ofNat]
  · obtain ⟨natural, same⟩ := Int.eq_ofNat_of_zero_le (show 0 ≤ -exponent by omega)
    obtain rfl : exponent = -natural := by omega
    have parts : (10 : ℚ) ^ natural = 2 ^ natural * 5 ^ natural := by
      rw [← mul_pow]
      norm_num
    rw [min_eq_left (by omega), neg_neg, Int.toNat_natCast, zpow_neg, zpow_neg, zpow_natCast,
      zpow_natCast, Nat.cast_pow, Nat.cast_ofNat, parts]
    field_simp

section

variable {unit : Nat} {scale step : ℚ}

/-- Whole numbers of units are compared as the numbers that they stand for. -/
theorem steps_le_iff (units : unit * scale = step) (positive : 0 < scale)
    (steps quantity : Nat) : (steps : ℚ) * step ≤ quantity * scale ↔ steps * unit ≤ quantity := by
  rw [← units, ← mul_assoc, mul_le_mul_iff_left₀ positive]
  exact_mod_cast Iff.rfl

theorem le_steps_iff (units : unit * scale = step) (positive : 0 < scale)
    (steps quantity : Nat) : (quantity : ℚ) * scale ≤ steps * step ↔ quantity ≤ steps * unit := by
  rw [← units, ← mul_assoc, mul_le_mul_iff_left₀ positive]
  exact_mod_cast Iff.rfl

end

/-- A whole number of units lies in the interval if it passes the test of the interval. -/
theorem RoundsTo.of_contains {mantissa : Nat} {exponent : Int} {candidate : Nat}
    (positive : 0 < mantissa)
    (contains : (RoundingInterval.ofBinary mantissa exponent).contains candidate = true) :
    RoundsTo (candidate * 10 ^ min exponent 0) mantissa exponent := by
  have units := unit_mul_ten_zpow mantissa exponent
  have scale := ten_zpow_pos (min exponent 0)
  have center : (RoundingInterval.ofBinary mantissa exponent).center =
      mantissa * (RoundingInterval.ofBinary mantissa exponent).unit := rfl
  have quarters : (RoundingInterval.ofBinary mantissa exponent).lowerQuarters =
      lowerQuarters mantissa exponent := rfl
  have closed : (RoundingInterval.ofBinary mantissa exponent).closed = (mantissa % 2 == 0) := rfl
  unfold RoundingInterval.contains at contains
  rw [center, quarters, closed, ← mul_assoc, ← Nat.sub_mul, ← Nat.add_mul] at contains
  generalize (RoundingInterval.ofBinary mantissa exponent).unit = unit at units contains
  have low : (4 * mantissa - lowerQuarters mantissa exponent : ℚ) =
      (4 * mantissa - lowerQuarters mantissa exponent : Nat) := by
    have fits : lowerQuarters mantissa exponent ≤ 4 * mantissa := by
      have := lowerQuarters_le mantissa exponent
      omega
    rw [Nat.cast_sub fits]
    norm_num
  have high : (4 * mantissa + 2 : ℚ) = (4 * mantissa + 2 : Nat) := by norm_num
  have four : 4 * ((candidate : ℚ) * 10 ^ min exponent 0) =
      (4 * candidate : Nat) * 10 ^ min exponent 0 := by
    rw [← mul_assoc]
    norm_num
  have within : (4 * mantissa - lowerQuarters mantissa exponent) * unit ≤ 4 * candidate ∧
      4 * candidate ≤ (4 * mantissa + 2) * unit := by
    split_ifs at contains <;> simp only [Bool.and_eq_true, decide_eq_true_eq] at contains
    · exact contains
    · exact ⟨contains.1.le, contains.2.le⟩
  refine ⟨?_, ?_, fun odd => ?_⟩
  · rw [low, four, steps_le_iff units scale]
    exact within.1
  · rw [high, four, le_steps_iff units scale]
    exact within.2
  · rw [if_neg (by simp [odd])] at contains
    rw [low, high, four, ← not_le, ← not_le, le_steps_iff units scale, steps_le_iff units scale,
      not_le, not_le]
    simpa using contains

/-! ## The coarsest grid -/

/-- The number itself lies in its interval. -/
theorem contains_center {mantissa : Nat} (exponent : Int) (positive : 0 < mantissa) :
    (RoundingInterval.ofBinary mantissa exponent).contains
      (RoundingInterval.ofBinary mantissa exponent).center = true := by
  have unitPositive : 0 < (RoundingInterval.ofBinary mantissa exponent).unit := by
    simp only [RoundingInterval.ofBinary, Nat.pow_eq]
    split <;> positivity
  have centerPositive : 0 < (RoundingInterval.ofBinary mantissa exponent).center :=
    Nat.mul_pos positive unitPositive
  have quartersPositive :
      0 < (RoundingInterval.ofBinary mantissa exponent).lowerQuarters *
        (RoundingInterval.ofBinary mantissa exponent).unit :=
    Nat.mul_pos (lowerQuarters_pos mantissa exponent) unitPositive
  unfold RoundingInterval.contains
  dsimp only
  split
  · simp
  · simp only [Bool.and_eq_true, decide_eq_true_eq]
    omega

theorem RoundingInterval.contains_of_gridPoint? {interval : RoundingInterval} {step multiple : Nat}
    (found : interval.gridPoint? step = some multiple) :
    interval.contains (multiple * step) = true := by
  unfold RoundingInterval.gridPoint? at found
  dsimp only at found
  split at found
  next down up =>
    cases found
    split_ifs
    · exact down
    · exact up
  next down _ =>
    cases found
    exact down
  next _ up =>
    cases found
    exact up
  next => cases found

theorem RoundingInterval.contains_coarsest {interval : RoundingInterval}
    (center : interval.contains interval.center = true) (power : Nat) :
    interval.contains ((interval.coarsest power).1 * 10 ^ (interval.coarsest power).2) = true := by
  induction power with
  | zero => simpa [RoundingInterval.coarsest] using center
  | succ power ih =>
      rw [RoundingInterval.coarsest]
      cases found : interval.gridPoint? (Nat.pow 10 (power + 1)) with
      | none => exact ih
      | some multiple => exact interval.contains_of_gridPoint? found

/-! ## Trailing zeros -/

/-- As many zeros as stand at the end of a decimal numeral can be divided out. -/
theorem ten_pow_trailingZeros_dvd (natural : Nat) :
    10 ^ ((Nat.toDigits 10 natural).reverse.takeWhile (· = '0')).length ∣ natural := by
  have split : Nat.toDigits 10 natural =
      ((Nat.toDigits 10 natural).reverse.dropWhile (· = '0')).reverse ++
        List.replicate ((Nat.toDigits 10 natural).reverse.takeWhile (· = '0')).length '0' := by
    have zeros : (Nat.toDigits 10 natural).reverse.takeWhile (· = '0') =
        List.replicate ((Nat.toDigits 10 natural).reverse.takeWhile (· = '0')).length '0' :=
      List.eq_replicate_of_mem fun c member => by simpa using List.mem_takeWhile_imp member
    rw [← List.reverse_replicate, ← zeros, ← List.reverse_append, List.takeWhile_append_dropWhile,
      List.reverse_reverse]
  have value : Nat.ofDigitChars 10 (Nat.toDigits 10 natural) 0 = natural :=
    Nat.ofDigitChars_ten_toDigits
  rw [split, Nat.ofDigitChars_append, Nat.ofDigitChars_replicate_zero] at value
  exact Dvd.intro _ value

theorem Scaled.value_trim (number : Scaled) : number.trim.value = number.value := by
  obtain ⟨rest, same⟩ := ten_pow_trailingZeros_dvd number.coefficient
  simp only [value, trim, Nat.pow_eq]
  generalize ((Nat.toDigits 10 number.coefficient).reverse.takeWhile (· = '0')).length = zeros at same
  rw [same, Nat.mul_div_cancel_left rest (by positivity), zpow_add₀ (by norm_num), zpow_natCast]
  push_cast
  ring

/-- The shortest decimal of a binary64 number rounds to this number. -/
theorem roundsTo_shortest {mantissa : Nat} (exponent : Int) (positive : 0 < mantissa) :
    RoundsTo (shortest mantissa exponent).value mantissa exponent := by
  have contains := (RoundingInterval.ofBinary mantissa exponent).contains_coarsest
    (contains_center exponent positive)
      ((Nat.toDigits 10 (RoundingInterval.ofBinary mantissa exponent).center).length - 1)
  have rounds := RoundsTo.of_contains positive contains
  simp only [shortest, Scaled.value_trim]
  rw [Scaled.value, zpow_add₀ (by norm_num), zpow_natCast]
  push_cast at rounds
  convert rounds using 1
  ring

end WhileLang.Decimal
