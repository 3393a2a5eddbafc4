import Mathlib
import WhileLang.Semantics.Arithmetic

/-!
# Arithmetic without a bound

The operators on 64-bit integers are compared with those on all integers.  An operator is
given its exact result, division truncating and the remainder being that of the division
that rounds down, and the result is an error if it is not a 64-bit integer.
-/

namespace WhileLang

/-- The integers that 64 bits can hold. -/
def Is64Bit (number : Int) : Prop :=
  -2 ^ 63 ≤ number ∧ number < 2 ^ 63

instance (number : Int) : Decidable (Is64Bit number) :=
  inferInstanceAs (Decidable (_ ∧ _))

theorem is64Bit_toInt (number : Int64) : Is64Bit number.toInt :=
  ⟨number.le_toInt, number.toInt_lt⟩

/-- An integer of 64 bits is not changed when it is wrapped to 64 bits. -/
theorem Is64Bit.bmod_eq {number : Int} (is64Bit : Is64Bit number) :
    number.bmod (2 ^ 64) = number :=
  Int.bmod_eq_of_le (by have := is64Bit.1; omega) (by have := is64Bit.2; omega)

namespace ArithmeticOp

/-- The result of an operator on two integers, with the divisor not zero. -/
def exactResult (op : ArithmeticOp) (left right : Int) : Int :=
  match op with
  | .add => left + right
  | .sub => left - right
  | .mul => left * right
  | .div => left.tdiv right
  | .rem => left - right * left.fdiv right

/-- Whether the operator divides. -/
def divides : ArithmeticOp → Bool
  | .div | .rem => true
  | .add | .sub | .mul => false

/-- A result that has to be an integer of 64 bits. -/
def inRange (op : ArithmeticOp) (result : Int) : Except RuntimeError Int :=
  if Is64Bit result then .ok result else .error (.integerOverflow op)

/-- The result of an operator on integers of any size. -/
def onIntegers (op : ArithmeticOp) (left right : Int) : Except RuntimeError Int :=
  if op.divides ∧ right = 0 then .error .divisionByZero
  else op.inRange (op.exactResult left right)

theorem onIntegers_of_ne_zero (op : ArithmeticOp) (left : Int) {right : Int}
    (nonzero : right ≠ 0) : op.onIntegers left right = op.inRange (op.exactResult left right) :=
  if_neg fun zero => nonzero zero.2

/-! ## Results out of range -/

/-- A checked operator agrees with the exact one if the check finds the results that are out
of range and the others are computed modulo a power of two. -/
theorem map_toInt_checked {op : ArithmeticOp} {overflows : Bool} {wrapped : Int64} {exact : Int}
    (overflows_iff : overflows = true ↔ ¬Is64Bit exact)
    (wraps : wrapped.toInt = exact.bmod (2 ^ 64)) :
    (if overflows then .error (.integerOverflow op) else .ok wrapped :
        Except RuntimeError Int64).map Int64.toInt = op.inRange exact := by
  by_cases fits : Is64Bit exact
  · have holds : ¬overflows = true := fun overflow => overflows_iff.mp overflow fits
    rw [if_neg holds, inRange, if_pos fits, Except.map, wraps, fits.bmod_eq]
  · rw [if_pos (overflows_iff.mpr fits), inRange, if_neg fits, Except.map]

theorem saddOverflow_iff (left right : Int64) :
    left.toBitVec.saddOverflow right.toBitVec = true ↔ ¬Is64Bit (left.toInt + right.toInt) := by
  simp only [BitVec.saddOverflow, Int64.toInt_toBitVec, Is64Bit, Bool.or_eq_true,
    decide_eq_true_eq]
  omega

theorem ssubOverflow_iff (left right : Int64) :
    left.toBitVec.ssubOverflow right.toBitVec = true ↔ ¬Is64Bit (left.toInt - right.toInt) := by
  simp only [BitVec.ssubOverflow, Int64.toInt_toBitVec, Is64Bit, Bool.or_eq_true,
    decide_eq_true_eq]
  omega

theorem smulOverflow_iff (left right : Int64) :
    left.toBitVec.smulOverflow right.toBitVec = true ↔ ¬Is64Bit (left.toInt * right.toInt) := by
  simp only [BitVec.smulOverflow, Int64.toInt_toBitVec, Is64Bit, Bool.or_eq_true,
    decide_eq_true_eq]
  omega

/-- Only one division overflows. -/
theorem sdivOverflow_iff (left right : Int64) :
    left.toBitVec.sdivOverflow right.toBitVec = true ↔ left = Int64.minValue ∧ right = -1 := by
  rw [BitVec.sdivOverflow_eq]
  simp only [Bool.and_eq_true, decide_eq_true_eq, ← Int64.toBitVec_inj]
  exact ⟨fun ⟨⟨_, least⟩, ones⟩ => ⟨least, ones⟩, fun ⟨least, ones⟩ => ⟨⟨by decide, least⟩, ones⟩⟩

/-- The quotient of any other division is an integer of 64 bits. -/
theorem is64Bit_tdiv_iff (left right : Int64) :
    Is64Bit (left.toInt.tdiv right.toInt) ↔ ¬(left = Int64.minValue ∧ right = -1) := by
  constructor
  · rintro fits ⟨rfl, rfl⟩
    exact absurd fits (by decide)
  · intro other
    have quotient : (left / right).toInt = left.toInt.tdiv right.toInt := by
      by_cases least : left = Int64.minValue
      · exact Int64.toInt_div_of_ne_right left right fun minusOne => other ⟨least, minusOne⟩
      · exact Int64.toInt_div_of_ne_left left right least
    exact quotient ▸ is64Bit_toInt (left / right)

/-! ## The remainder -/

/-- The remainder of the division that rounds down, from that of the division that rounds
towards zero. -/
theorem sub_mul_fdiv_eq {left right : Int} :
    left - right * left.fdiv right =
      if left.tmod right ≠ 0 ∧ (left.tmod right < 0 ↔ ¬right < 0) then left.tmod right + right
      else left.tmod right := by
  rw [← Int.fmod_def, Int.fmod_eq_tmod]
  simp only [Int.dvd_iff_tmod_eq_zero]
  -- The truncated remainder has the sign of the dividend.
  rcases lt_or_ge left 0 with negative | nonneg
  · have sign := Int.tmod_nonneg right (Int.neg_nonneg_of_nonpos negative.le)
    rw [Int.neg_tmod] at sign
    split_ifs <;> omega
  · have sign := Int.tmod_nonneg right nonneg
    split_ifs <;> omega

/-- A remainder and a divisor of different signs are added without a carry out of the
range. -/
theorem toInt_add_of_lt_zero_iff {remainder divisor : Int64}
    (signs : remainder.toInt < 0 ↔ ¬divisor.toInt < 0) :
    (remainder + divisor).toInt = remainder.toInt + divisor.toInt := by
  have remainderFits := is64Bit_toInt remainder
  have divisorFits := is64Bit_toInt divisor
  have fits : Is64Bit (remainder.toInt + divisor.toInt) := by
    unfold Is64Bit at *
    omega
  rw [Int64.toInt_add, fits.bmod_eq]

/-- With a divisor that is not zero there is always a remainder. -/
theorem exists_onInts_rem {left right : Int64} (nonzero : right ≠ 0) :
    ∃ remainder, rem.onInts left right = .ok remainder ∧
      remainder.toInt = left.toInt - right.toInt * left.toInt.fdiv right.toInt := by
  have nonzero_iff : left % right ≠ 0 ↔ left.toInt.tmod right.toInt ≠ 0 := by
    rw [← Int64.toInt_mod, ← Int64.toInt_zero, ne_eq, ne_eq, Int64.toInt_inj]
  have signs_iff : (left % right < 0 ↔ ¬right < 0) ↔
      (left.toInt.tmod right.toInt < 0 ↔ ¬right.toInt < 0) := by
    rw [Int64.lt_iff_toInt_lt, Int64.lt_iff_toInt_lt, Int64.toInt_mod, Int64.toInt_zero]
  simp only [onInts, if_neg nonzero]
  rw [sub_mul_fdiv_eq]
  by_cases corrected : left % right ≠ 0 ∧ (left % right < 0 ↔ ¬right < 0)
  · have signs := signs_iff.mp corrected.2
    rw [if_pos corrected, if_pos ⟨nonzero_iff.mp corrected.1, signs⟩]
    exact ⟨_, rfl, by rw [toInt_add_of_lt_zero_iff (by rwa [Int64.toInt_mod]), Int64.toInt_mod]⟩
  · rw [if_neg corrected, if_neg (by rwa [← nonzero_iff, ← signs_iff])]
    exact ⟨_, rfl, Int64.toInt_mod left right⟩

example : rem.onInts Int64.minValue (-1) = .ok 0 := rfl

/-! ## All operators -/

/-- The operators on 64-bit integers are those on all integers. -/
theorem map_toInt_onInts (op : ArithmeticOp) (left right : Int64) :
    (op.onInts left right).map Int64.toInt = op.onIntegers left.toInt right.toInt := by
  have toInt_ne_zero : right ≠ 0 → right.toInt ≠ 0 := fun nonzero zero =>
    nonzero (Int64.toInt_inj.mp zero)
  cases op with
  | add => exact map_toInt_checked (saddOverflow_iff left right) (Int64.toInt_add left right)
  | sub => exact map_toInt_checked (ssubOverflow_iff left right) (Int64.toInt_sub left right)
  | mul => exact map_toInt_checked (smulOverflow_iff left right) (Int64.toInt_mul left right)
  | div =>
      by_cases zero : right = 0
      · subst zero
        rfl
      · have overflows_iff : left.toBitVec.sdivOverflow right.toBitVec = true ↔
            ¬Is64Bit (left.toInt.tdiv right.toInt) := by
          rw [sdivOverflow_iff, is64Bit_tdiv_iff, not_not]
        rw [onIntegers_of_ne_zero div _ (toInt_ne_zero zero)]
        simp only [onInts, if_neg zero]
        exact map_toInt_checked overflows_iff (Int64.toInt_div left right)
  | rem =>
      by_cases zero : right = 0
      · subst zero
        rfl
      · obtain ⟨remainder, result, exact⟩ := @exists_onInts_rem left right zero
        have fits : Is64Bit (left.toInt - right.toInt * left.toInt.fdiv right.toInt) :=
          exact ▸ is64Bit_toInt remainder
        rw [onIntegers_of_ne_zero rem _ (toInt_ne_zero zero), result, Except.map, exact]
        exact (if_pos fits).symm

/-! ## Which operations overflow -/

/-- No remainder overflows, not even that of the least integer by `-1`. -/
theorem apply_rem_ne_integerOverflow (left right : Value) (named : ArithmeticOp) :
    rem.apply left right ≠ .error (.integerOverflow named) := by
  unfold apply
  cases Operands.ofValues left right with
  | ints left right =>
      by_cases zero : right = 0
      · simp [onInts, zero, Except.map]
      · obtain ⟨remainder, result, _⟩ := @exists_onInts_rem left right zero
        simp [result, Except.map]
  | floats left right =>
      simp only [onFloats]
      split_ifs <;> simp [Except.map]

/-- A division overflows only if the least integer is divided by `-1`. -/
theorem apply_div_eq_integerOverflow_iff (left right : Value) (named : ArithmeticOp) :
    div.apply left right = .error (.integerOverflow named) ↔
      named = .div ∧ Operands.ofValues left right = .ints Int64.minValue (-1) := by
  unfold apply
  cases Operands.ofValues left right with
  | ints left right =>
      simp only [onInts, sdivOverflow_iff, Operands.ints.injEq]
      split_ifs with zero overflows
      · subst zero
        simp [Except.map]
      · simp [Except.map, overflows, eq_comm]
      · simp [Except.map, overflows]
  | floats left right =>
      simp only [onFloats]
      split_ifs <;> simp [Except.map]

end ArithmeticOp

namespace RelationalOp

/-- Whether a comparison holds of two integers of any size. -/
def onIntegers (op : RelationalOp) (left right : Int) : Bool :=
  match op with
  | .lt => left < right
  | .le => left ≤ right
  | .gt => right < left
  | .ge => right ≤ left
  | .eq => left == right
  | .ne => left != right

/-- The comparisons of 64-bit integers are those of all integers. -/
theorem onInts_eq_onIntegers (op : RelationalOp) (left right : Int64) :
    op.onInts left right = op.onIntegers left.toInt right.toInt := by
  cases op <;>
    simp [onInts, onIntegers, Int64.lt_iff_toInt_lt, Int64.le_iff_toInt_le, Int64.toInt_inj,
      bne, beq_eq_decide]

end RelationalOp

end WhileLang
