import WhileLang.Semantics.Error
import WhileLang.Semantics.Remainder
import WhileLang.Semantics.Value

/-!
# Arithmetic and comparison

Two operands meet as integers if neither is a float, and otherwise as floats; a
truth value counts as one or zero.  Integer results that leave the 64-bit range
are errors, and so is division by a zero of either kind.  Division truncates, but a
remainder takes the sign of its divisor.
-/

namespace WhileLang

/-- A pair of operands after they have been brought to one kind. -/
inductive Operands where
  | ints (left right : Int64)
  | floats (left right : Float)

/-- A truth value as a number. -/
def truthNumber (truth : Bool) : Int64 :=
  if truth then 1 else 0

/-- The binary64 number nearest to an integer. -/
def floatOfInt (number : Int64) : Float :=
  Float.ofInt number.toInt

/-- Brings two operands to one kind. -/
def Operands.ofValues : Value → Value → Operands
  | .int left, .int right => .ints left right
  | .int left, .bool right => .ints left (truthNumber right)
  | .bool left, .int right => .ints (truthNumber left) right
  | .bool left, .bool right => .ints (truthNumber left) (truthNumber right)
  | .float left, .float right => .floats left right
  | .float left, .int right => .floats left (floatOfInt right)
  | .float left, .bool right => .floats left (floatOfInt (truthNumber right))
  | .int left, .float right => .floats (floatOfInt left) right
  | .bool left, .float right => .floats (floatOfInt (truthNumber left)) right

namespace ArithmeticOp

/-- The result of an operator on integers. -/
def onInts (op : ArithmeticOp) (left right : Int64) : Except RuntimeError Int64 :=
  match op with
  | .add =>
      if left.toBitVec.saddOverflow right.toBitVec then .error (.integerOverflow op)
      else .ok (left + right)
  | .sub =>
      if left.toBitVec.ssubOverflow right.toBitVec then .error (.integerOverflow op)
      else .ok (left - right)
  | .mul =>
      if left.toBitVec.smulOverflow right.toBitVec then .error (.integerOverflow op)
      else .ok (left * right)
  | .div =>
      if right = 0 then .error .divisionByZero
      else if left.toBitVec.sdivOverflow right.toBitVec then .error (.integerOverflow op)
      else .ok (left / right)
  | .rem =>
      if right = 0 then .error .divisionByZero
      else
        let remainder := left % right
        if remainder ≠ 0 ∧ (remainder < 0 ↔ ¬right < 0) then .ok (remainder + right)
        else .ok remainder

/-- The result of an operator on floats. -/
def onFloats (op : ArithmeticOp) (left right : Float) : Except RuntimeError Float :=
  match op with
  | .add => .ok (left + right)
  | .sub => .ok (left - right)
  | .mul => .ok (left * right)
  | .div => if right == 0 then .error .divisionByZero else .ok (left / right)
  | .rem =>
      if right == 0 then .error .divisionByZero
      else
        let remainder := truncatedRemainder left right
        if remainder != 0 ∧ (remainder < 0 ↔ ¬right < 0) then .ok (remainder + right)
        else .ok remainder

/-- The result of an operator on values. -/
def apply (op : ArithmeticOp) (left right : Value) : Except RuntimeError Value :=
  match Operands.ofValues left right with
  | .ints left right => (op.onInts left right).map .int
  | .floats left right => (op.onFloats left right).map .float

end ArithmeticOp

namespace RelationalOp

/-- Whether a comparison holds of two integers. -/
def onInts (op : RelationalOp) (left right : Int64) : Bool :=
  match op with
  | .lt => left < right
  | .le => left ≤ right
  | .gt => right < left
  | .ge => right ≤ left
  | .eq => left == right
  | .ne => left != right

/-- Whether a comparison holds of two floats.  A NaN is only ever unequal. -/
def onFloats (op : RelationalOp) (left right : Float) : Bool :=
  match op with
  | .lt => left < right
  | .le => left ≤ right
  | .gt => right < left
  | .ge => right ≤ left
  | .eq => left == right
  | .ne => left != right

/-- The truth of a comparison of values. -/
def apply (op : RelationalOp) (left right : Value) : Value :=
  match Operands.ofValues left right with
  | .ints left right => .bool (op.onInts left right)
  | .floats left right => .bool (op.onFloats left right)

end RelationalOp

end WhileLang
