import WhileLang.Semantics.Arithmetic
import WhileLang.Semantics.Environment
import WhileLang.Syntax.Expr

/-!
# Evaluation of expressions

Operands are evaluated from left to right before their operator.  This holds for
`and` and `or` as well: both sides are always evaluated, and then the value of one
of them is the result.
-/

namespace WhileLang

/-- The value of an expression. -/
def Expr.evaluate (environment : Environment) : Expr → Except RuntimeError Value
  | .integer number => .ok (.int number)
  | .float number => .ok (.float number)
  | .var name =>
      match environment.get? name with
      | some value => .ok value
      | none => .error (.undefinedVariable name)
  | .arithmetic op left right => do
      let leftValue ← left.evaluate environment
      let rightValue ← right.evaluate environment
      op.apply leftValue rightValue
  | .relational op left right => do
      let leftValue ← left.evaluate environment
      let rightValue ← right.evaluate environment
      return op.apply leftValue rightValue
  | .and left right => do
      let leftValue ← left.evaluate environment
      let rightValue ← right.evaluate environment
      return if leftValue.isTruthy then rightValue else leftValue
  | .or left right => do
      let leftValue ← left.evaluate environment
      let rightValue ← right.evaluate environment
      return if leftValue.isTruthy then leftValue else rightValue
  | .not operand => do
      let value ← operand.evaluate environment
      return .bool (!value.isTruthy)

end WhileLang
