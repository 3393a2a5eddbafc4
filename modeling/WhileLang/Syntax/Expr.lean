import WhileLang.Decimal.Layout
import WhileLang.Syntax.Operator

/-!
# Expressions

An expression tree over integer and float literals and variables, with its text
as an S-expression.  Trees are compared node by node, and the floats in them as
numbers.
-/

namespace WhileLang

/-- An expression. -/
inductive Expr where
  | integer (number : Int64)
  | float (number : Float)
  | var (name : String)
  | arithmetic (op : ArithmeticOp) (left right : Expr)
  | relational (op : RelationalOp) (left right : Expr)
  | and (left right : Expr)
  | or (left right : Expr)
  | not (operand : Expr)
deriving DecidableEq

namespace Expr

/-- The S-expression of an expression. -/
def render : Expr → String
  | .integer number => toString number.toInt
  | .float number => Decimal.FloatLayout.literal.write number
  | .var name => name
  | .arithmetic op left right =>
      "(" ++ op.symbol ++ " " ++ left.render ++ " " ++ right.render ++ ")"
  | .relational op left right =>
      "(" ++ op.symbol ++ " " ++ left.render ++ " " ++ right.render ++ ")"
  | .and left right => "(and " ++ left.render ++ " " ++ right.render ++ ")"
  | .or left right => "(or " ++ left.render ++ " " ++ right.render ++ ")"
  | .not operand => "(not " ++ operand.render ++ ")"

/-- Whether two expressions have the same shape and equal leaves, where a NaN
equals nothing and the two zeros are equal. -/
def agrees : Expr → Expr → Bool
  | .integer first, .integer second => first == second
  | .float first, .float second => first == second
  | .var first, .var second => first == second
  | .arithmetic op left right, .arithmetic op' left' right' =>
      op == op' && left.agrees left' && right.agrees right'
  | .relational op left right, .relational op' left' right' =>
      op == op' && left.agrees left' && right.agrees right'
  | .and left right, .and left' right' => left.agrees left' && right.agrees right'
  | .or left right, .or left' right' => left.agrees left' && right.agrees right'
  | .not operand, .not operand' => operand.agrees operand'
  | _, _ => false

end Expr

end WhileLang
