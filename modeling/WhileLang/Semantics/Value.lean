import WhileLang.Decimal.Layout

/-!
# Values

A value is a 64-bit integer, a binary64 number or a truth value.  The three kinds
stay apart when values are compared for being the same, although arithmetic and
the relational operators mix them freely.
-/

namespace WhileLang

/-- What an expression denotes. -/
inductive Value where
  | int (number : Int64)
  | float (number : Float)
  | bool (truth : Bool)
deriving DecidableEq

namespace Value

/-- Whether a value counts as true: every number but zero does. -/
def isTruthy : Value → Bool
  | .int number => number != 0
  | .float number => number != 0
  | .bool truth => truth

/-- The text of a value. -/
def render : Value → String
  | .int number => toString number.toInt
  | .float number => Decimal.FloatLayout.full.write number
  | .bool true => "true"
  | .bool false => "false"

/-- Equality of values of one kind, of floats as numbers. -/
def agrees : Value → Value → Bool
  | .int first, .int second => first == second
  | .float first, .float second => first == second
  | .bool first, .bool second => first == second
  | _, _ => false

end Value

end WhileLang
