/-!
# Operators

The binary operators of expressions come in two kinds, arithmetic and relational,
and every operator is written with one sign.
-/

namespace WhileLang

/-- An operator on numbers. -/
inductive ArithmeticOp where
  | add
  | sub
  | mul
  | div
  | rem
deriving DecidableEq

/-- A comparison of numbers. -/
inductive RelationalOp where
  | lt
  | le
  | gt
  | ge
  | eq
  | ne
deriving DecidableEq

namespace ArithmeticOp

/-- The sign of an arithmetic operator. -/
def symbol : ArithmeticOp → String
  | add => "+"
  | sub => "-"
  | mul => "*"
  | div => "/"
  | rem => "%"

/-- The arithmetic operator that a sign stands for. -/
def ofSymbol? : String → Option ArithmeticOp
  | "+" => some add
  | "-" => some sub
  | "*" => some mul
  | "/" => some div
  | "%" => some rem
  | _ => none

@[simp]
theorem ofSymbol?_symbol (op : ArithmeticOp) : ofSymbol? op.symbol = some op := by
  cases op <;> rfl

end ArithmeticOp

namespace RelationalOp

/-- The sign of a comparison. -/
def symbol : RelationalOp → String
  | lt => "<"
  | le => "<="
  | gt => ">"
  | ge => ">="
  | eq => "=="
  | ne => "!="

/-- The comparison that a sign stands for. -/
def ofSymbol? : String → Option RelationalOp
  | "<" => some lt
  | "<=" => some le
  | ">" => some gt
  | ">=" => some ge
  | "==" => some eq
  | "!=" => some ne
  | _ => none

@[simp]
theorem ofSymbol?_symbol (op : RelationalOp) : ofSymbol? op.symbol = some op := by
  cases op <;> rfl

end RelationalOp

end WhileLang
