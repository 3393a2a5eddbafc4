import WhileLang.Syntax.Expr

/-!
# Binary operators

Every expression with two operands comes from an operator that is written between
them.  The operators are gathered here in one type, whatever node they make, with
the sign and the precedence that the language gives them.
-/

namespace WhileLang

/-- An operator that stands between two operands. -/
inductive BinaryOperator where
  | arithmetic (op : ArithmeticOp)
  | relational (op : RelationalOp)
  | and
  | or
deriving DecidableEq

namespace BinaryOperator

/-- The text of an operator. -/
def symbol : BinaryOperator → String
  | arithmetic op => op.symbol
  | relational op => op.symbol
  | and => "and"
  | or => "or"

/-- How tightly an operator binds its operands. -/
def precedence : BinaryOperator → Nat
  | arithmetic .rem => 4
  | arithmetic .mul => 3
  | arithmetic .div => 3
  | arithmetic .add => 2
  | arithmetic .sub => 2
  | relational _ => 2
  | and => 1
  | or => 1

/-- The node that an operator makes of its operands. -/
def node : BinaryOperator → Expr → Expr → Expr
  | arithmetic op => .arithmetic op
  | relational op => .relational op
  | and => .and
  | or => .or

/-- All operators. -/
def all : List BinaryOperator :=
  [.arithmetic .add, .arithmetic .sub, .arithmetic .mul, .arithmetic .div, .arithmetic .rem,
    .relational .lt, .relational .le, .relational .gt, .relational .ge, .relational .eq,
    .relational .ne, .and, .or]

theorem mem_all (op : BinaryOperator) : op ∈ all := by
  cases op with
  | arithmetic op => cases op <;> decide
  | relational op => cases op <;> decide
  | and => decide
  | or => decide

/-- No binary operator is written like a sign that has another use. -/
theorem symbol_ne (op : BinaryOperator) :
    op.symbol ≠ ":=" ∧ op.symbol ≠ "(" ∧ op.symbol ≠ ")" ∧ op.symbol ≠ "not" := by
  have known : ∀ op ∈ all,
      op.symbol ≠ ":=" ∧ op.symbol ≠ "(" ∧ op.symbol ≠ ")" ∧ op.symbol ≠ "not" := by decide
  exact known op op.mem_all

/-- Different binary operators are written differently. -/
theorem symbol_inj {first second : BinaryOperator} (same : first.symbol = second.symbol) :
    first = second := by
  have known : ∀ first ∈ all, ∀ second ∈ all, first.symbol = second.symbol → first = second := by
    decide
  exact known first first.mem_all second second.mem_all same

theorem precedence_pos (op : BinaryOperator) : 0 < op.precedence := by
  cases op with
  | arithmetic op => cases op <;> decide
  | relational op => exact Nat.two_pos
  | and => decide
  | or => decide

end BinaryOperator

/-- The precedence of negation. -/
def negationPrecedence : Nat :=
  1

end WhileLang
