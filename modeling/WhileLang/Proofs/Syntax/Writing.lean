import WhileLang.Proofs.Lexical.StandardToken
import WhileLang.Proofs.Syntax.BinaryOperator
import WhileLang.Syntax.Stmt

/-!
# Writing programs as source text

A program is written as a list of words with single spaces between them.  Parentheses
are put only where the tree could not be recovered without them or where an operand on
the right, or of a negation, is not a single word: a left operand keeps its place
without parentheses unless it is a negation or binds more loosely than its operator.

Not every tree can be written.  A well-formed program has only leaves that source text
can hold, and its expression statements begin with an identifier.
-/

namespace WhileLang

namespace Expr

/-- The operator on top of an expression with two operands. -/
def operator? : Expr → Option BinaryOperator
  | .arithmetic op _ _ => some (.arithmetic op)
  | .relational op _ _ => some (.relational op)
  | .and _ _ => some .and
  | .or _ _ => some .or
  | _ => none

/-- Whether the expression is a negation. -/
def isNegation : Expr → Bool
  | .not _ => true
  | _ => false

/-- Whether the expression has operands. -/
def isCompound (tree : Expr) : Bool :=
  tree.isNegation || tree.operator?.isSome

/-- Whether the expression needs parentheses as the left operand of an operator. -/
def yieldsTo (tree : Expr) (op : BinaryOperator) : Bool :=
  tree.isNegation || tree.operator?.any fun inner => inner.precedence < op.precedence

/-- Words in parentheses, if they are wanted. -/
def encloseIf (enclosed : Bool) (words : List String) : List String :=
  if enclosed then "(" :: (words ++ [")"]) else words

/-- The words of an operator between the words of its operands. -/
def wordsBetween (op : BinaryOperator) (left right : Expr) (leftWords rightWords : List String) :
    List String :=
  encloseIf (left.yieldsTo op) leftWords ++ op.symbol :: encloseIf right.isCompound rightWords

/-- The words of an expression. -/
def words : Expr → List String
  | .integer number => [toString number.toInt]
  | .float number => [Decimal.FloatLayout.literal.write number]
  | .var name => [name]
  | .arithmetic op left right =>
      wordsBetween (.arithmetic op) left right left.words right.words
  | .relational op left right =>
      wordsBetween (.relational op) left right left.words right.words
  | .and left right => wordsBetween .and left right left.words right.words
  | .or left right => wordsBetween .or left right left.words right.words
  | .not operand => "not" :: encloseIf operand.isCompound operand.words

/-- No leaf of the expression is a float. -/
def IsFloatFree : Expr → Prop
  | .integer _ => True
  | .float _ => False
  | .var _ => True
  | .arithmetic _ left right => left.IsFloatFree ∧ right.IsFloatFree
  | .relational _ left right => left.IsFloatFree ∧ right.IsFloatFree
  | .and left right => left.IsFloatFree ∧ right.IsFloatFree
  | .or left right => left.IsFloatFree ∧ right.IsFloatFree
  | .not operand => operand.IsFloatFree

/-- Every leaf of the expression is a name or an integer without a sign. -/
def IsWellFormed : Expr → Prop
  | .integer number => 0 ≤ number.toInt
  | .float _ => False
  | .var name => IsName name
  | .arithmetic _ left right => left.IsWellFormed ∧ right.IsWellFormed
  | .relational _ left right => left.IsWellFormed ∧ right.IsWellFormed
  | .and left right => left.IsWellFormed ∧ right.IsWellFormed
  | .or left right => left.IsWellFormed ∧ right.IsWellFormed
  | .not operand => operand.IsWellFormed

/-! ## All binary operators alike -/

/-- A property of expressions holds if it holds of leaves and passes from operands to
negations and to the nodes of binary operators. -/
@[elab_as_elim]
theorem nodeInduction {motive : Expr → Prop} (integer : ∀ number, motive (.integer number))
    (float : ∀ number, motive (.float number)) (var : ∀ name, motive (.var name))
    (node : ∀ op left right, motive left → motive right →
      motive (BinaryOperator.node op left right))
    (not : ∀ operand, motive operand → motive (.not operand)) (tree : Expr) : motive tree := by
  induction tree with
  | integer number => exact integer number
  | float number => exact float number
  | var name => exact var name
  | arithmetic op left right leftIh rightIh =>
      exact node (.arithmetic op) left right leftIh rightIh
  | relational op left right leftIh rightIh =>
      exact node (.relational op) left right leftIh rightIh
  | and left right leftIh rightIh => exact node .and left right leftIh rightIh
  | or left right leftIh rightIh => exact node .or left right leftIh rightIh
  | not operand ih => exact not operand ih

variable (op : BinaryOperator) (left right : Expr)

@[simp]
theorem operator?_node : (op.node left right).operator? = some op := by
  cases op <;> rfl

@[simp]
theorem isNegation_node : (op.node left right).isNegation = false := by
  cases op <;> rfl

theorem words_node :
    (op.node left right).words = wordsBetween op left right left.words right.words := by
  cases op <;> rfl

theorem isFloatFree_node :
    (op.node left right).IsFloatFree ↔ left.IsFloatFree ∧ right.IsFloatFree := by
  cases op <;> rfl

theorem isWellFormed_node :
    (op.node left right).IsWellFormed ↔ left.IsWellFormed ∧ right.IsWellFormed := by
  cases op <;> rfl

end Expr

mutual

/-- The words of a statement. -/
def Stmt.words : Stmt → List String
  | .assign name value => name :: ":=" :: (value.words ++ [";"])
  | .ifThen condition thenBranch =>
      "if" :: (condition.words ++ "then" :: (blockWords thenBranch ++ ["done"]))
  | .ifElse condition thenBranch elseBranch =>
      "if" :: (condition.words ++
        "then" :: (blockWords thenBranch ++ "else" :: (blockWords elseBranch ++ ["done"])))
  | .whileDo condition body =>
      "while" :: (condition.words ++ "do" :: (blockWords body ++ ["done"]))
  | .print value => "print" :: (value.words ++ [";"])
  | .expression value => value.words ++ [";"]

/-- The words of the statements of a block. -/
def blockWords : List Stmt → List String
  | [] => []
  | statement :: rest => statement.words ++ blockWords rest

end

/-- The source text of a program. -/
def Block.sourceText (block : Block) : String :=
  " ".intercalate (blockWords block)

mutual

/-- No leaf in the statement is a float. -/
def Stmt.IsFloatFree : Stmt → Prop
  | .assign _ value => value.IsFloatFree
  | .ifThen condition thenBranch => condition.IsFloatFree ∧ BlockIsFloatFree thenBranch
  | .ifElse condition thenBranch elseBranch =>
      condition.IsFloatFree ∧ BlockIsFloatFree thenBranch ∧ BlockIsFloatFree elseBranch
  | .whileDo condition body => condition.IsFloatFree ∧ BlockIsFloatFree body
  | .print value => value.IsFloatFree
  | .expression value => value.IsFloatFree

/-- No leaf in the block is a float. -/
def BlockIsFloatFree : List Stmt → Prop
  | [] => True
  | statement :: rest => statement.IsFloatFree ∧ BlockIsFloatFree rest

end

mutual

/-- The statement has well-formed expressions and assigns to names, and its expression
statements are written with a name as their first word. -/
def Stmt.IsWellFormed : Stmt → Prop
  | .assign name value => IsName name ∧ value.IsWellFormed
  | .ifThen condition thenBranch => condition.IsWellFormed ∧ BlockIsWellFormed thenBranch
  | .ifElse condition thenBranch elseBranch =>
      condition.IsWellFormed ∧ BlockIsWellFormed thenBranch ∧ BlockIsWellFormed elseBranch
  | .whileDo condition body => condition.IsWellFormed ∧ BlockIsWellFormed body
  | .print value => value.IsWellFormed
  | .expression value =>
      value.IsWellFormed ∧ ∃ name rest, value.words = name :: rest ∧ IsName name

/-- All statements of the block are well-formed. -/
def BlockIsWellFormed : List Stmt → Prop
  | [] => True
  | statement :: rest => statement.IsWellFormed ∧ BlockIsWellFormed rest

end

end WhileLang
