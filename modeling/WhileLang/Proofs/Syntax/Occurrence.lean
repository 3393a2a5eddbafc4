import WhileLang.Syntax.Stmt

/-!
# What occurs in a program

The subexpressions of an expression are listed in the order in which they are evaluated, and
the statements of a block in the order of its source text, each before those inside it.
Which names a program reads and to which it assigns is told by these lists.
-/

namespace WhileLang

/-! ## Expressions -/

namespace Expr

/-- The subexpressions of an expression, with those of the operands from left to right and
the expression itself at the end. -/
def parts : Expr → List Expr
  | .integer number => [.integer number]
  | .float number => [.float number]
  | .var name => [.var name]
  | .arithmetic op left right => left.parts ++ right.parts ++ [.arithmetic op left right]
  | .relational op left right => left.parts ++ right.parts ++ [.relational op left right]
  | .and left right => left.parts ++ right.parts ++ [.and left right]
  | .or left right => left.parts ++ right.parts ++ [.or left right]
  | .not operand => operand.parts ++ [.not operand]

theorem mem_parts (tree : Expr) : tree ∈ tree.parts := by
  cases tree <;> simp [parts]

/-- The expression contains the variable. -/
def Reads (tree : Expr) (name : String) : Prop :=
  .var name ∈ tree.parts

section

variable (name : String) (left right operand : Expr)

@[simp]
theorem reads_integer (number : Int64) : ¬(integer number).Reads name := by
  simp [Reads, parts]

@[simp]
theorem reads_float (number : Float) : ¬(float number).Reads name := by
  simp [Reads, parts]

@[simp]
theorem reads_var (other : String) : (var other).Reads name ↔ name = other := by
  simp [Reads, parts]

@[simp]
theorem reads_arithmetic (op : ArithmeticOp) :
    (arithmetic op left right).Reads name ↔ left.Reads name ∨ right.Reads name := by
  simp [Reads, parts]

@[simp]
theorem reads_relational (op : RelationalOp) :
    (relational op left right).Reads name ↔ left.Reads name ∨ right.Reads name := by
  simp [Reads, parts]

@[simp]
theorem reads_and : (and left right).Reads name ↔ left.Reads name ∨ right.Reads name := by
  simp [Reads, parts]

@[simp]
theorem reads_or : (or left right).Reads name ↔ left.Reads name ∨ right.Reads name := by
  simp [Reads, parts]

@[simp]
theorem reads_not : (not operand).Reads name ↔ operand.Reads name := by
  simp [Reads, parts]

end

end Expr

/-! ## Statements -/

/-- The expression that a statement evaluates before it does anything. -/
def Stmt.subject : Stmt → Expr
  | .assign _ value => value
  | .ifThen condition _ => condition
  | .ifElse condition _ _ => condition
  | .whileDo condition _ => condition
  | .print value => value
  | .expression value => value

mutual

/-- The statement and the statements inside it. -/
def Stmt.statements : Stmt → List Stmt
  | .assign name value => [.assign name value]
  | .ifThen condition thenBranch => .ifThen condition thenBranch :: blockStatements thenBranch
  | .ifElse condition thenBranch elseBranch =>
      .ifElse condition thenBranch elseBranch ::
        (blockStatements thenBranch ++ blockStatements elseBranch)
  | .whileDo condition body => .whileDo condition body :: blockStatements body
  | .print value => [.print value]
  | .expression value => [.expression value]

/-- The statements of a block and the statements inside them. -/
def blockStatements : List Stmt → List Stmt
  | [] => []
  | statement :: rest => statement.statements ++ blockStatements rest

end

@[simp]
theorem blockStatements_append (first second : Block) :
    blockStatements (first ++ second) = blockStatements first ++ blockStatements second := by
  induction first with
  | nil => rfl
  | cons statement rest ih => simp [blockStatements, ih]

/-- The first statement of a block is one of its statements. -/
theorem mem_blockStatements_cons (statement : Stmt) (rest : Block) :
    statement ∈ blockStatements (statement :: rest) := by
  cases statement <;> simp [blockStatements, Stmt.statements]

/-- Some expression in the program contains the variable. -/
def Block.Reads (program : Block) (name : String) : Prop :=
  ∃ statement ∈ blockStatements program, statement.subject.Reads name

/-- Some statement of the program assigns to the name. -/
def Block.Assigns (program : Block) (name : String) : Prop :=
  ∃ value, .assign name value ∈ blockStatements program

/-- The program reads the variable or assigns to it. -/
def Block.Mentions (program : Block) (name : String) : Prop :=
  program.Reads name ∨ program.Assigns name

end WhileLang
