import Mathlib
import WhileLang.Proofs.Decimal.FloatText
import WhileLang.Proofs.Syntax.SExpression
import WhileLang.Proofs.Syntax.Writing

/-!
# The S-expression of a program determines the program

Programs are rendered as S-expressions.  The head of a node tells which statement or operator
it stands for, and the number of its children whether a conditional has an else branch.  An
atom is a leaf: an identifier begins with a letter or an underscore, a float is marked by a
point or a power of ten, and an integer is neither.

So no two programs are rendered alike as long as their names are identifiers and their floats
are finite.  Any identifier may be a name, also one that is the head of a node.
-/

namespace WhileLang

/-! ## Leaves -/

/-- The text is an identifier: a letter or an underscore, and behind it letters, digits and
underscores. -/
structure IsIdentifier (text : String) : Prop where
  start : text.toList.head?.any isWordStart
  word : ∀ c ∈ text.toList, isWordChar c

instance (text : String) : Decidable (IsIdentifier text) :=
  decidable_of_iff (text.toList.head?.any isWordStart ∧ text.toList.all isWordChar)
    ⟨fun parts => ⟨parts.1, List.all_eq_true.mp parts.2⟩,
      fun isIdentifier => ⟨isIdentifier.start, List.all_eq_true.mpr isIdentifier.word⟩⟩

/-- What an atom in the S-expression of a program stands for. -/
inductive LeafKind where
  | identifier
  | float
  | integer

/-- The kind of leaf that is written with a text. -/
def leafKind (text : String) : LeafKind :=
  if text.toList.head?.any isWordStart then .identifier
  else if '.' ∈ text.toList ∨ 'e' ∈ text.toList then .float
  else .integer

theorem IsIdentifier.leafKind_eq {text : String} (isIdentifier : IsIdentifier text) :
    leafKind text = .identifier :=
  if_pos isIdentifier.start

theorem IsIdentifier.isAtom {text : String} (isIdentifier : IsIdentifier text) : IsAtom text := by
  have notEmpty : text ≠ "" := by
    rintro rfl
    exact absurd isIdentifier.start (by decide)
  exact .of_forall (by decide) (by decide) (by decide) notEmpty isIdentifier.word

theorem isWordStart_eq_false {c : Char} (numeral : c.isDigit = true ∨ c = '-') :
    isWordStart c = false := by
  rcases numeral with digit | rfl
  · by_contra start
    rw [isDigit_eq_false_of_isWordStart (by simpa using start)] at digit
    cases digit
  · decide

section

variable (number : Int)

theorem leafKind_toString : leafKind (toString number) = .integer := by
  have chars := Decimal.isDigit_or_eq_minus_of_mem_toString number
  have noStart : ¬(toString number).toList.head?.any isWordStart := by
    cases head : (toString number).toList.head? with
    | none => simp
    | some c => simpa using isWordStart_eq_false (chars c (List.mem_of_head? head))
  have noMark : ¬('.' ∈ (toString number).toList ∨ 'e' ∈ (toString number).toList) := by
    rintro (point | power)
    · exact absurd (chars _ point) (by decide)
    · exact absurd (chars _ power) (by decide)
  rw [leafKind, if_neg noStart, if_neg noMark]

theorem isAtom_toString : IsAtom (toString number) := by
  have notEmpty : toString number ≠ "" := by
    rw [ne_eq, ← String.toList_eq_nil_iff]
    obtain ⟨natural, text | text⟩ := toList_toString_cases number
    · rw [text]
      exact Nat.toDigits_ne_nil
    · rw [text]
      exact List.cons_ne_nil _ _
  exact .of_forall (by decide) (by decide) (by decide) notEmpty
    (Decimal.isDigit_or_eq_minus_of_mem_toString number)

end

section

variable {number : Float}

theorem leafKind_write (isFinite : number.isFinite = true) :
    leafKind (Decimal.FloatLayout.literal.write number) = .float := by
  obtain ⟨sign, text, written, isText, -⟩ := Decimal.FloatLayout.literal.write_eq isFinite
  have noStart : ¬(Decimal.signText sign ++ text).head?.any isWordStart := by
    obtain ⟨c, rest, rfl, digit⟩ := isText.head
    cases sign with
    | negative => simpa [Decimal.signText] using isWordStart_eq_false (.inr rfl)
    | positive => simpa [Decimal.signText] using isWordStart_eq_false (.inl digit)
  have mark : '.' ∈ Decimal.signText sign ++ text ∨ 'e' ∈ Decimal.signText sign ++ text :=
    isText.marked.imp (List.mem_append_right _) (List.mem_append_right _)
  rw [leafKind, written, if_neg noStart, if_pos mark]

theorem isAtom_write (isFinite : number.isFinite = true) :
    IsAtom (Decimal.FloatLayout.literal.write number) := by
  obtain ⟨sign, text, written, isText, -⟩ := Decimal.FloatLayout.literal.write_eq isFinite
  have chars : ∀ c ∈ Decimal.signText sign ++ text, Decimal.IsFloatChar c := by
    have signChars : ∀ c ∈ Decimal.signText sign, Decimal.IsFloatChar c := by
      cases sign <;> simp [Decimal.signText, Decimal.IsFloatChar]
    exact List.forall_mem_append.mpr ⟨signChars, isText.chars⟩
  have notEmpty : Decimal.FloatLayout.literal.write number ≠ "" := by
    obtain ⟨c, rest, rfl, -⟩ := isText.head
    rw [ne_eq, ← String.toList_eq_nil_iff, written]
    exact List.append_ne_nil_of_right_ne_nil _ (List.cons_ne_nil c rest)
  rw [← written] at chars
  exact .of_forall (by simp [Decimal.IsFloatChar]) (by simp [Decimal.IsFloatChar])
    (by simp [Decimal.IsFloatChar]) notEmpty chars

end

/-- The kind of leaf that an S-expression stands for, if it is an atom. -/
def SExpr.leafKind? : SExpr → Option LeafKind
  | .atom text => some (leafKind text)
  | .node _ _ => none

/-! ## Expressions -/

namespace Expr

/-- The variables of the expression are identifiers, and its floats are finite. -/
def HasPlainLeaves : Expr → Prop
  | .integer _ => True
  | .float number => number.isFinite = true
  | .var name => IsIdentifier name
  | .arithmetic _ left right => left.HasPlainLeaves ∧ right.HasPlainLeaves
  | .relational _ left right => left.HasPlainLeaves ∧ right.HasPlainLeaves
  | .and left right => left.HasPlainLeaves ∧ right.HasPlainLeaves
  | .or left right => left.HasPlainLeaves ∧ right.HasPlainLeaves
  | .not operand => operand.HasPlainLeaves

/-- The S-expression of an expression as a tree. -/
def sexpr : Expr → SExpr
  | .integer number => .atom (toString number.toInt)
  | .float number => .atom (Decimal.FloatLayout.literal.write number)
  | .var name => .atom name
  | .arithmetic op left right => .node op.symbol [left.sexpr, right.sexpr]
  | .relational op left right => .node op.symbol [left.sexpr, right.sexpr]
  | .and left right => .node "and" [left.sexpr, right.sexpr]
  | .or left right => .node "or" [left.sexpr, right.sexpr]
  | .not operand => .node "not" [operand.sexpr]

theorem hasPlainLeaves_node (op : BinaryOperator) (left right : Expr) :
    (op.node left right).HasPlainLeaves ↔ left.HasPlainLeaves ∧ right.HasPlainLeaves := by
  cases op <;> rfl

theorem sexpr_node (op : BinaryOperator) (left right : Expr) :
    (op.node left right).sexpr = .node op.symbol [left.sexpr, right.sexpr] := by
  cases op <;> rfl

theorem render_node (op : BinaryOperator) (left right : Expr) :
    (op.node left right).render =
      "(" ++ op.symbol ++ " " ++ left.render ++ " " ++ right.render ++ ")" := by
  cases op <;> rfl

/-- An expression is rendered as its S-expression. -/
theorem toList_render (tree : Expr) : tree.render.toList = tree.sexpr.write := by
  induction tree using nodeInduction with
  | integer number => rfl
  | float number => rfl
  | var name => rfl
  | node op left right leftIh rightIh =>
      simp [render_node, sexpr_node, SExpr.write, SExpr.writeAll, leftIh, rightIh]
  | not operand ih => simp [render, sexpr, SExpr.write, SExpr.writeAll, ih]

theorem isReadable_sexpr (tree : Expr) (plain : tree.HasPlainLeaves) :
    tree.sexpr.IsReadable := by
  induction tree using nodeInduction with
  | integer number => exact isAtom_toString number.toInt
  | float number => exact isAtom_write plain
  | var name => exact IsIdentifier.isAtom plain
  | node op left right leftIh rightIh =>
      rw [hasPlainLeaves_node] at plain
      have isAtom : IsAtom op.symbol := by
        have known : ∀ op ∈ BinaryOperator.all, IsAtom op.symbol := by decide
        exact known op op.mem_all
      rw [sexpr_node]
      exact ⟨isAtom, leftIh plain.1, rightIh plain.2, trivial⟩
  | not operand ih => exact ⟨by decide, ih plain, trivial⟩

/-- The kind of leaf that an expression is, if it is a leaf. -/
def leafKind? : Expr → Option LeafKind
  | .integer _ => some .integer
  | .float _ => some .float
  | .var _ => some .identifier
  | _ => none

@[simp]
theorem leafKind?_node (op : BinaryOperator) (left right : Expr) :
    (op.node left right).leafKind? = none := by
  cases op <;> rfl

/-- The S-expression of an expression tells which kind of leaf the expression is. -/
theorem leafKind?_sexpr {tree : Expr} (plain : tree.HasPlainLeaves) :
    tree.sexpr.leafKind? = tree.leafKind? := by
  induction tree using nodeInduction with
  | integer number => exact congrArg some (leafKind_toString number.toInt)
  | float number => exact congrArg some (leafKind_write plain)
  | var name => exact congrArg some (IsIdentifier.leafKind_eq plain)
  | node op left right => rw [sexpr_node, leafKind?_node, SExpr.leafKind?]
  | not operand => rfl

theorem leafKind?_eq_of_sexpr_eq {first second : Expr} (plain : first.HasPlainLeaves)
    (plain' : second.HasPlainLeaves) (same : first.sexpr = second.sexpr) :
    first.leafKind? = second.leafKind? := by
  rw [← leafKind?_sexpr plain, same, leafKind?_sexpr plain']

/-- The S-expression of an expression determines it. -/
theorem sexpr_inj (first second : Expr) (plain : first.HasPlainLeaves)
    (plain' : second.HasPlainLeaves) (same : first.sexpr = second.sexpr) : first = second := by
  induction first using nodeInduction generalizing second with
  | integer number =>
      have kind := leafKind?_eq_of_sexpr_eq plain plain' same
      cases second with
      | integer number' =>
          have text : number.toInt.repr = number'.toInt.repr := SExpr.atom.inj same
          rw [Int64.toInt_inj.mp (Int.repr_inj.mp text)]
      | _ => cases kind
  | float number =>
      have kind := leafKind?_eq_of_sexpr_eq plain plain' same
      cases second with
      | float number' => rw [Decimal.FloatLayout.write_inj _ plain plain' (SExpr.atom.inj same)]
      | _ => cases kind
  | var name =>
      have kind := leafKind?_eq_of_sexpr_eq plain plain' same
      cases second with
      | var name' => rw [SExpr.atom.inj same]
      | _ => cases kind
  | node op left right leftIh rightIh =>
      rw [hasPlainLeaves_node] at plain
      rw [sexpr_node] at same
      induction second using nodeInduction with
      | node op' left' right' =>
          rw [hasPlainLeaves_node] at plain'
          rw [sexpr_node, SExpr.node.injEq, List.cons.injEq, List.cons.injEq] at same
          rw [BinaryOperator.symbol_inj same.1, leftIh left' plain.1 plain'.1 same.2.1,
            rightIh right' plain.2 plain'.2 same.2.2.1]
      | not operand' => exact absurd (SExpr.node.inj same).1 op.symbol_ne.2.2.2
      | _ => cases same
  | not operand ih =>
      induction second using nodeInduction with
      | node op left right =>
          rw [sexpr_node] at same
          exact absurd (SExpr.node.inj same).1.symm op.symbol_ne.2.2.2
      | not operand' =>
          rw [HasPlainLeaves] at plain plain'
          rw [sexpr, sexpr, SExpr.node.injEq, List.cons.injEq] at same
          rw [ih operand' plain plain' same.2.1]
      | _ => cases same

end Expr

/-! ## Statements and blocks -/

mutual

/-- The names in the statement are identifiers, and its floats are finite. -/
def Stmt.HasPlainLeaves : Stmt → Prop
  | .assign name value => IsIdentifier name ∧ value.HasPlainLeaves
  | .ifThen condition thenBranch => condition.HasPlainLeaves ∧ BlockHasPlainLeaves thenBranch
  | .ifElse condition thenBranch elseBranch =>
      condition.HasPlainLeaves ∧ BlockHasPlainLeaves thenBranch ∧ BlockHasPlainLeaves elseBranch
  | .whileDo condition body => condition.HasPlainLeaves ∧ BlockHasPlainLeaves body
  | .print value => value.HasPlainLeaves
  | .expression value => value.HasPlainLeaves

/-- The names in the block are identifiers, and its floats are finite. -/
def BlockHasPlainLeaves : List Stmt → Prop
  | [] => True
  | statement :: rest => statement.HasPlainLeaves ∧ BlockHasPlainLeaves rest

end

mutual

/-- The S-expression of a statement as a tree. -/
def Stmt.sexpr : Stmt → SExpr
  | .assign name value => .node ":=" [.atom name, value.sexpr]
  | .ifThen condition thenBranch =>
      .node "if" [condition.sexpr, .node "block" (itemSExprs thenBranch)]
  | .ifElse condition thenBranch elseBranch =>
      .node "if" [condition.sexpr, .node "block" (itemSExprs thenBranch),
        .node "block" (itemSExprs elseBranch)]
  | .whileDo condition body => .node "while" [condition.sexpr, .node "block" (itemSExprs body)]
  | .print value => .node "print" [value.sexpr]
  | .expression value => value.sexpr

/-- The S-expressions of the statements of a block as trees. -/
def itemSExprs : List Stmt → List SExpr
  | [] => []
  | statement :: rest => statement.sexpr :: itemSExprs rest

end

/-- The S-expression of a block as a tree. -/
def Block.sexpr (block : Block) : SExpr :=
  .node "block" (itemSExprs block)

mutual

/-- A statement is rendered as its S-expression. -/
theorem Stmt.toList_render (statement : Stmt) :
    statement.render.toList = statement.sexpr.write := by
  cases statement with
  | assign name value =>
      simp [Stmt.render, Stmt.sexpr, SExpr.write, SExpr.writeAll, value.toList_render]
  | ifThen condition thenBranch =>
      simp [Stmt.render, Stmt.sexpr, SExpr.write, SExpr.writeAll, condition.toList_render,
        toList_renderItems thenBranch]
  | ifElse condition thenBranch elseBranch =>
      simp [Stmt.render, Stmt.sexpr, SExpr.write, SExpr.writeAll, condition.toList_render,
        toList_renderItems thenBranch, toList_renderItems elseBranch]
  | whileDo condition body =>
      simp [Stmt.render, Stmt.sexpr, SExpr.write, SExpr.writeAll, condition.toList_render,
        toList_renderItems body]
  | print value =>
      simp [Stmt.render, Stmt.sexpr, SExpr.write, SExpr.writeAll, value.toList_render]
  | expression value => exact value.toList_render

/-- The statements of a block are rendered as their S-expressions. -/
theorem toList_renderItems (block : List Stmt) :
    (renderItems block).toList = SExpr.writeAll (itemSExprs block) := by
  cases block with
  | nil => rfl
  | cons statement rest =>
      simp [renderItems, itemSExprs, SExpr.writeAll, statement.toList_render,
        toList_renderItems rest]

end

theorem Block.toList_render (block : Block) : block.render.toList = block.sexpr.write := by
  simp [Block.render, Block.sexpr, SExpr.write, toList_renderItems]

mutual

theorem Stmt.isReadable_sexpr (statement : Stmt) (plain : statement.HasPlainLeaves) :
    statement.sexpr.IsReadable := by
  cases statement with
  | assign name value =>
      exact ⟨by decide, plain.1.isAtom, value.isReadable_sexpr plain.2, trivial⟩
  | ifThen condition thenBranch =>
      exact ⟨by decide, condition.isReadable_sexpr plain.1,
        ⟨by decide, areReadable_itemSExprs thenBranch plain.2⟩, trivial⟩
  | ifElse condition thenBranch elseBranch =>
      exact ⟨by decide, condition.isReadable_sexpr plain.1,
        ⟨by decide, areReadable_itemSExprs thenBranch plain.2.1⟩,
        ⟨by decide, areReadable_itemSExprs elseBranch plain.2.2⟩, trivial⟩
  | whileDo condition body =>
      exact ⟨by decide, condition.isReadable_sexpr plain.1,
        ⟨by decide, areReadable_itemSExprs body plain.2⟩, trivial⟩
  | print value => exact ⟨by decide, value.isReadable_sexpr plain, trivial⟩
  | expression value => exact value.isReadable_sexpr plain

theorem areReadable_itemSExprs (block : List Stmt) (plain : BlockHasPlainLeaves block) :
    SExpr.AreReadable (itemSExprs block) := by
  cases block with
  | nil => trivial
  | cons statement rest =>
      exact ⟨statement.isReadable_sexpr plain.1, areReadable_itemSExprs rest plain.2⟩

end

theorem Block.isReadable_sexpr (block : Block) (plain : BlockHasPlainLeaves block) :
    block.sexpr.IsReadable :=
  ⟨by decide, areReadable_itemSExprs block plain⟩

/-- The heads of the statements that are no expressions. -/
def statementHeads : List String :=
  [":=", "if", "while", "print"]

/-- The head and the number of children of an S-expression that can only be a statement. -/
def SExpr.statementShape? : SExpr → Option (String × Nat)
  | .atom _ => none
  | .node head children => if head ∈ statementHeads then some (head, children.length) else none

/-- The head and the number of children of a statement that is no expression. -/
def Stmt.shape? : Stmt → Option (String × Nat)
  | .assign _ _ => some (":=", 2)
  | .ifThen _ _ => some ("if", 2)
  | .ifElse _ _ _ => some ("if", 3)
  | .whileDo _ _ => some ("while", 2)
  | .print _ => some ("print", 1)
  | .expression _ => none

theorem Expr.statementShape?_sexpr (tree : Expr) : tree.sexpr.statementShape? = none := by
  induction tree using nodeInduction with
  | node op left right =>
      have known : ∀ op ∈ BinaryOperator.all, op.symbol ∉ statementHeads := by decide
      rw [sexpr_node, SExpr.statementShape?, if_neg (known op op.mem_all)]
  | not operand => rfl
  | _ => rfl

/-- The S-expression of a statement tells which kind of statement it is. -/
theorem Stmt.statementShape?_sexpr (statement : Stmt) :
    statement.sexpr.statementShape? = statement.shape? := by
  cases statement with
  | expression value => exact value.statementShape?_sexpr
  | _ => rfl

mutual

/-- The S-expression of a statement determines it. -/
theorem Stmt.sexpr_inj (first second : Stmt) (plain : first.HasPlainLeaves)
    (plain' : second.HasPlainLeaves) (same : first.sexpr = second.sexpr) : first = second := by
  have shape : first.shape? = second.shape? := by
    rw [← first.statementShape?_sexpr, same, second.statementShape?_sexpr]
  cases first with
  | assign name value =>
      cases second with
      | assign name' value' =>
          simp only [Stmt.sexpr, SExpr.node.injEq, SExpr.atom.injEq, List.cons.injEq] at same
          rw [same.2.1, value.sexpr_inj value' plain.2 plain'.2 same.2.2.1]
      | _ => simp [Stmt.shape?] at shape
  | ifThen condition thenBranch =>
      cases second with
      | ifThen condition' thenBranch' =>
          simp only [Stmt.sexpr, SExpr.node.injEq, List.cons.injEq] at same
          rw [condition.sexpr_inj condition' plain.1 plain'.1 same.2.1,
            itemSExprs_inj thenBranch thenBranch' plain.2 plain'.2 same.2.2.1.2]
      | _ => simp [Stmt.shape?] at shape
  | ifElse condition thenBranch elseBranch =>
      cases second with
      | ifElse condition' thenBranch' elseBranch' =>
          simp only [Stmt.sexpr, SExpr.node.injEq, List.cons.injEq] at same
          rw [condition.sexpr_inj condition' plain.1 plain'.1 same.2.1,
            itemSExprs_inj thenBranch thenBranch' plain.2.1 plain'.2.1 same.2.2.1.2,
            itemSExprs_inj elseBranch elseBranch' plain.2.2 plain'.2.2 same.2.2.2.1.2]
      | _ => simp [Stmt.shape?] at shape
  | whileDo condition body =>
      cases second with
      | whileDo condition' body' =>
          simp only [Stmt.sexpr, SExpr.node.injEq, List.cons.injEq] at same
          rw [condition.sexpr_inj condition' plain.1 plain'.1 same.2.1,
            itemSExprs_inj body body' plain.2 plain'.2 same.2.2.1.2]
      | _ => simp [Stmt.shape?] at shape
  | print value =>
      cases second with
      | print value' =>
          simp only [Stmt.sexpr, SExpr.node.injEq, List.cons.injEq] at same
          rw [value.sexpr_inj value' plain plain' same.2.1]
      | _ => simp [Stmt.shape?] at shape
  | expression value =>
      cases second with
      | expression value' => rw [value.sexpr_inj value' plain plain' same]
      | _ => simp [Stmt.shape?] at shape

theorem itemSExprs_inj (first second : List Stmt) (plain : BlockHasPlainLeaves first)
    (plain' : BlockHasPlainLeaves second) (same : itemSExprs first = itemSExprs second) :
    first = second := by
  cases first with
  | nil =>
      cases second with
      | nil => rfl
      | cons statement' rest' => cases same
  | cons statement rest =>
      cases second with
      | nil => cases same
      | cons statement' rest' =>
          rw [itemSExprs, itemSExprs, List.cons.injEq] at same
          rw [statement.sexpr_inj statement' plain.1 plain'.1 same.1,
            itemSExprs_inj rest rest' plain.2 plain'.2 same.2]

end

theorem Block.sexpr_inj (first second : Block) (plain : BlockHasPlainLeaves first)
    (plain' : BlockHasPlainLeaves second) (same : first.sexpr = second.sexpr) : first = second :=
  itemSExprs_inj first second plain plain' (SExpr.node.inj same).2

/-! ## Texts -/

/-- Programs, statements and expressions whose names are identifiers and whose floats are finite
are rendered differently unless they are equal. -/
theorem render_injOn_hasPlainLeaves :
    Set.InjOn Block.render {block | BlockHasPlainLeaves block} ∧
      Set.InjOn Stmt.render {statement | statement.HasPlainLeaves} ∧
      Set.InjOn Expr.render {tree | tree.HasPlainLeaves} :=
  ⟨SExpr.injOn_of_write Block.toList_render Block.isReadable_sexpr Block.sexpr_inj,
    SExpr.injOn_of_write Stmt.toList_render Stmt.isReadable_sexpr Stmt.sexpr_inj,
    SExpr.injOn_of_write Expr.toList_render Expr.isReadable_sexpr Expr.sexpr_inj⟩

/-- A conditional on a variable `block`, with other names that are heads of nodes in its only
branch. -/
def withoutElse : Stmt :=
  .ifThen (.var "block")
    [.expression (.var "print"), .assign "if" (.arithmetic .sub (.integer (-1)) (.float 0.5))]

/-- The same conditional with an empty else branch. -/
def withEmptyElse : Stmt :=
  .ifElse (.var "block")
    [.expression (.var "print"), .assign "if" (.arithmetic .sub (.integer (-1)) (.float 0.5))] []

/-- An empty else branch shows, and so does the point of a float. -/
theorem render_withEmptyElse_ne :
    withoutElse.render = "(if block (block print (:= if (- -1 0.5))))" ∧
      withoutElse.HasPlainLeaves ∧ withEmptyElse.HasPlainLeaves ∧
      withoutElse.render ≠ withEmptyElse.render ∧
      Block.render [withoutElse] ≠ Block.render [withEmptyElse] ∧
      (Expr.integer 1).render ≠ (Expr.float 1).render := by
  have isBlock : IsIdentifier "block" := by decide
  have isPrint : IsIdentifier "print" := by decide
  have isIf : IsIdentifier "if" := by decide
  have plain : withoutElse.HasPlainLeaves := ⟨isBlock, isPrint, ⟨isIf, trivial, rfl⟩, trivial⟩
  have plain' : withEmptyElse.HasPlainLeaves :=
    ⟨isBlock, ⟨isPrint, ⟨isIf, trivial, rfl⟩, trivial⟩, trivial⟩
  have blockPlain : BlockHasPlainLeaves [withoutElse] := ⟨plain, trivial⟩
  have blockPlain' : BlockHasPlainLeaves [withEmptyElse] := ⟨plain', trivial⟩
  have integerPlain : (Expr.integer 1).HasPlainLeaves := trivial
  have floatPlain : (Expr.float 1).HasPlainLeaves := rfl
  obtain ⟨onBlocks, onStatements, onExpressions⟩ := render_injOn_hasPlainLeaves
  refine ⟨by decide, plain, plain', fun same => ?_, fun same => ?_, fun same => ?_⟩
  · cases onStatements plain plain' same
  · cases onBlocks blockPlain blockPlain' same
  · cases onExpressions integerPlain floatPlain same

end WhileLang
