import WhileLang.Proofs.Lexical.WordLexing
import WhileLang.Proofs.Parsing.Role
import WhileLang.Syntax.Stmt

/-!
# The grammar of the language

The grammar is given by the token lists that spell expressions, statements and blocks.
It says nothing of how such a list is found or where it ends in a longer one.

Binary operators associate to the left, and of two that compete for an operand the one
of higher precedence takes it.  A negation takes as its operand the longest expression
that follows, as far as the operators outside parentheses have a higher precedence
than the negation.  So a phrase that ends in the operand of a negation can become the
left operand of an operator only if the operator would not have gone on with that
operand.
-/

namespace WhileLang

/-- The token is the reserved word or sign of a text. -/
def Token.Is (token : Token) (text : String) : Prop :=
  (Terminal.reserved text).accepts token

/-- The tokens spell the expression, with operators outside parentheses whose
precedences exceed a level, and with the operand of a negation at their end or not. -/
inductive SpellsExpr : Nat → Bool → List Token → Expr → Prop
  | leaf {level : Nat} {token : Token} {tree : Expr} (isLeaf : token.leaf? = some tree) :
      SpellsExpr level false [token] tree
  | group {level : Nat} {endsNegated : Bool} {opening closing : Token} {tokens : List Token}
      {tree : Expr} (opens : opening.Is "(") (body : SpellsExpr 0 endsNegated tokens tree)
      (closes : closing.Is ")") :
      SpellsExpr level false (opening :: (tokens ++ [closing])) tree
  | negation {level : Nat} {endsNegated : Bool} {sign : Token} {tokens : List Token} {tree : Expr}
      (isNot : sign.Is "not") (operand : SpellsExpr negationPrecedence endsNegated tokens tree) :
      SpellsExpr level true (sign :: tokens) (.not tree)
  | binary {level : Nat} {leftNegated rightNegated : Bool} {op : BinaryOperator} {sign : Token}
      {leftTokens rightTokens : List Token} {left right : Expr}
      (leftOperand : SpellsExpr (op.precedence - 1) leftNegated leftTokens left)
      (isOperator : sign.Is op.symbol)
      (rightOperand : SpellsExpr op.precedence rightNegated rightTokens right)
      (exceeds : level < op.precedence)
      (longest : leftNegated → op.precedence ≤ negationPrecedence) :
      SpellsExpr level rightNegated (leftTokens ++ sign :: rightTokens) (op.node left right)

/-- The tokens spell the expression. -/
def IsExpr (tokens : List Token) (tree : Expr) : Prop :=
  ∃ endsNegated, SpellsExpr 0 endsNegated tokens tree

mutual

/-- The tokens spell the statement.  An expression is a statement only if it begins with
an identifier. -/
inductive SpellsStmt : List Token → Stmt → Prop
  | assign {name sign semicolon : Token} {tokens : List Token} {value : Expr}
      (isName : name.category = .identifier) (isSign : sign.Is ":=")
      (isValue : IsExpr tokens value) (ends : semicolon.Is ";") :
      SpellsStmt (name :: sign :: (tokens ++ [semicolon])) (.assign name.value.render value)
  | ifThen {if_ then_ done : Token} {conditionTokens thenTokens : List Token} {condition : Expr}
      {thenBranch : Block} (isIf : if_.Is "if") (isCondition : IsExpr conditionTokens condition)
      (isThen : then_.Is "then") (isThenBranch : SpellsBlock thenTokens thenBranch)
      (isDone : done.Is "done") :
      SpellsStmt (if_ :: (conditionTokens ++ then_ :: (thenTokens ++ [done])))
        (.ifThen condition thenBranch)
  | ifElse {if_ then_ else_ done : Token} {conditionTokens thenTokens elseTokens : List Token}
      {condition : Expr} {thenBranch elseBranch : Block} (isIf : if_.Is "if")
      (isCondition : IsExpr conditionTokens condition) (isThen : then_.Is "then")
      (isThenBranch : SpellsBlock thenTokens thenBranch) (isElse : else_.Is "else")
      (isElseBranch : SpellsBlock elseTokens elseBranch) (isDone : done.Is "done") :
      SpellsStmt
        (if_ :: (conditionTokens ++ then_ :: (thenTokens ++ else_ :: (elseTokens ++ [done]))))
        (.ifElse condition thenBranch elseBranch)
  | whileDo {while_ do_ done : Token} {conditionTokens bodyTokens : List Token} {condition : Expr}
      {body : Block} (isWhile : while_.Is "while") (isCondition : IsExpr conditionTokens condition)
      (isDo : do_.Is "do") (isBody : SpellsBlock bodyTokens body) (isDone : done.Is "done") :
      SpellsStmt (while_ :: (conditionTokens ++ do_ :: (bodyTokens ++ [done])))
        (.whileDo condition body)
  | print {print_ semicolon : Token} {tokens : List Token} {value : Expr}
      (isPrint : print_.Is "print") (isValue : IsExpr tokens value) (ends : semicolon.Is ";") :
      SpellsStmt (print_ :: (tokens ++ [semicolon])) (.print value)
  | expression {name semicolon : Token} {tokens : List Token} {value : Expr}
      (isName : name.category = .identifier) (isValue : IsExpr (name :: tokens) value)
      (ends : semicolon.Is ";") :
      SpellsStmt (name :: (tokens ++ [semicolon])) (.expression value)

/-- The tokens spell the block: its statements, one after the other. -/
inductive SpellsBlock : List Token → Block → Prop
  | nil : SpellsBlock [] []
  | cons {first rest : List Token} {statement : Stmt} {block : Block}
      (isStatement : SpellsStmt first statement) (isBlock : SpellsBlock rest block) :
      SpellsBlock (first ++ rest) (statement :: block)

end

/-! ## Terminals of the grammar -/

namespace Token

theorem is_iff {token : Token} {text : String} :
    token.Is text ↔ token.category = .reserved ∧ token.isEnd = false ∧ token.text? = some text := by
  simp [Is, Terminal.accepts, and_assoc]

theorem Is.isEnd_eq_false {token : Token} {text : String} (is : token.Is text) :
    token.isEnd = false :=
  (is_iff.mp is).2.1

theorem Is.unique {token : Token} {first second : String} (isFirst : token.Is first)
    (isSecond : token.Is second) : first = second := by
  simpa [(is_iff.mp isFirst).2.2] using (is_iff.mp isSecond).2.2

theorem IsSign.is {token : Token} {sign : String} (isSign : token.IsSign sign) : token.Is sign :=
  is_iff.mpr ⟨isSign.1, isEnd_eq_false_of_isSign isSign, text?_of_isSign isSign⟩

theorem isEnd_eq_false_of_leaf? {token : Token} {tree : Expr} (isLeaf : token.leaf? = some tree) :
    token.isEnd = false := by
  cases category : token.category with
  | identifier => simp [isEnd, category]
  | number => simp [isEnd, category]
  | reserved => simp [leaf?, category] at isLeaf

theorem isEnd_eq_false_of_identifier {token : Token} (isName : token.category = .identifier) :
    token.isEnd = false := by
  simp [isEnd, isName]

theorem accepts_identifier_iff {token : Token} :
    (Terminal.ofCategory .identifier).accepts token ↔ token.category = .identifier := by
  simp only [Terminal.accepts, Bool.and_eq_true, decide_eq_true_eq]
  constructor
  · exact And.left
  · intro isName
    exact ⟨isName, by simp [isEnd_eq_false_of_identifier isName]⟩

theorem Is.leaf?_eq_none {token : Token} {text : String} (is : token.Is text) :
    token.leaf? = none := by
  simp [leaf?, (is_iff.mp is).1]

end Token

/-! ## Words of the grammar -/

/-- No fixed word is a name, and none begins with a digit. -/
theorem fixedWords_cases {word : String} (isFixed : word ∈ Grammar.standard.fixedWords) :
    ¬IsName word ∧ ¬word.toList.head?.any Char.isDigit := by
  have known : ∀ word ∈ Grammar.standard.fixedWords,
      (¬word.toList.head?.any isWordStart ∨ word ∈ reservedWords) ∧
        ¬word.toList.head?.any Char.isDigit := by decide
  rcases known word isFixed with ⟨noStart | reserved, noDigit⟩
  · exact ⟨fun isName => noStart isName.start, noDigit⟩
  · exact ⟨fun isName => isName.notReserved reserved, noDigit⟩

/-- No name begins with a digit. -/
theorem IsName.head?_not_isDigit {word : String} (isName : IsName word) :
    ¬word.toList.head?.any Char.isDigit := by
  have start := isName.start
  cases head : word.toList.head? with
  | none => simp
  | some c =>
      have start : isWordStart c := by simpa [head] using start
      simp [isDigit_eq_false_of_isWordStart start]

namespace Token.IsWrittenAs

variable {token : Token} {word : String}

/-- A fixed word is that reserved word or sign. -/
theorem is (written : token.IsWrittenAs word) (isFixed : word ∈ Grammar.standard.fixedWords) :
    token.Is word := by
  obtain ⟨notName, noDigit⟩ := fixedWords_cases isFixed
  cases written with
  | fixed value listed =>
      have reserved : ∀ entry ∈ Grammar.standard.fixedTokens, entry.2.category = .reserved := by
        decide
      exact Token.is_iff.mpr ⟨reserved _ listed,
        (Token.IsStandard.fixed value listed).isEnd_eq_false, by simp [Token.text?, value]⟩
  | name _ isName _ => exact absurd isName notName
  | integer _ nonnegative isNumeral _ =>
      exact absurd (isNumeral ▸ head?_toString_isDigit nonnegative) noDigit

/-- A name is an identifier. -/
theorem of_isName (written : token.IsWrittenAs word) (isName : IsName word) :
    token.value = .text word ∧ token.toTokenClass = nameClass := by
  cases written with
  | name value _ isClass => exact ⟨value, isClass⟩
  | fixed _ listed =>
      exact absurd isName (fixedWords_cases (List.mem_map_of_mem listed)).1
  | integer _ nonnegative isNumeral _ =>
      exact absurd (isNumeral ▸ head?_toString_isDigit nonnegative) isName.head?_not_isDigit

/-- A numeral is an integer. -/
theorem of_toString {number : Int64} (written : token.IsWrittenAs (toString number.toInt))
    (nonnegative : 0 ≤ number.toInt) :
    token.value = .int number ∧ token.toTokenClass = integerClass := by
  have digit := head?_toString_isDigit nonnegative
  cases written with
  | name _ isName _ => exact absurd digit isName.head?_not_isDigit
  | fixed _ listed => exact absurd digit (fixedWords_cases (List.mem_map_of_mem listed)).2
  | integer value otherNonnegative isNumeral isClass =>
      -- Both numbers are what the same numeral denotes.
      have reads := Decimal.readInteger_toString nonnegative
      rw [isNumeral, Decimal.readInteger_toString otherNonnegative] at reads
      exact ⟨Except.ok.inj reads ▸ value, isClass⟩

end Token.IsWrittenAs

/-! ## The tokens of a phrase -/

/-- Every token of an expression is a leaf or a sign, and none is the sign of assignment. -/
theorem SpellsExpr.leaf_or_sign {level : Nat} {endsNegated : Bool} {tokens : List Token}
    {tree : Expr} (spells : SpellsExpr level endsNegated tokens tree) :
    ∀ token ∈ tokens, token.leaf?.isSome ∨ ∃ sign, sign ≠ ":=" ∧ token.Is sign := by
  induction spells with
  | leaf isLeaf =>
      intro token member
      rw [List.mem_singleton.mp member, isLeaf]
      exact .inl rfl
  | group opens _ closes ih =>
      simp only [List.mem_cons, List.mem_append, List.not_mem_nil, or_false]
      rintro token (rfl | inner | rfl)
      · exact .inr ⟨_, by decide, opens⟩
      · exact ih token inner
      · exact .inr ⟨_, by decide, closes⟩
  | negation isNot _ ih =>
      simp only [List.mem_cons]
      rintro token (rfl | inner)
      · exact .inr ⟨_, by decide, isNot⟩
      · exact ih token inner
  | @binary _ _ _ op _ _ _ _ _ _ isOperator _ _ _ leftIh rightIh =>
      simp only [List.mem_append, List.mem_cons]
      rintro token (left | rfl | right)
      · exact leftIh token left
      · exact .inr ⟨_, op.symbol_ne.1, isOperator⟩
      · exact rightIh token right

theorem SpellsExpr.ne_nil {level : Nat} {endsNegated : Bool} {tokens : List Token} {tree : Expr}
    (spells : SpellsExpr level endsNegated tokens tree) : tokens ≠ [] := by
  cases spells <;> simp

theorem IsExpr.isEnd_eq_false {tokens : List Token} {tree : Expr} (isExpr : IsExpr tokens tree) :
    ∀ token ∈ tokens, token.isEnd = false := by
  intro token member
  rcases isExpr with ⟨_, spells⟩
  rcases spells.leaf_or_sign token member with isLeaf | ⟨sign, _, isSign⟩
  · rcases Option.isSome_iff_exists.mp isLeaf with ⟨leaf, isLeaf⟩
    exact Token.isEnd_eq_false_of_leaf? isLeaf
  · exact isSign.isEnd_eq_false

theorem IsExpr.not_is_assign {tokens : List Token} {tree : Expr} (isExpr : IsExpr tokens tree) :
    ∀ token ∈ tokens, ¬token.Is ":=" := by
  intro token member isAssign
  rcases isExpr with ⟨_, spells⟩
  rcases spells.leaf_or_sign token member with isLeaf | ⟨sign, other, isSign⟩
  · simp [isAssign.leaf?_eq_none] at isLeaf
  · exact other (isSign.unique isAssign)

mutual

/-- No statement holds the mark of the end. -/
theorem SpellsStmt.isEnd_eq_false {tokens : List Token} {statement : Stmt} :
    SpellsStmt tokens statement → ∀ token ∈ tokens, token.isEnd = false
  | .assign isName isSign isValue ends => by
      simp only [List.mem_cons, List.mem_append, List.not_mem_nil, or_false]
      rintro token (rfl | rfl | value | rfl)
      · exact Token.isEnd_eq_false_of_identifier isName
      · exact isSign.isEnd_eq_false
      · exact isValue.isEnd_eq_false token value
      · exact ends.isEnd_eq_false
  | .ifThen isIf isCondition isThen isThenBranch isDone => by
      simp only [List.mem_cons, List.mem_append, List.not_mem_nil, or_false]
      rintro token (rfl | condition | rfl | branch | rfl)
      · exact isIf.isEnd_eq_false
      · exact isCondition.isEnd_eq_false token condition
      · exact isThen.isEnd_eq_false
      · exact isThenBranch.isEnd_eq_false token branch
      · exact isDone.isEnd_eq_false
  | .ifElse isIf isCondition isThen isThenBranch isElse isElseBranch isDone => by
      simp only [List.mem_cons, List.mem_append, List.not_mem_nil, or_false]
      rintro token (rfl | condition | rfl | branch | rfl | branch | rfl)
      · exact isIf.isEnd_eq_false
      · exact isCondition.isEnd_eq_false token condition
      · exact isThen.isEnd_eq_false
      · exact isThenBranch.isEnd_eq_false token branch
      · exact isElse.isEnd_eq_false
      · exact isElseBranch.isEnd_eq_false token branch
      · exact isDone.isEnd_eq_false
  | .whileDo isWhile isCondition isDo isBody isDone => by
      simp only [List.mem_cons, List.mem_append, List.not_mem_nil, or_false]
      rintro token (rfl | condition | rfl | body | rfl)
      · exact isWhile.isEnd_eq_false
      · exact isCondition.isEnd_eq_false token condition
      · exact isDo.isEnd_eq_false
      · exact isBody.isEnd_eq_false token body
      · exact isDone.isEnd_eq_false
  | .print isPrint isValue ends => by
      simp only [List.mem_cons, List.mem_append, List.not_mem_nil, or_false]
      rintro token (rfl | value | rfl)
      · exact isPrint.isEnd_eq_false
      · exact isValue.isEnd_eq_false token value
      · exact ends.isEnd_eq_false
  | .expression isName isValue ends => by
      simp only [List.mem_cons, List.mem_append, List.not_mem_nil, or_false]
      rintro token (rfl | value | rfl)
      · exact Token.isEnd_eq_false_of_identifier isName
      · exact isValue.isEnd_eq_false token (List.mem_cons_of_mem _ value)
      · exact ends.isEnd_eq_false

/-- No block holds the mark of the end. -/
theorem SpellsBlock.isEnd_eq_false {tokens : List Token} {block : Block} :
    SpellsBlock tokens block → ∀ token ∈ tokens, token.isEnd = false
  | .nil => by simp
  | .cons isStatement isBlock => by
      intro token member
      rcases List.mem_append.mp member with first | rest
      · exact isStatement.isEnd_eq_false token first
      · exact isBlock.isEnd_eq_false token rest

end

/-! ## Tokens with the precedences of the language -/

/-- The token can be met in an expression of the language, and if it is an operator it
has the precedence that the language gives it. -/
structure Token.IsRegular (token : Token) : Prop where
  hasMeaning : token.HasMeaning
  isSign : ∀ sign ∈ operatorSigns, token.Is sign → token.IsSign sign
  binary : ∀ op : BinaryOperator, token.IsSign op.symbol → token.precedence = op.precedence
  negation : token.IsSign "not" → token.precedence = negationPrecedence

namespace Token.IsRegular

theorem isSign_binary {token : Token} (regular : token.IsRegular) {op : BinaryOperator}
    (is : token.Is op.symbol) : token.IsSign op.symbol := by
  have listed : ∀ op ∈ BinaryOperator.all, op.symbol ∈ operatorSigns := by decide
  exact regular.isSign _ (listed op op.mem_all) is

theorem of_not_reserved {token : Token} (notReserved : token.category ≠ .reserved)
    (isRead : token.category = .number → token.text? = none) : token.IsRegular where
  hasMeaning := ⟨isRead, fun reserved => absurd reserved notReserved⟩
  isSign _ _ is := absurd (is_iff.mp is).1 notReserved
  binary _ isSign := absurd isSign.1 notReserved
  negation isSign := absurd isSign.1 notReserved

theorem endOfInput (offset : Nat) : (Token.endOfInput offset).IsRegular where
  hasMeaning := hasMeaning_endOfInput offset
  isSign _ _ is := by simpa using is.isEnd_eq_false
  binary _ isSign := absurd isSign (not_isSign_endOfInput _ _)
  negation isSign := absurd isSign (not_isSign_endOfInput _ _)

end Token.IsRegular

/-- The tokens of the language are regular. -/
theorem Token.IsStandard.isRegular {token : Token} (isStandard : token.IsStandard) :
    token.IsRegular := by
  cases isStandard with
  | name value isName isClass =>
      apply IsRegular.of_not_reserved <;> simp [isClass, nameClass]
  | integer value _ isClass =>
      apply IsRegular.of_not_reserved <;> simp [isClass, integerClass, text?, value]
  | float value isClass =>
      apply IsRegular.of_not_reserved <;> simp [isClass, floatClass, text?, value]
  | @fixed text value listed =>
      have sameText : ∀ {other}, token.text? = some other → text = other := by
        intro other same
        simpa [text?, value] using same
      constructor
      · have known : ∀ entry ∈ Grammar.standard.fixedTokens, entry.2.category = .reserved ∧
            (entry.2.subcategory = some .operator → entry.1 ∈ operatorSigns) := by decide
        obtain ⟨reserved, sign⟩ := known _ listed
        constructor
        · intro number
          cases reserved.symm.trans number
        · intro _ operator
          exact ⟨text, sign operator, by simp [text?, value]⟩
      · intro sign member is
        have known : ∀ entry ∈ Grammar.standard.fixedTokens, entry.1 ∈ operatorSigns →
            entry.2.category = .reserved ∧ entry.2.subcategory = some .operator := by decide
        have same := sameText (is_iff.mp is).2.2
        subst same
        obtain ⟨reserved, operator⟩ := known _ listed member
        exact ⟨reserved, operator, value⟩
      · intro op isSign
        have known : ∀ entry ∈ Grammar.standard.fixedTokens, ∀ op ∈ BinaryOperator.all,
            entry.1 = op.symbol → entry.2.precedence = op.precedence := by decide
        exact known _ listed op op.mem_all (sameText (text?_of_isSign isSign))
      · intro isSign
        have known : ∀ entry ∈ Grammar.standard.fixedTokens,
            entry.1 = "not" → entry.2.precedence = negationPrecedence := by decide
        exact known _ listed (sameText (text?_of_isSign isSign))

/-- Every token from the cursor on is regular. -/
def Cursor.IsRegular (cursor : Cursor) : Prop :=
  ∀ token ∈ cursor.rest, token.IsRegular

namespace Cursor.IsRegular

theorem hasMeaning {cursor : Cursor} (regular : cursor.IsRegular) : cursor.HasMeaning :=
  fun token member => (regular token member).hasMeaning

theorem current {cursor : Cursor} (regular : cursor.IsRegular) : cursor.current.IsRegular := by
  unfold Cursor.current
  cases rest : cursor.rest with
  | nil => exact Token.IsRegular.endOfInput _
  | cons token tokens => exact regular token (by simp [rest])

theorem advance {cursor : Cursor} (regular : cursor.IsRegular) : cursor.advance.IsRegular :=
  fun token member => regular token (List.mem_of_mem_tail member)

end Cursor.IsRegular

end WhileLang
