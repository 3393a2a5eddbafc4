import WhileLang.Proofs.Parsing.OperatorScan

/-!
# The pass climbs

The pass over an expression does what precedence climbing does by recursion: it
builds the same tree, stops at the same token and fails with the same error,
whatever precedences the operator tokens carry.

The stack of the pass need not be ordered by precedence, since a negation is put on
it without sending anything out and an open parenthesis shields what lies below.
What relates it to the recursion is that every climb in progress owns the top part
of the stack.  The floor of the climb is the precedence of the token right below
that part, and once the climb has read a tree, its part of the output and of the
stack spell the tree in postorder.
-/

namespace WhileLang

/-! ## Postorder of a tree in progress -/

theorem reduceToken_leaf {token : Token} {tree : Expr} (isLeaf : token.leaf? = some tree)
    (trees : List Expr) : reduceToken trees token = .ok (tree :: trees) := by
  unfold Token.leaf? at isLeaf
  unfold reduceToken numberLeaf
  cases category : token.category with
  | identifier =>
      rw [category] at isLeaf
      simpa using isLeaf
  | number =>
      cases value : token.value with
      | text text => simp [category, value] at isLeaf
      | int number =>
          rw [category, value] at isLeaf
          simpa [Except.map] using isLeaf
      | float number =>
          rw [category, value] at isLeaf
          simpa [Except.map] using isLeaf
  | reserved => simp [category] at isLeaf

theorem reduceToken_negation {token : Token} (isNot : token.IsSign "not") (tree : Expr)
    (trees : List Expr) : reduceToken (tree :: trees) token = .ok (.not tree :: trees) := by
  simp [reduceToken, isNot.1, Token.isOperator, isNot.2.1, Token.text?_of_isSign isNot,
    operatorNode, Except.map]

theorem operatorNode_eq_node {token : Token} {op : BinaryOperator}
    (isSign : token.IsSign op.symbol) (left right : Expr) :
    operatorNode token (some left) right = .ok (op.node left right) := by
  unfold operatorNode
  rw [Token.text?_of_isSign isSign]
  cases op with
  | arithmetic op => cases op <;> rfl
  | relational op => cases op <;> rfl
  | and => rfl
  | or => rfl

theorem reduceToken_binary {token : Token} {op : BinaryOperator}
    (isSign : token.IsSign op.symbol) (left right : Expr) (trees : List Expr) :
    reduceToken (right :: left :: trees) token = .ok (op.node left right :: trees) := by
  rcases op.symbol_ne with ⟨_, _, _, notNegation⟩
  simp [reduceToken, isSign.1, Token.isOperator, isSign.2.1, Token.text?_of_isSign isSign,
    notNegation, operatorNode_eq_node isSign, Except.map]

/-- What a climb owns when it has read a tree: the output that it sent, oldest token
first, and the operators that wait, innermost first.  Together they are the tree in
postorder, and a binary operator that follows sends out all that waits. -/
structure Owned (sent waiting : List Token) (tree : Expr) (following : Token) : Prop where
  postorder : ∀ trees, (sent ++ waiting).foldlM reduceToken trees = .ok (tree :: trees)
  noGroup : ∀ operator ∈ waiting, operator.opensGroup = false
  goBefore : following.role = .binary →
    ∀ operator ∈ waiting, following.precedence ≤ operator.precedence

namespace Owned

variable {sent waiting : List Token} {tree : Expr} {following : Token}

theorem leaf {token : Token} (isLeaf : token.leaf? = some tree) (following : Token) :
    Owned [token] [] tree following where
  postorder trees := by
    simp [List.foldlM_cons, reduceToken_leaf isLeaf]
  noGroup := by simp
  goBefore := by simp

/-- A group is sent out when it is closed. -/
theorem close (owned : Owned sent waiting tree following) (next : Token) :
    Owned (sent ++ waiting) [] tree next where
  postorder trees := by simpa using owned.postorder trees
  noGroup := by simp
  goBefore := by simp

/-- A negation waits below what its operand owns. -/
theorem negation (owned : Owned sent waiting tree following) {token : Token}
    (isNot : token.IsSign "not")
    (bounded : following.role = .binary → following.precedence ≤ token.precedence) :
    Owned sent (waiting ++ [token]) (.not tree) following where
  postorder trees := by
    rw [← List.append_assoc, List.foldlM_append, owned.postorder trees]
    exact congrArg (· >>= pure) (reduceToken_negation isNot tree trees)
  noGroup := by
    intro operator member
    rcases List.mem_append.mp member with inner | last
    · exact owned.noGroup operator inner
    · rw [List.mem_singleton.mp last, Token.opensGroup_of_isSign isNot]
      decide
  goBefore := by
    intro binary operator member
    rcases List.mem_append.mp member with inner | last
    · exact owned.goBefore binary operator inner
    · rw [List.mem_singleton.mp last]
      exact bounded binary

/-- A binary operator waits below what its right operand owns, and all that its left
operand owns has been sent. -/
theorem binary {rightSent rightWaiting : List Token} {right : Expr} {next token : Token}
    (leftOwned : Owned sent waiting tree following)
    (rightOwned : Owned rightSent rightWaiting right next) {op : BinaryOperator}
    (isSign : token.IsSign op.symbol)
    (bounded : next.role = .binary → next.precedence ≤ token.precedence) :
    Owned (sent ++ waiting ++ rightSent) (rightWaiting ++ [token]) (op.node tree right) next where
  postorder trees := by
    have regrouped : sent ++ waiting ++ rightSent ++ (rightWaiting ++ [token]) =
        (sent ++ waiting) ++ ((rightSent ++ rightWaiting) ++ [token]) := by simp
    rw [regrouped, List.foldlM_append, leftOwned.postorder trees]
    change List.foldlM reduceToken (tree :: trees) _ = _
    rw [List.foldlM_append, rightOwned.postorder (tree :: trees)]
    exact congrArg (· >>= pure) (reduceToken_binary isSign tree right trees)
  noGroup := by
    intro operator member
    rcases List.mem_append.mp member with inner | last
    · exact rightOwned.noGroup operator inner
    · rw [List.mem_singleton.mp last, Token.opensGroup_of_isSign isSign]
      exact decide_eq_false op.symbol_ne.2.1
  goBefore := by
    intro isBinary operator member
    rcases List.mem_append.mp member with inner | last
    · exact rightOwned.goBefore isBinary operator inner
    · rw [List.mem_singleton.mp last]
      exact bounded isBinary

/-- What a climb owns goes before a binary operator that follows. -/
theorem goesBefore (owned : Owned sent waiting tree following) {op : BinaryOperator}
    (isOperator : following.IsSign op.symbol) :
    ∀ operator ∈ waiting, operator.goesBefore following = true := by
  intro operator member
  have binary := Token.role_eq_binary_of_isSign isOperator
  simp [Token.goesBefore, owned.noGroup operator member, owned.goBefore binary operator member]

end Owned

/-! ## Climbs in progress -/

/-- The floor of the climb that owns everything above a stack of waiting operators. -/
def floorOf : List Token → WithBot Nat
  | [] => ⊥
  | token :: _ => if token.opensGroup then ⊥ else token.precedence

theorem floorOf_operator {token : Token} {waiting : List Token} {op : BinaryOperator}
    (isOperator : token.IsSign op.symbol) : floorOf (token :: waiting) = token.precedence := by
  simp [floorOf, Token.opensGroup_of_isSign isOperator, op.symbol_ne]

/-- What lies below a climb stays when an operator above its floor is met. -/
theorem goesBefore_eq_false_of_floorOf_lt {waiting : List Token} {token : Token}
    (exceeds : floorOf waiting < token.precedence) :
    ∀ operator ∈ waiting.head?, operator.goesBefore token = false := by
  intro operator member
  cases waiting with
  | nil => simp at member
  | cons top rest =>
      have isTop : top = operator := by simpa using member
      subst isTop
      cases opens : top.opensGroup with
      | true => simp [Token.goesBefore, opens]
      | false =>
          simp only [floorOf, opens, Bool.false_eq_true, if_false, Nat.cast_lt] at exceeds
          simp [Token.goesBefore, opens, exceeds]

/-- Going on with a pass ends as a climb does that began on top of `output` and
`waiting`: with the same error, or with the tree in what the climb owns. -/
def OperatorScan.Agrees (scan : OperatorScan) (cursor : Cursor) (output waiting : List Token) :
    ExprOutcome → Prop
  | .error error next => scan.toTree cursor = .error error next
  | .ok tree next => next.HasMeaning ∧ ∃ sent owned,
      Owned sent owned tree next.current ∧
        scan.goOn cursor = goOn ⟨sent.reverse ++ output, owned ++ waiting, false⟩ next

theorem OperatorScan.Agrees.of_goOn_eq {first second : OperatorScan}
    {firstCursor secondCursor : Cursor} {output waiting : List Token} {outcome : ExprOutcome}
    (same : first.goOn firstCursor = second.goOn secondCursor)
    (agrees : second.Agrees secondCursor output waiting outcome) :
    first.Agrees firstCursor output waiting outcome := by
  cases outcome with
  | error error next => exact (toTree_congr same).trans agrees
  | ok tree next =>
      rcases agrees with ⟨meaning, sent, owned, isOwned, reached⟩
      exact ⟨meaning, sent, owned, isOwned, same.trans reached⟩

theorem Token.role_ne_binary_of_not_exceeds {token : Token} (meaning : token.HasMeaning)
    (notExceeds : ¬token.Exceeds ⊥) : token.role ≠ .binary := by
  intro binary
  exact notExceeds ⟨token.exists_isSign_of_role_eq_binary meaning binary, WithBot.bot_lt_coe _⟩

theorem Token.precedence_le_of_not_exceeds {token : Token} {precedence : Nat}
    (meaning : token.HasMeaning) (notExceeds : ¬token.Exceeds precedence)
    (binary : token.role = .binary) : token.precedence ≤ precedence := by
  by_contra larger
  exact notExceeds ⟨token.exists_isSign_of_role_eq_binary meaning binary,
    WithBot.coe_lt_coe.mpr (Nat.lt_of_not_le larger)⟩

open OperatorScan in
mutual

/-- Where an operand has to come next, a pass does what reading the operand does. -/
theorem ClimbOperand.agrees {cursor : Cursor} {outcome : ExprOutcome} :
    ClimbOperand cursor outcome → cursor.HasMeaning → ∀ output waiting,
      Agrees ⟨output, waiting, true⟩ cursor output waiting outcome
  | .leaf isLeaf, meaning, output, waiting => by
      refine ⟨meaning.advance, [cursor.current], [], Owned.leaf isLeaf _, ?_⟩
      rw [goOn_of_proceed (step_leaf isLeaf)]
      rfl
  | .group opens body closes, meaning, output, waiting => by
      have pushed := goOn_of_proceed (step_opening output waiting opens (.inl rfl))
      obtain ⟨nextMeaning, sent, owned, isOwned, reached⟩ :=
        body.agrees meaning.advance output (cursor.current :: waiting)
          (by simp [floorOf, Token.opensGroup_of_isSign opens])
      refine ⟨nextMeaning.advance, sent ++ owned, [], isOwned.close _, ?_⟩
      rw [pushed, reached, goOn_of_proceed (step_closing closes opens isOwned.noGroup)]
      simp
  | .groupFails opens body, meaning, output, waiting => by
      have pushed := goOn_of_proceed (step_opening output waiting opens (.inl rfl))
      exact Agrees.of_goOn_eq pushed
        (body.agrees meaning.advance output (cursor.current :: waiting)
          (by simp [floorOf, Token.opensGroup_of_isSign opens]))
  | .groupOpen opens body notClosed, meaning, output, waiting => by
      have pushed := goOn_of_proceed (step_opening output waiting opens (.inl rfl))
      obtain ⟨nextMeaning, sent, owned, isOwned, reached⟩ :=
        body.agrees meaning.advance output (cursor.current :: waiting)
          (by simp [floorOf, Token.opensGroup_of_isSign opens])
      have stops := step_stop (sent.reverse ++ output) (owned ++ cursor.current :: waiting)
        (Token.role_ne_binary_of_not_exceeds nextMeaning.current body.not_exceeds)
        (fun closing => absurd (Token.isSign_of_role_eq_closing nextMeaning.current closing)
          notClosed)
      have innermost : owned.find? Token.opensGroup = none :=
        List.find?_eq_none.mpr (by simpa using isOwned.noGroup)
      apply (toTree_congr (pushed.trans reached)).trans
      rw [toTree_of_stop stops]
      simp [finish, innermost, Token.opensGroup_of_isSign opens, Except.bind]
  | .negation isNot operand, meaning, output, waiting => by
      have pushed := goOn_of_proceed (step_opening output waiting isNot (.inr rfl))
      obtain ⟨nextMeaning, sent, owned, isOwned, reached⟩ :=
        operand.agrees meaning.advance output (cursor.current :: waiting)
          (by simp [floorOf, Token.opensGroup_of_isSign isNot])
      refine ⟨nextMeaning, sent, owned ++ [cursor.current], isOwned.negation isNot
        (Token.precedence_le_of_not_exceeds nextMeaning.current operand.not_exceeds), ?_⟩
      rw [pushed, reached]
      simp
  | .negationFails isNot operand, meaning, output, waiting => by
      have pushed := goOn_of_proceed (step_opening output waiting isNot (.inr rfl))
      exact Agrees.of_goOn_eq pushed
        (operand.agrees meaning.advance output (cursor.current :: waiting)
          (by simp [floorOf, Token.opensGroup_of_isSign isNot]))
  | .missing noOperand, meaning, output, waiting => toTree_of_missing meaning.current noOperand

/-- A pass does what a climb on top of its stack does, if the climb has the floor that
the stack gives it. -/
theorem Climb.agrees {floor : WithBot Nat} {cursor : Cursor} {outcome : ExprOutcome} :
    Climb floor cursor outcome → cursor.HasMeaning → ∀ output waiting,
      floorOf waiting = floor → Agrees ⟨output, waiting, true⟩ cursor output waiting outcome
  | .operandFails operand, meaning, output, waiting, _ =>
      operand.agrees meaning output waiting
  | .climbs operand operators, meaning, output, waiting, onTop => by
      obtain ⟨nextMeaning, sent, owned, isOwned, reached⟩ := operand.agrees meaning output waiting
      exact Agrees.of_goOn_eq reached
        (operators.agrees nextMeaning output waiting onTop sent owned isOwned)

/-- Behind an operand a pass does what going on with a climb does. -/
theorem ClimbOn.agrees {floor : WithBot Nat} {left : Expr} {cursor : Cursor}
    {outcome : ExprOutcome} :
    ClimbOn floor left cursor outcome → cursor.HasMeaning → ∀ output waiting,
      floorOf waiting = floor → ∀ sent owned, Owned sent owned left cursor.current →
        Agrees ⟨sent.reverse ++ output, owned ++ waiting, false⟩ cursor output waiting outcome
  | .stop _, meaning, _, _, _, sent, owned, isOwned => ⟨meaning, sent, owned, isOwned, rfl⟩
  | .combine isOperator exceeds operand operators, meaning, output, waiting, onTop, sent, owned,
      isOwned => by
      have pushed := goOn_of_proceed (step_binary (sent.reverse ++ output)
        (Token.role_eq_binary_of_isSign isOperator) (isOwned.goesBefore isOperator)
        (goesBefore_eq_false_of_floorOf_lt (onTop ▸ exceeds)))
      obtain ⟨nextMeaning, rightSent, rightOwned, isRightOwned, reached⟩ :=
        operand.agrees meaning.advance _ (cursor.current :: waiting) (floorOf_operator isOperator)
      have both := isOwned.binary isRightOwned isOperator
        (Token.precedence_le_of_not_exceeds nextMeaning.current operand.not_exceeds)
      have onward := operators.agrees nextMeaning output waiting onTop _ _ both
      apply Agrees.of_goOn_eq (pushed.trans reached)
      simpa using onward
  | .operandFails isOperator exceeds operand, meaning, output, waiting, onTop, sent, owned,
      isOwned => by
      have pushed := goOn_of_proceed (step_binary (sent.reverse ++ output)
        (Token.role_eq_binary_of_isSign isOperator) (isOwned.goesBefore isOperator)
        (goesBefore_eq_false_of_floorOf_lt (onTop ▸ exceeds)))
      exact Agrees.of_goOn_eq pushed
        (operand.agrees meaning.advance _ (cursor.current :: waiting) (floorOf_operator isOperator))

end

/-! ## Whole expressions -/

/-- An expression is read as climbing reads it. -/
theorem Climb.expression_eq {cursor : Cursor} {outcome : ExprOutcome}
    (climb : Climb ⊥ cursor outcome) (meaning : cursor.HasMeaning) :
    Parser.expression cursor = outcome := by
  rw [OperatorScan.expression_eq_toTree_start]
  have agrees := climb.agrees meaning [] [] rfl
  cases outcome with
  | error error next => exact agrees
  | ok tree next =>
      rcases agrees with ⟨nextMeaning, sent, owned, isOwned, reached⟩
      have innermost : owned.find? Token.opensGroup = none :=
        List.find?_eq_none.mpr (by simpa using isOwned.noGroup)
      have stops := OperatorScan.step_stop (sent.reverse ++ []) (owned ++ [])
        (Token.role_ne_binary_of_not_exceeds nextMeaning.current climb.not_exceeds)
        (fun _ => by simpa using isOwned.noGroup)
      apply (OperatorScan.toTree_congr reached).trans
      rw [OperatorScan.toTree_of_stop stops]
      simp [OperatorScan.finish, innermost, Except.bind, exprOfPostorder, isOwned.postorder]

/-- Reading an expression in one pass is precedence climbing: on every cursor the tree or
the error and the place of the cursor afterwards are those of the climb above the lowest
floor, whatever the precedences of the operator tokens. -/
theorem expression_eq_iff_climb {cursor : Cursor}
    (meaning : ∀ token ∈ cursor.rest, token.HasMeaning) (outcome : ExprOutcome) :
    Parser.expression cursor = outcome ↔ Climb ⊥ cursor outcome := by
  constructor
  · rintro rfl
    obtain ⟨outcome, climb⟩ := exists_climb ⊥ cursor
    rwa [climb.expression_eq meaning]
  · intro climb
    exact climb.expression_eq meaning

/-- A reserved operator token of a sign and a precedence. -/
def signToken (sign : String) (precedence offset : Nat) : Token where
  category := .reserved
  subcategory := some .operator
  precedence
  value := .text sign
  span := ⟨offset, sign.length⟩

/-- An identifier token. -/
def nameToken (name : String) (offset : Nat) : Token where
  category := .identifier
  subcategory := none
  precedence := 0
  value := .text name
  span := ⟨offset, name.length⟩

/-- The text `a * not b + c)` with unusual precedences: the negation binds more loosely
than the product before it and more tightly than the sum behind it. -/
def tightNegation : Cursor where
  rest := [nameToken "a" 0, signToken "*" 7 2, signToken "not" 4 4, nameToken "b" 8,
    signToken "+" 3 10, nameToken "c" 12, signToken ")" 0 13]
  position := 0
  endOffset := 14

theorem climb_tightNegation :
    (∀ token ∈ tightNegation.rest, token.HasMeaning) ∧
      Climb ⊥ tightNegation
        (.ok (.arithmetic .add (.arithmetic .mul (.var "a") (.not (.var "b"))) (.var "c"))
          ⟨[signToken ")" 0 13], 6, 14⟩) :=
  ⟨by decide, (expression_eq_iff_climb (by decide) _).mp rfl⟩

end WhileLang
