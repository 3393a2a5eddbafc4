import Mathlib
import WhileLang.Proofs.Parsing.ScanAgreement
import WhileLang.Proofs.Syntax.Occurrence
import WhileLang.Proofs.Syntax.Writing

/-!
# Postorder sequences and trees

A tree is written in postorder with one token for each of its parts, every operator behind
its operands.  Such a sequence builds the tree again, and a sequence that builds a tree is
the postorder sequence of that tree, so no operand is dropped, doubled or put on the other
side.  What a token adds that is no part of the tree, its precedence and its place, has no
effect.

The trees that are finished lie on a stack.  Reading them from the bottom up, part by part,
gives the tokens that were taken, and this is what every token preserves.
-/

namespace WhileLang

/-! ## Tokens for the parts of a tree -/

/-- The token of a binary operator. -/
def BinaryOperator.token (op : BinaryOperator) : Token :=
  signToken op.symbol op.precedence 0

namespace Expr

/-- A token for the root of an expression: its number or its name, or the operator that is
put behind its operands. -/
def rootToken : Expr → Token
  | .integer number => { integerClass with value := .int number, span := ⟨0, 0⟩ }
  | .float number => { floatClass with value := .float number, span := ⟨0, 0⟩ }
  | .var name => nameToken name 0
  | .arithmetic op _ _ => BinaryOperator.token (.arithmetic op)
  | .relational op _ _ => BinaryOperator.token (.relational op)
  | .and _ _ => BinaryOperator.token .and
  | .or _ _ => BinaryOperator.token .or
  | .not _ => signToken "not" negationPrecedence 0

/-- The expression in postorder: the tokens of its left operand, those of its right operand,
and its operator. -/
def postorder (tree : Expr) : List Token :=
  tree.parts.map rootToken

@[simp]
theorem parts_node (op : BinaryOperator) (left right : Expr) :
    (op.node left right).parts = left.parts ++ right.parts ++ [op.node left right] := by
  cases op <;> rfl

end Expr

namespace Token

/-- A token stands for the root of an expression, wherever it stands and whatever its
precedence is. -/
def IsRootOf (token : Token) : Expr → Prop
  | .integer number => token.leaf? = some (.integer number)
  | .float number => token.leaf? = some (.float number)
  | .var name => token.leaf? = some (.var name)
  | .arithmetic op _ _ => token.IsSign op.symbol
  | .relational op _ _ => token.IsSign op.symbol
  | .and _ _ => token.IsSign "and"
  | .or _ _ => token.IsSign "or"
  | .not _ => token.IsSign "not"

/-- What a token shows of itself. -/
def appearance (token : Token) : Category × String :=
  (token.category, token.value.render)

variable {token : Token} {tree : Expr}

@[simp]
theorem isRootOf_node {op : BinaryOperator} {left right : Expr} :
    token.IsRootOf (op.node left right) ↔ token.IsSign op.symbol := by
  cases op <;> rfl

theorem leaf?_eq_some_cases (isLeaf : token.leaf? = some tree) :
    (∃ number, token.category = .number ∧ token.value = .int number ∧ tree = .integer number) ∨
      (∃ number, token.category = .number ∧ token.value = .float number ∧ tree = .float number) ∨
        token.category = .identifier ∧ tree = .var token.value.render := by
  unfold leaf? at isLeaf
  split at isLeaf
  next number category value =>
    exact .inl ⟨number, category, value, (Option.some.inj isLeaf).symm⟩
  next number category value =>
    exact .inr (.inl ⟨number, category, value, (Option.some.inj isLeaf).symm⟩)
  next category =>
    exact .inr (.inr ⟨category, (Option.some.inj isLeaf).symm⟩)
  next => cases isLeaf

theorem isRootOf_of_leaf? (isLeaf : token.leaf? = some tree) : token.IsRootOf tree := by
  rcases leaf?_eq_some_cases isLeaf with ⟨_, _, _, rfl⟩ | ⟨_, _, _, rfl⟩ | ⟨_, rfl⟩
  · exact isLeaf
  · exact isLeaf
  · exact isLeaf

theorem parts_of_leaf? (isLeaf : token.leaf? = some tree) : tree.parts = [tree] := by
  rcases leaf?_eq_some_cases isLeaf with ⟨_, _, _, rfl⟩ | ⟨_, _, _, rfl⟩ | ⟨_, rfl⟩ <;> rfl

theorem isSign_signToken (sign : String) (precedence offset : Nat) :
    (signToken sign precedence offset).IsSign sign :=
  ⟨rfl, rfl, rfl⟩

theorem isRootOf_rootToken (tree : Expr) : tree.rootToken.IsRootOf tree := by
  cases tree with
  | integer number => rfl
  | float number => rfl
  | var name => rfl
  | arithmetic op left right => exact isSign_signToken _ _ _
  | relational op left right => exact isSign_signToken _ _ _
  | and left right => exact isSign_signToken _ _ _
  | or left right => exact isSign_signToken _ _ _
  | not operand => exact isSign_signToken _ _ _

theorem appearance_of_leaf? (isLeaf : token.leaf? = some tree) :
    token.appearance = tree.rootToken.appearance := by
  rcases leaf?_eq_some_cases isLeaf with ⟨_, category, value, rfl⟩ |
    ⟨_, category, value, rfl⟩ | ⟨category, rfl⟩
  · rw [appearance, category, value]
    rfl
  · rw [appearance, category, value]
    rfl
  · rw [appearance, category]
    rfl

theorem appearance_of_isSign {sign : String} (isSign : token.IsSign sign) (precedence : Nat) :
    token.appearance = (signToken sign precedence 0).appearance := by
  rw [appearance, isSign.1, isSign.2.2]
  rfl

/-- Tokens for the root of one expression look alike. -/
theorem IsRootOf.appearance_eq (isRoot : token.IsRootOf tree) :
    token.appearance = tree.rootToken.appearance := by
  cases tree with
  | integer number => exact appearance_of_leaf? isRoot
  | float number => exact appearance_of_leaf? isRoot
  | var name => exact appearance_of_leaf? isRoot
  | arithmetic op left right => exact appearance_of_isSign isRoot _
  | relational op left right => exact appearance_of_isSign isRoot _
  | and left right => exact appearance_of_isSign isRoot _
  | or left right => exact appearance_of_isSign isRoot _
  | not operand => exact appearance_of_isSign isRoot _

end Token

/-- A token list is an expression in postorder: its tokens stand for the parts of the
expression, one for each. -/
def SpellsPostorder (tokens : List Token) (tree : Expr) : Prop :=
  List.Forall₂ Token.IsRootOf tokens tree.parts

theorem spellsPostorder_postorder (tree : Expr) : SpellsPostorder tree.postorder tree := by
  unfold SpellsPostorder Expr.postorder
  rw [List.forall₂_map_left_iff, List.forall₂_same]
  exact fun part _ => Token.isRootOf_rootToken part

/-- All token lists for an expression look alike. -/
theorem SpellsPostorder.map_appearance {tokens : List Token} {tree : Expr}
    (spells : SpellsPostorder tokens tree) :
    tokens.map Token.appearance = tree.postorder.map Token.appearance := by
  have pointwise : ∀ {tokens : List Token} {parts : List Expr},
      List.Forall₂ Token.IsRootOf tokens parts →
        tokens.map Token.appearance = (parts.map Expr.rootToken).map Token.appearance := by
    intro tokens parts related
    induction related with
    | nil => rfl
    | cons head _ ih => rw [List.map_cons, List.map_cons, List.map_cons, head.appearance_eq, ih]
  exact pointwise spells

/-! ## What one token does to the stack -/

/-- A token takes the trees of its operands from the stack and puts its own tree there. -/
inductive Token.Reduces (token : Token) : List Expr → List Expr → Prop
  | leaf {trees : List Expr} {tree : Expr} (isLeaf : token.leaf? = some tree) :
      Reduces token trees (tree :: trees)
  | negation {trees : List Expr} {operand : Expr} (isNot : token.IsSign "not") :
      Reduces token (operand :: trees) (.not operand :: trees)
  | binary {trees : List Expr} {left right : Expr} {op : BinaryOperator}
      (isSign : token.IsSign op.symbol) :
      Reduces token (right :: left :: trees) (op.node left right :: trees)

theorem ArithmeticOp.symbol_of_ofSymbol? {sign : String} {op : ArithmeticOp}
    (stands : ofSymbol? sign = some op) : op.symbol = sign := by
  unfold ofSymbol? at stands
  split at stands <;> cases stands <;> rfl

theorem RelationalOp.symbol_of_ofSymbol? {sign : String} {op : RelationalOp}
    (stands : ofSymbol? sign = some op) : op.symbol = sign := by
  unfold ofSymbol? at stands
  split at stands <;> cases stands <;> rfl

/-- A node with a left operand is made by the sign of a binary operator. -/
theorem operatorNode_eq_ok {token : Token} {left right node : Expr}
    (notNegation : token.text? ≠ some "not")
    (makes : operatorNode token (some left) right = .ok node) :
    ∃ op : BinaryOperator, token.text? = some op.symbol ∧ op.node left right = node := by
  unfold operatorNode at makes
  cases text : token.text? with
  | none =>
      rw [text] at makes
      cases makes
  | some sign =>
      rw [text] at notNegation makes
      have notNot : sign ≠ "not" := fun same => notNegation (congrArg some same)
      simp only [Option.getD_some, if_neg notNot] at makes
      by_cases isAnd : sign = "and"
      · rw [if_pos isAnd] at makes
        exact ⟨.and, congrArg some isAnd, Except.ok.inj makes⟩
      · by_cases isOr : sign = "or"
        · rw [if_neg isAnd, if_pos isOr] at makes
          exact ⟨.or, congrArg some isOr, Except.ok.inj makes⟩
        · rw [if_neg isAnd, if_neg isOr] at makes
          split at makes
          next op arithmetic =>
            exact ⟨.arithmetic op, congrArg some (ArithmeticOp.symbol_of_ofSymbol? arithmetic).symm,
              Except.ok.inj makes⟩
          next op _ relational =>
            exact ⟨.relational op, congrArg some (RelationalOp.symbol_of_ofSymbol? relational).symm,
              Except.ok.inj makes⟩
          next => cases makes

theorem map_eq_ok_iff {α β ε : Type} {outcome : Except ε α} {f : α → β} {result : β} :
    outcome.map f = .ok result ↔ ∃ value, outcome = .ok value ∧ f value = result := by
  cases outcome <;> simp [Except.map]

/-- A number that has been read makes the leaf of its token. -/
theorem leaf?_of_numberLeaf {token : Token} {tree : Expr} (isNumber : token.category = .number)
    (isRead : token.text? = none) (makes : numberLeaf token = .ok tree) :
    token.leaf? = some tree := by
  unfold numberLeaf at makes
  unfold Token.leaf?
  cases value : token.value with
  | text literal => simp [Token.text?, value] at isRead
  | int number =>
      rw [value] at makes
      rw [isNumber, ← Except.ok.inj makes]
  | float number =>
      rw [value] at makes
      rw [isNumber, ← Except.ok.inj makes]

/-- A token is taken if it stands for a node and the trees for its operands are there. -/
theorem reduceToken_eq_ok_iff {token : Token} {trees after : List Expr}
    (isRead : token.category = .number → token.text? = none) :
    reduceToken trees token = .ok after ↔ token.Reduces trees after := by
  constructor
  · intro takes
    unfold reduceToken at takes
    cases category : token.category with
    | number =>
        rw [category] at takes
        obtain ⟨leaf, makes, rfl⟩ := map_eq_ok_iff.mp takes
        exact .leaf (leaf?_of_numberLeaf category (isRead category) makes)
    | identifier =>
        rw [category] at takes
        rw [← Except.ok.inj takes]
        exact .leaf (by rw [Token.leaf?, category])
    | reserved =>
        rw [category] at takes
        dsimp only at takes
        split at takes
        case isFalse => cases takes
        case isTrue operator =>
          have isSign : ∀ {sign}, token.text? = some sign → token.IsSign sign := fun text =>
            ⟨category, of_decide_eq_true operator, Token.value_of_text? text⟩
          cases trees with
          | nil => cases takes
          | cons right rest =>
              dsimp only at takes
              by_cases isNot : token.text? = some "not"
              · rw [if_pos isNot] at takes
                obtain ⟨node, makes, rfl⟩ := map_eq_ok_iff.mp takes
                have same : .not right = node := by
                  simpa [operatorNode, isNot] using makes
                exact same ▸ .negation (isSign isNot)
              · rw [if_neg isNot] at takes
                cases rest with
                | nil => cases takes
                | cons left rest =>
                    obtain ⟨node, makes, rfl⟩ := map_eq_ok_iff.mp takes
                    obtain ⟨op, text, rfl⟩ := operatorNode_eq_ok isNot makes
                    exact .binary (isSign text)
  · intro reduces
    cases reduces with
    | leaf isLeaf => exact reduceToken_leaf isLeaf trees
    | negation isNot => exact reduceToken_negation isNot _ _
    | binary isSign => exact reduceToken_binary isSign _ _ _

/-! ## Whole sequences -/

/-- The parts of the trees on a stack, the bottom tree first. -/
def stackParts (trees : List Expr) : List Expr :=
  trees.reverse.flatMap Expr.parts

@[simp]
theorem stackParts_cons (tree : Expr) (trees : List Expr) :
    stackParts (tree :: trees) = stackParts trees ++ tree.parts := by
  simp [stackParts]

/-- A token adds its own root to the parts on the stack and leaves all others in place. -/
theorem Token.Reduces.stackParts_eq {token : Token} {trees after : List Expr}
    (reduces : token.Reduces trees after) :
    ∃ root, token.IsRootOf root ∧ stackParts after = stackParts trees ++ [root] := by
  cases reduces with
  | leaf isLeaf =>
      exact ⟨_, isRootOf_of_leaf? isLeaf, by rw [stackParts_cons, parts_of_leaf? isLeaf]⟩
  | @negation _ operand isNot => exact ⟨.not operand, isNot, by simp [Expr.parts]⟩
  | @binary _ left right op isSign =>
      exact ⟨op.node left right, isRootOf_node.mpr isSign, by simp⟩

/-- The tokens that were taken stand for the parts that came onto the stack. -/
theorem foldlM_reduceToken_eq_ok {tokens : List Token} {trees after : List Expr}
    (areRead : ∀ token ∈ tokens, token.category = .number → token.text? = none)
    (takes : tokens.foldlM reduceToken trees = .ok after) :
    ∃ parts, List.Forall₂ Token.IsRootOf tokens parts ∧
      stackParts after = stackParts trees ++ parts := by
  induction tokens generalizing trees with
  | nil =>
      cases takes
      exact ⟨[], .nil, (List.append_nil _).symm⟩
  | cons token tokens ih =>
      rw [List.foldlM_cons] at takes
      cases taken : reduceToken trees token with
      | error error =>
          rw [taken] at takes
          cases takes
      | ok middle =>
          rw [taken] at takes
          have isRead := areRead token List.mem_cons_self
          obtain ⟨root, isRoot, first⟩ := ((reduceToken_eq_ok_iff isRead).mp taken).stackParts_eq
          obtain ⟨parts, areRoots, rest⟩ :=
            ih (fun other member => areRead other (List.mem_cons_of_mem token member)) takes
          exact ⟨root :: parts, .cons isRoot areRoots, by simp [rest, first]⟩

/-- Tokens for two lists of parts are tokens for the first and then tokens for the second. -/
theorem exists_append_of_isRootOf {tokens : List Token} {first second : List Expr}
    (areRoots : List.Forall₂ Token.IsRootOf tokens (first ++ second)) :
    ∃ before behind, tokens = before ++ behind ∧ List.Forall₂ Token.IsRootOf before first ∧
      List.Forall₂ Token.IsRootOf behind second :=
  ⟨_, _, (List.take_append_drop first.length tokens).symm,
    List.forall₂_take_append tokens first second areRoots,
    List.forall₂_drop_append tokens first second areRoots⟩

theorem exists_singleton_of_isRootOf {tokens : List Token} {part : Expr}
    (areRoots : List.Forall₂ Token.IsRootOf tokens [part]) :
    ∃ token, tokens = [token] ∧ token.IsRootOf part := by
  obtain ⟨token, rest, isRoot, nothing, rfl⟩ := List.forall₂_cons_right_iff.mp areRoots
  exact ⟨token, by rw [List.forall₂_nil_right_iff.mp nothing], isRoot⟩

/-- The tokens of a tree put it onto the stack. -/
theorem SpellsPostorder.foldlM_reduceToken {tree : Expr} {tokens : List Token}
    (spells : SpellsPostorder tokens tree) (trees : List Expr) :
    tokens.foldlM reduceToken trees = .ok (tree :: trees) := by
  unfold SpellsPostorder at spells
  induction tree using Expr.nodeInduction generalizing tokens trees with
  | integer number =>
      obtain ⟨token, rfl, isLeaf⟩ := exists_singleton_of_isRootOf spells
      rw [List.foldlM_cons, reduceToken_leaf isLeaf]
      rfl
  | float number =>
      obtain ⟨token, rfl, isLeaf⟩ := exists_singleton_of_isRootOf spells
      rw [List.foldlM_cons, reduceToken_leaf isLeaf]
      rfl
  | var name =>
      obtain ⟨token, rfl, isLeaf⟩ := exists_singleton_of_isRootOf spells
      rw [List.foldlM_cons, reduceToken_leaf isLeaf]
      rfl
  | node op left right leftIh rightIh =>
      rw [Expr.parts_node] at spells
      obtain ⟨operands, last, rfl, ofOperands, ofRoot⟩ := exists_append_of_isRootOf spells
      obtain ⟨first, second, rfl, ofLeft, ofRight⟩ := exists_append_of_isRootOf ofOperands
      obtain ⟨token, rfl, isRoot⟩ := exists_singleton_of_isRootOf ofRoot
      have reduces := reduceToken_binary (Token.isRootOf_node.mp isRoot) left right trees
      calc (first ++ second ++ [token]).foldlM reduceToken trees
          = (second ++ [token]).foldlM reduceToken (left :: trees) := by
            rw [List.append_assoc, List.foldlM_append, leftIh ofLeft trees]
            rfl
        _ = [token].foldlM reduceToken (right :: left :: trees) := by
            rw [List.foldlM_append, rightIh ofRight (left :: trees)]
            rfl
        _ = .ok (op.node left right :: trees) := by
            rw [List.foldlM_cons, reduces]
            rfl
  | not operand ih =>
      obtain ⟨tokens, last, rfl, ofOperand, ofRoot⟩ := exists_append_of_isRootOf spells
      obtain ⟨token, rfl, isNot⟩ := exists_singleton_of_isRootOf ofRoot
      rw [List.foldlM_append, ih ofOperand trees]
      exact congrArg (· >>= pure) (reduceToken_negation isNot operand trees)

theorem SpellsPostorder.exprOfPostorder_eq {tree : Expr} {tokens : List Token}
    (spells : SpellsPostorder tokens tree) (following : Token) :
    exprOfPostorder following tokens = .ok tree := by
  rw [exprOfPostorder, spells.foldlM_reduceToken []]

/-- A tree is what is left on the stack, alone. -/
theorem foldlM_reduceToken_of_exprOfPostorder {following : Token} {tokens : List Token}
    {tree : Expr} (builds : exprOfPostorder following tokens = .ok tree) :
    tokens.foldlM reduceToken [] = .ok [tree] := by
  unfold exprOfPostorder at builds
  split at builds
  next => cases builds
  next => cases builds
  next reduced => rw [reduced, Except.ok.inj builds]
  next => cases builds

theorem spellsPostorder_of_exprOfPostorder {following : Token} {tokens : List Token}
    {tree : Expr} (areRead : ∀ token ∈ tokens, token.category = .number → token.text? = none)
    (builds : exprOfPostorder following tokens = .ok tree) : SpellsPostorder tokens tree := by
  have reduced := foldlM_reduceToken_of_exprOfPostorder builds
  obtain ⟨parts, areRoots, same⟩ := foldlM_reduceToken_eq_ok areRead reduced
  have sameParts : tree.parts = parts := by simpa [stackParts] using same
  rw [SpellsPostorder, sameParts]
  exact areRoots

/-- Postorder sequences and trees correspond to each other.  An expression in postorder
builds that expression, whatever the precedences and places of the tokens are.  Where all
numbers have been read, a sequence that builds an expression is that expression in postorder:
its tokens stand for the parts of the expression one by one, with the categories and the
texts that they have in the postorder of the expression.  So all sequences that build one
expression look alike. -/
theorem exprOfPostorder_inverts_postorder (following : Token) (tree : Expr) :
    exprOfPostorder following tree.postorder = .ok tree ∧
      (∀ tokens, SpellsPostorder tokens tree → exprOfPostorder following tokens = .ok tree) ∧
      (∀ tokens, (∀ token ∈ tokens, token.category = .number → token.text? = none) →
        exprOfPostorder following tokens = .ok tree →
          SpellsPostorder tokens tree ∧
            tokens.map Token.appearance = tree.postorder.map Token.appearance) ∧
      ∀ first second,
        (∀ token ∈ first ++ second, token.category = .number → token.text? = none) →
          exprOfPostorder following first = .ok tree →
            exprOfPostorder following second = .ok tree →
              first.map Token.appearance = second.map Token.appearance := by
  have spelled : ∀ {tokens}, (∀ token ∈ tokens, token.category = .number → token.text? = none) →
      exprOfPostorder following tokens = .ok tree → SpellsPostorder tokens tree :=
    fun areRead builds => spellsPostorder_of_exprOfPostorder areRead builds
  constructor
  · exact (spellsPostorder_postorder tree).exprOfPostorder_eq following
  constructor
  · intro tokens spells
    exact spells.exprOfPostorder_eq following
  constructor
  · intro tokens areRead builds
    exact ⟨spelled areRead builds, (spelled areRead builds).map_appearance⟩
  · intro first second areRead buildsFirst buildsSecond
    rw [List.forall_mem_append] at areRead
    rw [(spelled areRead.1 buildsFirst).map_appearance,
      (spelled areRead.2 buildsSecond).map_appearance]

/-- A number token of one digit with a precedence that means nothing. -/
def operandToken (digit : Int64) (offset : Nat) : Token where
  category := .number
  subcategory := none
  precedence := 7
  value := .int digit
  span := ⟨offset, 1⟩

/-- The difference `7 - 2`. -/
def difference : Expr :=
  .arithmetic .sub (.integer 7) (.integer 2)

/-- In postorder the operand that comes last is the right one, so with the operands the other
way round another tree is built. -/
theorem exprOfPostorder_difference :
    SpellsPostorder [operandToken 7 0, operandToken 2 2, signToken "-" 0 4] difference ∧
      exprOfPostorder (.endOfInput 5) [operandToken 2 0, operandToken 7 2, signToken "-" 0 4] ≠
        .ok difference := by
  obtain ⟨_, _, spelled, unique⟩ := exprOfPostorder_inverts_postorder (.endOfInput 5) difference
  have builds : exprOfPostorder (.endOfInput 5)
      [operandToken 7 0, operandToken 2 2, signToken "-" 0 4] = .ok difference := rfl
  constructor
  · exact (spelled _ (by decide) builds).1
  · intro swapped
    have same := unique _ _ (by decide) builds swapped
    simp [Token.appearance, operandToken, TokenValue.render] at same

end WhileLang
