import WhileLang.Proofs.Parsing.Acceptance
import WhileLang.Proofs.Syntax.Writing

/-!
# Source text and back

A well-formed program is what its source text spells: written out as words with single
spaces between them and parsed again, it is the same program.  In the other direction
every program without floats that some source spells is well-formed.
-/

namespace WhileLang

/-- The tokens are written as the words, one by one. -/
abbrev AreWrittenAs (tokens : List Token) (words : List String) : Prop :=
  List.Forall₂ (fun word token => Token.IsWrittenAs token word) words tokens

/-! ## Every word is read as a token -/

theorem isWord_of_mem_fixedWords {word : String}
    (isFixed : word ∈ Grammar.standard.fixedWords) : IsWord word := by
  rcases List.mem_map.mp isFixed with ⟨entry, listed, rfl⟩
  exact isWord_of_mem_fixedTokens listed

theorem BinaryOperator.symbol_mem_fixedWords (op : BinaryOperator) :
    op.symbol ∈ Grammar.standard.fixedWords := by
  have known : ∀ op ∈ all, op.symbol ∈ Grammar.standard.fixedWords := by decide
  exact known op op.mem_all

theorem Expr.isWord_of_mem_encloseIf {words : List String} {enclosed : Bool}
    (each : ∀ word ∈ words, IsWord word) : ∀ word ∈ encloseIf enclosed words, IsWord word := by
  intro word member
  cases enclosed with
  | false => exact each word member
  | true =>
      simp only [encloseIf, if_true, List.mem_cons, List.mem_append, List.not_mem_nil,
        or_false] at member
      rcases member with rfl | inner | rfl
      · exact isWord_of_mem_fixedWords (by decide)
      · exact each word inner
      · exact isWord_of_mem_fixedWords (by decide)

theorem Expr.IsWellFormed.isWord {tree : Expr} (wellFormed : tree.IsWellFormed) :
    ∀ word ∈ tree.words, IsWord word := by
  induction tree using Expr.nodeInduction with
  | integer number => simpa [words] using isWord_of_toString wellFormed
  | float number => exact wellFormed.elim
  | var name => simpa [words] using isWord_of_isName wellFormed
  | node op left right leftIh rightIh =>
      rw [isWellFormed_node] at wellFormed
      rw [words_node, wordsBetween]
      simp only [List.mem_append, List.mem_cons]
      rintro word (inLeft | rfl | inRight)
      · exact isWord_of_mem_encloseIf (leftIh wellFormed.1) word inLeft
      · exact isWord_of_mem_fixedWords op.symbol_mem_fixedWords
      · exact isWord_of_mem_encloseIf (rightIh wellFormed.2) word inRight
  | not operand ih =>
      simp only [words, List.mem_cons]
      rintro word (rfl | inner)
      · exact isWord_of_mem_fixedWords (by decide)
      · exact isWord_of_mem_encloseIf (ih wellFormed) word inner

mutual

theorem Stmt.isWord_of_mem_words :
    (statement : Stmt) → statement.IsWellFormed → ∀ word ∈ statement.words, IsWord word
  | .assign name value, wellFormed => by
      simp only [Stmt.words, List.mem_cons, List.mem_append, List.not_mem_nil, or_false]
      rintro word (rfl | rfl | inValue | rfl)
      · exact isWord_of_isName wellFormed.1
      · exact isWord_of_mem_fixedWords (by decide)
      · exact wellFormed.2.isWord word inValue
      · exact isWord_of_mem_fixedWords (by decide)
  | .ifThen condition thenBranch, wellFormed => by
      simp only [Stmt.words, List.mem_cons, List.mem_append, List.not_mem_nil, or_false]
      rintro word (rfl | inCondition | rfl | inThen | rfl)
      · exact isWord_of_mem_fixedWords (by decide)
      · exact wellFormed.1.isWord word inCondition
      · exact isWord_of_mem_fixedWords (by decide)
      · exact isWord_of_mem_blockWords thenBranch wellFormed.2 word inThen
      · exact isWord_of_mem_fixedWords (by decide)
  | .ifElse condition thenBranch elseBranch, wellFormed => by
      simp only [Stmt.words, List.mem_cons, List.mem_append, List.not_mem_nil, or_false]
      rintro word (rfl | inCondition | rfl | inThen | rfl | inElse | rfl)
      · exact isWord_of_mem_fixedWords (by decide)
      · exact wellFormed.1.isWord word inCondition
      · exact isWord_of_mem_fixedWords (by decide)
      · exact isWord_of_mem_blockWords thenBranch wellFormed.2.1 word inThen
      · exact isWord_of_mem_fixedWords (by decide)
      · exact isWord_of_mem_blockWords elseBranch wellFormed.2.2 word inElse
      · exact isWord_of_mem_fixedWords (by decide)
  | .whileDo condition body, wellFormed => by
      simp only [Stmt.words, List.mem_cons, List.mem_append, List.not_mem_nil, or_false]
      rintro word (rfl | inCondition | rfl | inBody | rfl)
      · exact isWord_of_mem_fixedWords (by decide)
      · exact wellFormed.1.isWord word inCondition
      · exact isWord_of_mem_fixedWords (by decide)
      · exact isWord_of_mem_blockWords body wellFormed.2 word inBody
      · exact isWord_of_mem_fixedWords (by decide)
  | .print value, wellFormed => by
      have wellFormed : value.IsWellFormed := wellFormed
      simp only [Stmt.words, List.mem_cons, List.mem_append, List.not_mem_nil, or_false]
      rintro word (rfl | inValue | rfl)
      · exact isWord_of_mem_fixedWords (by decide)
      · exact wellFormed.isWord word inValue
      · exact isWord_of_mem_fixedWords (by decide)
  | .expression value, wellFormed => by
      simp only [Stmt.words, List.mem_cons, List.mem_append, List.not_mem_nil, or_false]
      rintro word (inValue | rfl)
      · exact wellFormed.1.isWord word inValue
      · exact isWord_of_mem_fixedWords (by decide)

/-- Every word of a well-formed block is read as a token. -/
theorem isWord_of_mem_blockWords :
    (block : List Stmt) → BlockIsWellFormed block → ∀ word ∈ blockWords block, IsWord word
  | [], _ => by simp [blockWords]
  | statement :: rest, wellFormed => by
      simp only [blockWords, List.mem_append]
      rintro word (first | later)
      · exact statement.isWord_of_mem_words wellFormed.1 word first
      · exact isWord_of_mem_blockWords rest wellFormed.2 word later

end

/-! ## The words of a program spell it -/

namespace AreWrittenAs

theorem of_cons {word : String} {words : List String} {tokens : List Token}
    (written : AreWrittenAs tokens (word :: words)) :
    ∃ token rest, tokens = token :: rest ∧ token.IsWrittenAs word ∧ AreWrittenAs rest words := by
  cases written with
  | cons first rest => exact ⟨_, _, rfl, first, rest⟩

theorem of_append {first second : List String} {tokens : List Token}
    (written : AreWrittenAs tokens (first ++ second)) :
    ∃ before after, tokens = before ++ after ∧ AreWrittenAs before first ∧
      AreWrittenAs after second := by
  induction first generalizing tokens with
  | nil => exact ⟨[], tokens, rfl, .nil, written⟩
  | cons word words ih =>
      rcases of_cons written with ⟨token, rest, rfl, isFirst, isRest⟩
      rcases ih isRest with ⟨before, after, rfl, isBefore, isAfter⟩
      exact ⟨token :: before, after, rfl, .cons isFirst isBefore, isAfter⟩

theorem of_fixed_cons {word : String} {words : List String} {tokens : List Token}
    (written : AreWrittenAs tokens (word :: words))
    (isFixed : word ∈ Grammar.standard.fixedWords) :
    ∃ token rest, tokens = token :: rest ∧ token.Is word ∧ AreWrittenAs rest words := by
  rcases of_cons written with ⟨token, rest, rfl, first, isRest⟩
  exact ⟨token, rest, rfl, first.is isFixed, isRest⟩

theorem of_fixed {word : String} {tokens : List Token} (written : AreWrittenAs tokens [word])
    (isFixed : word ∈ Grammar.standard.fixedWords) :
    ∃ token, tokens = [token] ∧ token.Is word := by
  rcases of_fixed_cons written isFixed with ⟨token, rest, rfl, is, isRest⟩
  cases isRest
  exact ⟨token, rfl, is⟩

end AreWrittenAs

theorem Token.IsWrittenAs.leaf?_of_isName {token : Token} {name : String}
    (written : token.IsWrittenAs name) (isName : IsName name) :
    token.leaf? = some (.var name) := by
  obtain ⟨value, isClass⟩ := written.of_isName isName
  simp [Token.leaf?, isClass, nameClass, value, TokenValue.render]

theorem Token.IsWrittenAs.leaf?_of_toString {token : Token} {number : Int64}
    (written : token.IsWrittenAs (toString number.toInt)) (nonnegative : 0 ≤ number.toInt) :
    token.leaf? = some (.integer number) := by
  obtain ⟨value, isClass⟩ := written.of_toString nonnegative
  simp [Token.leaf?, isClass, integerClass, value]

namespace Expr

/-- The words of a whole expression spell it at every level that its top operator
exceeds. -/
def WordsSpell (tree : Expr) : Prop :=
  ∀ (tokens : List Token) (level : Nat), AreWrittenAs tokens tree.words →
    (∀ op, tree.operator? = some op → level < op.precedence) →
      SpellsExpr level tree.isNegation tokens tree

/-- An operand is spelled with or without parentheses, if it is given them where it has
to. -/
theorem WordsSpell.operand {tree : Expr} (spell : tree.WordsSpell) {enclosed : Bool}
    {tokens : List Token} {level : Nat}
    (written : AreWrittenAs tokens (encloseIf enclosed tree.words))
    (bare : enclosed = false → tree.isNegation = false ∧
      ∀ op, tree.operator? = some op → level < op.precedence) :
    SpellsExpr level false tokens tree := by
  cases enclosed with
  | false =>
      obtain ⟨notNegation, exceeds⟩ := bare rfl
      have spells := spell tokens level written exceeds
      rwa [notNegation] at spells
  | true =>
      rcases written.of_fixed_cons (by decide) with ⟨opening, _, rfl, opens, isRest⟩
      rcases AreWrittenAs.of_append isRest with ⟨inner, _, rfl, isInner, isClosing⟩
      rcases isClosing.of_fixed (by decide) with ⟨closing, rfl, closes⟩
      exact .group opens (spell _ _ isInner fun op _ => op.precedence_pos) closes

/-- What is not enclosed on the right of an operator is a leaf. -/
theorem of_isCompound_eq_false {tree : Expr} (isLeaf : tree.isCompound = false) (level : Nat) :
    tree.isNegation = false ∧ ∀ op, tree.operator? = some op → level < op.precedence := by
  simp only [isCompound, Bool.or_eq_false_iff] at isLeaf
  constructor
  · exact isLeaf.1
  · intro op isOperator
    simp [isOperator] at isLeaf

/-- What is not enclosed on the left of an operator binds at least as tightly. -/
theorem yieldsTo_eq_false_iff {tree : Expr} {op : BinaryOperator} :
    tree.yieldsTo op = false ↔ tree.isNegation = false ∧
      ∀ inner, tree.operator? = some inner → op.precedence - 1 < inner.precedence := by
  have positive := op.precedence_pos
  simp only [yieldsTo, Bool.or_eq_false_iff]
  cases tree.operator? with
  | none => simp
  | some inner =>
      simp only [Option.any_some, decide_eq_false_iff_not, Option.some.injEq, forall_eq']
      constructor
      · rintro ⟨notNegation, notLower⟩
        exact ⟨notNegation, by omega⟩
      · rintro ⟨notNegation, above⟩
        exact ⟨notNegation, by omega⟩

theorem IsWellFormed.wordsSpell {tree : Expr} (wellFormed : tree.IsWellFormed) :
    tree.WordsSpell := by
  induction tree using Expr.nodeInduction with
  | integer number =>
      intro tokens level written _
      rcases written.of_cons with ⟨token, _, rfl, first, isRest⟩
      cases isRest
      exact .leaf (first.leaf?_of_toString wellFormed)
  | float number => exact wellFormed.elim
  | var name =>
      intro tokens level written _
      rcases written.of_cons with ⟨token, _, rfl, first, isRest⟩
      cases isRest
      exact .leaf (first.leaf?_of_isName wellFormed)
  | node op left right leftIh rightIh =>
      intro tokens level written exceeds
      rw [isWellFormed_node] at wellFormed
      rw [words_node, wordsBetween] at written
      rcases AreWrittenAs.of_append written with ⟨leftTokens, _, rfl, isLeft, isRest⟩
      rcases AreWrittenAs.of_fixed_cons isRest op.symbol_mem_fixedWords with
        ⟨sign, rightTokens, rfl, isOperator, isRight⟩
      have leftSpells := (leftIh wellFormed.1).operand isLeft yieldsTo_eq_false_iff.mp
      have rightSpells := (rightIh wellFormed.2).operand isRight fun isLeaf =>
        of_isCompound_eq_false isLeaf op.precedence
      rw [isNegation_node]
      exact .binary leftSpells isOperator rightSpells (exceeds op (operator?_node op left right))
        (by simp)
  | not operand ih =>
      intro tokens level written _
      rcases AreWrittenAs.of_fixed_cons written (by decide) with ⟨sign, rest, rfl, isNot, isRest⟩
      exact .negation isNot ((ih wellFormed).operand isRest fun isLeaf =>
        of_isCompound_eq_false isLeaf negationPrecedence)

/-- The words of an expression spell it. -/
theorem IsWellFormed.isExpr {tree : Expr} (wellFormed : tree.IsWellFormed) {tokens : List Token}
    (written : AreWrittenAs tokens tree.words) : IsExpr tokens tree :=
  ⟨_, wellFormed.wordsSpell tokens 0 written fun op _ => op.precedence_pos⟩

end Expr

mutual

/-- The words of a statement spell it. -/
theorem Stmt.spellsStmt_of_isWellFormed : (statement : Stmt) → statement.IsWellFormed →
    ∀ tokens, AreWrittenAs tokens statement.words → SpellsStmt tokens statement
  | .assign name value, wellFormed, _, written => by
      rcases written.of_cons with ⟨nameToken, _, rfl, isName, isRest⟩
      rcases isRest.of_fixed_cons (by decide) with ⟨sign, _, rfl, isSign, isRest⟩
      rcases isRest.of_append with ⟨inner, _, rfl, isInner, isLast⟩
      rcases isLast.of_fixed (by decide) with ⟨semicolon, rfl, ends⟩
      obtain ⟨text, isClass⟩ := isName.of_isName wellFormed.1
      have spells := SpellsStmt.assign (congrArg TokenClass.category isClass) isSign
        (wellFormed.2.isExpr isInner) ends
      rwa [text] at spells
  | .ifThen condition thenBranch, wellFormed, _, written => by
      rcases written.of_fixed_cons (by decide) with ⟨if_, _, rfl, isIf, isRest⟩
      rcases isRest.of_append with ⟨conditionTokens, _, rfl, isCondition, isRest⟩
      rcases isRest.of_fixed_cons (by decide) with ⟨then_, _, rfl, isThen, isRest⟩
      rcases isRest.of_append with ⟨thenTokens, _, rfl, isThenBranch, isLast⟩
      rcases isLast.of_fixed (by decide) with ⟨done, rfl, isDone⟩
      exact .ifThen isIf (wellFormed.1.isExpr isCondition) isThen
        (spellsBlock_of_isWellFormed thenBranch wellFormed.2 _ isThenBranch) isDone
  | .ifElse condition thenBranch elseBranch, wellFormed, _, written => by
      rcases written.of_fixed_cons (by decide) with ⟨if_, _, rfl, isIf, isRest⟩
      rcases isRest.of_append with ⟨conditionTokens, _, rfl, isCondition, isRest⟩
      rcases isRest.of_fixed_cons (by decide) with ⟨then_, _, rfl, isThen, isRest⟩
      rcases isRest.of_append with ⟨thenTokens, _, rfl, isThenBranch, isRest⟩
      rcases isRest.of_fixed_cons (by decide) with ⟨else_, _, rfl, isElse, isRest⟩
      rcases isRest.of_append with ⟨elseTokens, _, rfl, isElseBranch, isLast⟩
      rcases isLast.of_fixed (by decide) with ⟨done, rfl, isDone⟩
      exact .ifElse isIf (wellFormed.1.isExpr isCondition) isThen
        (spellsBlock_of_isWellFormed thenBranch wellFormed.2.1 _ isThenBranch) isElse
        (spellsBlock_of_isWellFormed elseBranch wellFormed.2.2 _ isElseBranch) isDone
  | .whileDo condition body, wellFormed, _, written => by
      rcases written.of_fixed_cons (by decide) with ⟨while_, _, rfl, isWhile, isRest⟩
      rcases isRest.of_append with ⟨conditionTokens, _, rfl, isCondition, isRest⟩
      rcases isRest.of_fixed_cons (by decide) with ⟨do_, _, rfl, isDo, isRest⟩
      rcases isRest.of_append with ⟨bodyTokens, _, rfl, isBody, isLast⟩
      rcases isLast.of_fixed (by decide) with ⟨done, rfl, isDone⟩
      exact .whileDo isWhile (wellFormed.1.isExpr isCondition) isDo
        (spellsBlock_of_isWellFormed body wellFormed.2 _ isBody) isDone
  | .print value, wellFormed, _, written => by
      have wellFormed : value.IsWellFormed := wellFormed
      rcases written.of_fixed_cons (by decide) with ⟨print_, _, rfl, isPrint, isRest⟩
      rcases isRest.of_append with ⟨inner, _, rfl, isInner, isLast⟩
      rcases isLast.of_fixed (by decide) with ⟨semicolon, rfl, ends⟩
      exact .print isPrint (wellFormed.isExpr isInner) ends
  | .expression value, wellFormed, _, written => by
      rcases wellFormed with ⟨isValue, name, words, sameWords, isName⟩
      rcases AreWrittenAs.of_append written with ⟨inner, _, rfl, isInner, isLast⟩
      rcases isLast.of_fixed (by decide) with ⟨semicolon, rfl, ends⟩
      have spells := isValue.isExpr isInner
      rw [sameWords] at isInner
      rcases isInner.of_cons with ⟨nameToken, rest, rfl, first, _⟩
      exact .expression (congrArg TokenClass.category (first.of_isName isName).2) spells ends

/-- The words of a block spell it. -/
theorem spellsBlock_of_isWellFormed : (block : List Stmt) → BlockIsWellFormed block →
    ∀ tokens, AreWrittenAs tokens (blockWords block) → SpellsBlock tokens block
  | [], _, _, written => by
      cases written
      exact .nil
  | statement :: rest, wellFormed, _, written => by
      rcases AreWrittenAs.of_append written with ⟨first, others, rfl, isFirst, isRest⟩
      exact .cons (statement.spellsStmt_of_isWellFormed wellFormed.1 first isFirst)
        (spellsBlock_of_isWellFormed rest wellFormed.2 others isRest)

end

/-- A source spells the program that its tokens are parsed to. -/
theorem Source.parse_eq_ok_iff {source : Source} {program : Block} :
    source.parse = .ok program ↔ ∃ tokens, Grammar.standard.tokenize source.text = .ok tokens ∧
      parseTokens tokens source.size = .ok program := by
  unfold parse parseWith
  cases Grammar.standard.tokenize source.text with
  | error error => simp
  | ok tokens =>
      cases outcome : parseTokens tokens source.size with
      | error error => simp [outcome]
      | ok parsed => simp [outcome]

/-- A well-formed program is what its source text spells. -/
theorem BlockIsWellFormed.parse_eq {program : Block} (wellFormed : BlockIsWellFormed program)
    {source : Source} (isText : source.text = Block.sourceText program) :
    source.parse = .ok program := by
  obtain ⟨tokens, offset, lexes, written⟩ :=
    Grammar.tokenize_intercalate (isWord_of_mem_blockWords program wellFormed)
  apply Source.parse_eq_ok_iff.mpr
  refine ⟨tokens ++ [.endOfInput offset], by rwa [isText], ?_⟩
  apply (spellsBlock_of_isWellFormed program wellFormed tokens written).parseTokens_eq
  intro token member
  obtain ⟨word, _, isWritten⟩ := exists_of_mem_forall₂ written member
  exact isWritten.isStandard.isRegular

/-! ## What is parsed is well-formed -/

/-- A leaf that is a token of the language is a float or well-formed. -/
theorem Token.IsStandard.isWellFormed_leaf {token : Token} {tree : Expr}
    (isStandard : token.IsStandard) (isLeaf : token.leaf? = some tree)
    (floatFree : tree.IsFloatFree) : tree.IsWellFormed := by
  cases isStandard with
  | fixed value listed =>
      have reserved : ∀ entry ∈ Grammar.standard.fixedTokens, entry.2.category = .reserved := by
        decide
      have category : token.category = .reserved := reserved _ listed
      simp [Token.leaf?, category] at isLeaf
  | name value isName isClass =>
      simp only [Token.leaf?, isClass, nameClass, value, Option.some.injEq] at isLeaf
      subst isLeaf
      exact isName
  | integer value nonnegative isClass =>
      simp only [Token.leaf?, isClass, integerClass, value, Option.some.injEq] at isLeaf
      subst isLeaf
      exact nonnegative
  | float value isClass =>
      simp only [Token.leaf?, isClass, floatClass, value, Option.some.injEq] at isLeaf
      subst isLeaf
      exact floatFree.elim

theorem SpellsExpr.isWellFormed {level : Nat} {endsNegated : Bool} {tokens : List Token}
    {tree : Expr} (spells : SpellsExpr level endsNegated tokens tree)
    (standard : ∀ token ∈ tokens, token.IsStandard) (floatFree : tree.IsFloatFree) :
    tree.IsWellFormed := by
  induction spells with
  | leaf isLeaf => exact (standard _ List.mem_cons_self).isWellFormed_leaf isLeaf floatFree
  | group _ _ _ ih =>
      apply ih _ floatFree
      intro token member
      exact standard token (by simp [member])
  | negation _ _ ih =>
      apply ih _ floatFree
      intro token member
      exact standard token (by simp [member])
  | @binary _ _ _ op _ _ _ left right _ _ _ _ _ leftIh rightIh =>
      rw [Expr.isFloatFree_node] at floatFree
      rw [Expr.isWellFormed_node]
      constructor
      · apply leftIh _ floatFree.1
        intro token member
        exact standard token (by simp [member])
      · apply rightIh _ floatFree.2
        intro token member
        exact standard token (by simp [member])

/-- An expression that begins with an identifier is written with a name as its first
word.  For no parenthesis comes before the identifier, so along the left operands the
precedences do not fall, and none of these operands is enclosed when it is written. -/
theorem SpellsExpr.words_of_identifier {level : Nat} {endsNegated : Bool} {tokens : List Token}
    {tree : Expr} (spells : SpellsExpr level endsNegated tokens tree) :
    ∀ {name rest}, tokens = name :: rest → name.IsStandard → name.category = .identifier →
      (∃ text words, tree.words = text :: words ∧ IsName text) ∧ tree.isNegation = false ∧
        ∀ op, tree.operator? = some op → level < op.precedence := by
  induction spells with
  | leaf isLeaf =>
      intro name rest same isStandard isIdentifier
      obtain ⟨rfl, rfl⟩ := List.cons.inj same
      rw [Token.leaf?_of_identifier isIdentifier, Option.some.injEq] at isLeaf
      subst isLeaf
      have isName : IsName _ := isStandard.isWellFormed_leaf
        (Token.leaf?_of_identifier isIdentifier) trivial
      exact ⟨⟨_, [], rfl, isName⟩, rfl, by simp [Expr.operator?]⟩
  | group opens _ _ _ =>
      intro name rest same _ isIdentifier
      obtain ⟨rfl, _⟩ := List.cons.inj same
      simp [(Token.is_iff.mp opens).1] at isIdentifier
  | negation isNot _ _ =>
      intro name rest same _ isIdentifier
      obtain ⟨rfl, _⟩ := List.cons.inj same
      simp [(Token.is_iff.mp isNot).1] at isIdentifier
  | @binary level _ _ op _ leftTokens _ left right leftOperand _ _ exceeds _ leftIh _ =>
      intro name rest same isStandard isIdentifier
      cases leftTokens with
      | nil => exact absurd rfl leftOperand.ne_nil
      | cons first others =>
          obtain ⟨rfl, _⟩ := List.cons.inj same
          obtain ⟨⟨text, words, leftWords, isName⟩, notNegation, above⟩ :=
            leftIh rfl isStandard isIdentifier
          have bare : left.yieldsTo op = false :=
            Expr.yieldsTo_eq_false_iff.mpr ⟨notNegation, above⟩
          have wholeWords : (op.node left right).words = text :: (words ++
              op.symbol :: Expr.encloseIf right.isCompound right.words) := by
            rw [Expr.words_node, Expr.wordsBetween, bare, leftWords]
            rfl
          exact ⟨⟨text, _, wholeWords, isName⟩, Expr.isNegation_node op left right,
            by simpa using exceeds⟩

theorem IsExpr.isWellFormed {tokens : List Token} {tree : Expr} (isExpr : IsExpr tokens tree)
    (standard : ∀ token ∈ tokens, token.IsStandard) (floatFree : tree.IsFloatFree) :
    tree.IsWellFormed := by
  rcases isExpr with ⟨_, spells⟩
  exact spells.isWellFormed standard floatFree

mutual

theorem SpellsStmt.isWellFormed {tokens : List Token} {statement : Stmt} :
    SpellsStmt tokens statement → (∀ token ∈ tokens, token.IsStandard) →
      statement.IsFloatFree → statement.IsWellFormed
  | .assign isIdentifier _ isValue _, standard, floatFree => by
      simp only [List.forall_mem_cons, List.forall_mem_append] at standard
      rcases standard with ⟨ofName, _, ofValue, _⟩
      constructor
      · exact ofName.isWellFormed_leaf (Token.leaf?_of_identifier isIdentifier) trivial
      · exact isValue.isWellFormed ofValue floatFree
  | .ifThen _ isCondition _ isThenBranch _, standard, floatFree => by
      simp only [List.forall_mem_cons, List.forall_mem_append] at standard
      rcases standard with ⟨_, ofCondition, _, ofThen, _⟩
      constructor
      · exact isCondition.isWellFormed ofCondition floatFree.1
      · exact isThenBranch.isWellFormed ofThen floatFree.2
  | .ifElse _ isCondition _ isThenBranch _ isElseBranch _, standard, floatFree => by
      simp only [List.forall_mem_cons, List.forall_mem_append] at standard
      rcases standard with ⟨_, ofCondition, _, ofThen, _, ofElse, _⟩
      constructor
      · exact isCondition.isWellFormed ofCondition floatFree.1
      · constructor
        · exact isThenBranch.isWellFormed ofThen floatFree.2.1
        · exact isElseBranch.isWellFormed ofElse floatFree.2.2
  | .whileDo _ isCondition _ isBody _, standard, floatFree => by
      simp only [List.forall_mem_cons, List.forall_mem_append] at standard
      rcases standard with ⟨_, ofCondition, _, ofBody, _⟩
      constructor
      · exact isCondition.isWellFormed ofCondition floatFree.1
      · exact isBody.isWellFormed ofBody floatFree.2
  | .print _ isValue _, standard, floatFree => by
      simp only [List.forall_mem_cons, List.forall_mem_append] at standard
      rcases standard with ⟨_, ofValue, _⟩
      have wellFormed : Expr.IsWellFormed _ := isValue.isWellFormed ofValue floatFree
      exact wellFormed
  | .expression isIdentifier isValue _, standard, floatFree => by
      simp only [List.forall_mem_cons, List.forall_mem_append] at standard
      rcases standard with ⟨ofName, ofRest, _⟩
      constructor
      · exact isValue.isWellFormed (List.forall_mem_cons.mpr ⟨ofName, ofRest⟩) floatFree
      · rcases isValue with ⟨_, spells⟩
        exact (spells.words_of_identifier rfl ofName isIdentifier).1

/-- What spells a block spells a well-formed one, unless there are floats. -/
theorem SpellsBlock.isWellFormed {tokens : List Token} {block : List Stmt} :
    SpellsBlock tokens block → (∀ token ∈ tokens, token.IsStandard) →
      BlockIsFloatFree block → BlockIsWellFormed block
  | .nil, _, _ => trivial
  | .cons isStatement isBlock, standard, floatFree => by
      rw [List.forall_mem_append] at standard
      constructor
      · exact isStatement.isWellFormed standard.1 floatFree.1
      · exact isBlock.isWellFormed standard.2 floatFree.2

end

/-- Source text holds exactly the well-formed programs, as far as there are no floats in
them.  A well-formed program is what its own source text spells, and a program without
floats that some source spells is well-formed. -/
theorem parse_sourceText_and_isWellFormed_of_parse :
    (∀ (program : Block) (name? : Option String), BlockIsWellFormed program →
        (Source.ofText name? (Block.sourceText program)).parse = .ok program) ∧
      ∀ (source : Source) (program : Block), source.parse = .ok program →
        BlockIsFloatFree program → BlockIsWellFormed program := by
  constructor
  · intro program name? wellFormed
    exact wellFormed.parse_eq rfl
  · intro source program parses floatFree
    rcases Source.parse_eq_ok_iff.mp parses with ⟨tokens, lexes, parses⟩
    rcases Token.isStandard_of_tokenize lexes with ⟨words, mark, rfl, standard⟩
    have isBlock := spellsBlock_of_parseTokens parses
      (fun token member => (standard token member).isRegular)
      (fun token member => (standard token member).isEnd_eq_false)
    exact isBlock.isWellFormed standard floatFree

/-- A loop whose condition and body have operands with and without parentheses. -/
def countdown : Block :=
  [.whileDo (.not (.relational .eq (.var "n") (.integer 0)))
    [.assign "n" (.arithmetic .sub (.arithmetic .sub (.var "n") (.integer 3))
      (.arithmetic .sub (.integer 2) (.var "n")))]]

example : Block.sourceText countdown =
    "while not ( n == 0 ) do n := n - 3 - ( 2 - n ) ; done" := by decide

/-- The loop is what its text spells, and a source that is laid out in another way spells a
well-formed program too. -/
theorem parse_sourceText_countdown :
    (BlockIsWellFormed countdown ∧
        (Source.ofText none (Block.sourceText countdown)).parse = .ok countdown) ∧
      (Source.ofText none "n%(m)# the rest\n;").parse =
          .ok [.expression (.arithmetic .rem (.var "n") (.var "m"))] ∧
        BlockIsFloatFree [.expression (.arithmetic .rem (.var "n") (.var "m"))] ∧
          BlockIsWellFormed [.expression (.arithmetic .rem (.var "n") (.var "m"))] := by
  have isName : IsName "n" := by decide
  have wellFormed : BlockIsWellFormed countdown :=
    ⟨⟨⟨isName, show 0 ≤ (0 : Int64).toInt by decide⟩,
      ⟨isName, ⟨isName, show 0 ≤ (3 : Int64).toInt by decide⟩,
        show 0 ≤ (2 : Int64).toInt by decide, isName⟩, trivial⟩, trivial⟩
  have lexes : Grammar.standard.tokenize "n%(m)# the rest\n;" =
      .ok [nameToken "n" 0, signToken "%" 4 1, signToken "(" 9 2, nameToken "m" 3,
        signToken ")" 0 4, symbolToken ";" 16, .endOfInput 17] := by decide +kernel
  have parses : (Source.ofText none "n%(m)# the rest\n;").parse =
      .ok [.expression (.arithmetic .rem (.var "n") (.var "m"))] :=
    Source.parse_eq_ok_iff.mpr ⟨_, lexes, rfl⟩
  have floatFree : BlockIsFloatFree [.expression (.arithmetic .rem (.var "n") (.var "m"))] :=
    ⟨⟨trivial, trivial⟩, trivial⟩
  exact ⟨⟨wellFormed, parse_sourceText_and_isWellFormed_of_parse.1 countdown none wellFormed⟩,
    parses, floatFree, parse_sourceText_and_isWellFormed_of_parse.2 _ _ parses floatFree⟩

end WhileLang
