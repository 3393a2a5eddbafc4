import WhileLang.Program
import WhileLang.Proofs.Parsing.Recognition

/-!
# The parser accepts the grammar

What the grammar derives is read: a phrase at the cursor is passed over as a whole and
what it spells is returned, whatever stands behind it, as long as that does not go on
with the phrase.  With the converse, that only phrases are read, the parser accepts
exactly the token lists that spell a block.
-/

namespace WhileLang

/-- A word that begins no statement. -/
theorem Token.Is.not_beginsStatement {token : Token} {text : String} (is : token.Is text)
    (other : text ≠ "if" ∧ text ≠ "while" ∧ text ≠ "print") : ¬token.BeginsStatement := by
  rcases other with ⟨notIf, notWhile, notPrint⟩
  rintro (isIf | isWhile | isName | isPrint)
  · exact notIf (is.unique isIf)
  · exact notWhile (is.unique isWhile)
  · rw [accepts_identifier_iff, (is_iff.mp is).1] at isName
    cases isName
  · exact notPrint (is.unique isPrint)

theorem Token.not_beginsStatement_of_isEnd {token : Token} (isEnd : token.isEnd) :
    ¬token.BeginsStatement := by
  simp [BeginsStatement, Terminal.accepts, isEnd]

namespace Parser

/-! ## Steps of a successful run -/

theorem expect_reserved_eq {text : String} {cursor : Cursor} (is : cursor.current.Is text) :
    expect (.reserved text) cursor = .ok cursor.current cursor.advance :=
  expect_eq_ok_iff.mpr ⟨is, rfl, rfl⟩

theorem statement?_of_is_if {cursor : Cursor} (isIf : cursor.current.Is "if")
    (block : Parser Block) :
    statement? block cursor = (some <$> conditional block) cursor.advance := by
  rcases Token.is_iff.mp isIf with ⟨category, notEnd, text⟩
  simp [statement?_apply, Terminal.accepts, category, notEnd, text]

theorem statement?_of_is_while {cursor : Cursor} (isWhile : cursor.current.Is "while")
    (block : Parser Block) :
    statement? block cursor = (some <$> loop block) cursor.advance := by
  rcases Token.is_iff.mp isWhile with ⟨category, notEnd, text⟩
  simp [statement?_apply, Terminal.accepts, category, notEnd, text]

theorem statement?_of_is_print {cursor : Cursor} (isPrint : cursor.current.Is "print")
    (block : Parser Block) :
    statement? block cursor = (some <$> printStatement) cursor.advance := by
  rcases Token.is_iff.mp isPrint with ⟨category, notEnd, text⟩
  simp [statement?_apply, Terminal.accepts, category, notEnd, text]

theorem statement?_of_identifier {cursor : Cursor}
    (isName : cursor.current.category = .identifier) (block : Parser Block) :
    statement? block cursor = (some <$> named) cursor := by
  have notEnd := Token.isEnd_eq_false_of_identifier isName
  simp [statement?_apply, Terminal.accepts, isName, notEnd]

theorem statement?_of_not_begins {cursor : Cursor} (notBegins : ¬cursor.current.BeginsStatement)
    (block : Parser Block) : statement? block cursor = .ok none cursor := by
  rcases statement?_cases cursor with ⟨_, same⟩ | ⟨accepts, _⟩ | ⟨accepts, _⟩ | ⟨accepts, _⟩ |
    ⟨accepts, _⟩
  · exact same block
  · exact absurd (.inl accepts) notBegins
  · exact absurd (.inr (.inl accepts)) notBegins
  · exact absurd (.inr (.inr (.inl accepts))) notBegins
  · exact absurd (.inr (.inr (.inr accepts))) notBegins

/-- An expression that the sign for the end of a statement follows. -/
theorem ended_eq (make : Expr → Stmt) {value : Expr} {cursor atEnd : Cursor}
    (reads : expression cursor = .ok value atEnd) (ends : atEnd.current.Is ";") :
    (do let value ← expression
        let _ ← expect (.reserved ";")
        return make value : Parser Stmt) cursor = .ok (make value) atEnd.advance := by
  simp only [bind_apply, reads, expect_reserved_eq ends, pure_apply]

theorem loop_eq {block : Parser Block} {condition : Expr} {body : Block}
    {cursor atDo atDone : Cursor} (readsCondition : expression cursor = .ok condition atDo)
    (isDo : atDo.current.Is "do") (readsBody : block atDo.advance = .ok body atDone)
    (isDone : atDone.current.Is "done") :
    loop block cursor = .ok (.whileDo condition body) atDone.advance := by
  simp only [loop, bind_apply, readsCondition, expect_reserved_eq isDo, readsBody,
    expect_reserved_eq isDone, pure_apply]

theorem conditional_eq_ifThen {block : Parser Block} {condition : Expr} {thenBranch : Block}
    {cursor atThen atDone : Cursor} (readsCondition : expression cursor = .ok condition atThen)
    (isThen : atThen.current.Is "then") (readsThen : block atThen.advance = .ok thenBranch atDone)
    (isDone : atDone.current.Is "done") :
    conditional block cursor = .ok (.ifThen condition thenBranch) atDone.advance := by
  have noElse : (Terminal.reserved "else").accepts atDone.current = false := by
    by_contra sees
    have isElse : atDone.current.Is "else" := (Bool.not_eq_false _).mp sees
    exact absurd (isDone.unique isElse) (by decide)
  simp only [conditional, bind_apply, readsCondition, expect_reserved_eq isThen, readsThen,
    sees_apply, ite_apply, noElse, Bool.false_eq_true, if_false, expect_reserved_eq isDone,
    pure_apply]

theorem conditional_eq_ifElse {block : Parser Block} {condition : Expr}
    {thenBranch elseBranch : Block} {cursor atThen atElse atDone : Cursor}
    (readsCondition : expression cursor = .ok condition atThen)
    (isThen : atThen.current.Is "then") (readsThen : block atThen.advance = .ok thenBranch atElse)
    (isElse : atElse.current.Is "else") (readsElse : block atElse.advance = .ok elseBranch atDone)
    (isDone : atDone.current.Is "done") :
    conditional block cursor = .ok (.ifElse condition thenBranch elseBranch) atDone.advance := by
  have sees : (Terminal.reserved "else").accepts atElse.current = true := isElse
  simp only [conditional, bind_apply, readsCondition, expect_reserved_eq isThen, readsThen,
    sees_apply, ite_apply, sees, if_true, skip_apply, readsElse, expect_reserved_eq isDone,
    pure_apply]

theorem assignment_eq {value : Expr} {cursor atEnd : Cursor}
    (isName : cursor.current.category = .identifier) (isSign : cursor.advance.current.Is ":=")
    (reads : expression cursor.advance.advance = .ok value atEnd) (ends : atEnd.current.Is ";") :
    assignment cursor = .ok (.assign cursor.current.value.render value) atEnd.advance := by
  have accepts := Token.accepts_identifier_iff.mpr isName
  have name : expect (.ofCategory .identifier) cursor = .ok cursor.current cursor.advance :=
    expect_eq_ok_iff.mpr ⟨accepts, rfl, rfl⟩
  simp only [assignment, bind_apply, name, expect_reserved_eq isSign, reads,
    expect_reserved_eq ends, pure_apply]

end Parser

/-- Behind the first token of an expression statement there is no sign of assignment. -/
theorem IsExpr.not_is_assign_behind {name : Token} {tokens : List Token} {value : Expr}
    (isValue : IsExpr (name :: tokens) value) {cursor atEnd : Cursor}
    (passes : cursor.Passes tokens atEnd) (ends : atEnd.current.Is ";") :
    ¬cursor.current.Is ":=" := by
  cases tokens with
  | nil =>
      cases passes.eq_of_nil
      intro isAssign
      exact absurd (ends.unique isAssign) (by decide)
  | cons token tokens =>
      rw [passes.current]
      exact isValue.not_is_assign token (by simp)

mutual

/-- A statement is read whole, whatever follows it. -/
theorem SpellsStmt.statement?_eq {tokens : List Token} {statement : Stmt} :
    SpellsStmt tokens statement → ∀ cursor next : Cursor, cursor.IsRegular →
      cursor.Passes tokens next →
        Parser.statement? Parser.block cursor = .ok (some statement) next
  | .assign isName isSign isValue ends, cursor, next, regular, passes => by
      rcases passes.uncons with ⟨rfl, afterName⟩
      rcases afterName.uncons with ⟨rfl, afterSign⟩
      obtain ⟨atEnd, passesValue, passesEnd⟩ := afterSign.split _
      rcases passesEnd.uncons with ⟨rfl, _⟩
      have value := isValue.expression_eq regular.advance.advance passesValue
        (ends.not_exceeds (by decide))
      have accepts := Token.accepts_identifier_iff.mpr isName
      have sees : (cursor.ahead? 1).any (Terminal.reserved ":=").accepts = true := by
        rwa [Parser.ahead?_accepts]
      rw [Parser.statement?_of_identifier isName, Parser.map_apply, Parser.named_apply accepts,
        if_pos sees, Parser.assignment_eq isName isSign value ends, passesEnd.advance]
  | .ifThen isIf isCondition isThen isThenBranch isDone, cursor, next, regular, passes => by
      rcases passes.uncons with ⟨rfl, afterIf⟩
      obtain ⟨atThen, passesCondition, atThenPasses⟩ := afterIf.split _
      rcases atThenPasses.uncons with ⟨rfl, afterThen⟩
      obtain ⟨atDone, passesThen, passesDone⟩ := afterThen.split _
      rcases passesDone.uncons with ⟨rfl, _⟩
      have thenRegular := (regular.advance.of_passes passesCondition).advance
      have condition := isCondition.expression_eq regular.advance passesCondition
        (isThen.not_exceeds (by decide))
      have thenBranch := isThenBranch.block_eq _ _ thenRegular passesThen
        (isDone.not_beginsStatement (by decide))
      rw [Parser.statement?_of_is_if isIf, Parser.map_apply,
        Parser.conditional_eq_ifThen condition isThen thenBranch isDone, passesDone.advance]
  | .ifElse isIf isCondition isThen isThenBranch isElse isElseBranch isDone, cursor, next, regular,
      passes => by
      rcases passes.uncons with ⟨rfl, afterIf⟩
      obtain ⟨atThen, passesCondition, atThenPasses⟩ := afterIf.split _
      rcases atThenPasses.uncons with ⟨rfl, afterThen⟩
      obtain ⟨atElse, passesThen, atElsePasses⟩ := afterThen.split _
      rcases atElsePasses.uncons with ⟨rfl, afterElse⟩
      obtain ⟨atDone, passesElse, passesDone⟩ := afterElse.split _
      rcases passesDone.uncons with ⟨rfl, _⟩
      have thenRegular := (regular.advance.of_passes passesCondition).advance
      have elseRegular := (thenRegular.of_passes passesThen).advance
      have condition := isCondition.expression_eq regular.advance passesCondition
        (isThen.not_exceeds (by decide))
      have thenBranch := isThenBranch.block_eq _ _ thenRegular passesThen
        (isElse.not_beginsStatement (by decide))
      have elseBranch := isElseBranch.block_eq _ _ elseRegular passesElse
        (isDone.not_beginsStatement (by decide))
      rw [Parser.statement?_of_is_if isIf, Parser.map_apply,
        Parser.conditional_eq_ifElse condition isThen thenBranch isElse elseBranch isDone,
        passesDone.advance]
  | .whileDo isWhile isCondition isDo isBody isDone, cursor, next, regular, passes => by
      rcases passes.uncons with ⟨rfl, afterWhile⟩
      obtain ⟨atDo, passesCondition, atDoPasses⟩ := afterWhile.split _
      rcases atDoPasses.uncons with ⟨rfl, afterDo⟩
      obtain ⟨atDone, passesBody, passesDone⟩ := afterDo.split _
      rcases passesDone.uncons with ⟨rfl, _⟩
      have doRegular := (regular.advance.of_passes passesCondition).advance
      have condition := isCondition.expression_eq regular.advance passesCondition
        (isDo.not_exceeds (by decide))
      have body := isBody.block_eq _ _ doRegular passesBody
        (isDone.not_beginsStatement (by decide))
      rw [Parser.statement?_of_is_while isWhile, Parser.map_apply,
        Parser.loop_eq condition isDo body isDone, passesDone.advance]
  | .print isPrint isValue ends, cursor, next, regular, passes => by
      rcases passes.uncons with ⟨rfl, afterPrint⟩
      obtain ⟨atEnd, passesValue, passesEnd⟩ := afterPrint.split _
      rcases passesEnd.uncons with ⟨rfl, _⟩
      have value := isValue.expression_eq regular.advance passesValue
        (ends.not_exceeds (by decide))
      have reads : Parser.printStatement cursor.advance = _ := Parser.ended_eq .print value ends
      rw [Parser.statement?_of_is_print isPrint, Parser.map_apply, reads, passesEnd.advance]
  | .expression isName isValue ends, cursor, next, regular, passes => by
      obtain ⟨atEnd, passesValue, passesEnd⟩ := passes.split (_ :: _)
      rcases passesValue.uncons with ⟨rfl, afterName⟩
      rcases passesEnd.uncons with ⟨rfl, _⟩
      have value := isValue.expression_eq regular passesValue (ends.not_exceeds (by decide))
      have accepts := Token.accepts_identifier_iff.mpr isName
      -- The token behind the name belongs to the expression or ends the statement.
      have noAssignment : (cursor.ahead? 1).any (Terminal.reserved ":=").accepts = false := by
        rw [Parser.ahead?_accepts]
        exact (Bool.not_eq_true _).mp (isValue.not_is_assign_behind afterName ends)
      have reads : Parser.expressionStatement cursor = _ := Parser.ended_eq .expression value ends
      rw [Parser.statement?_of_identifier isName, Parser.map_apply, Parser.named_apply accepts,
        noAssignment, if_neg Bool.false_ne_true, reads, passesEnd.advance]

/-- A block is read whole, if no statement follows it. -/
theorem SpellsBlock.block_eq {tokens : List Token} {statements : Block} :
    SpellsBlock tokens statements → ∀ cursor next : Cursor, cursor.IsRegular →
      cursor.Passes tokens next → ¬next.current.BeginsStatement →
        Parser.block cursor = .ok statements next
  | .nil, cursor, next, regular, passes, notBegins => by
      cases passes.eq_of_nil
      rw [Parser.block_eq, Parser.bind_apply, Parser.statement?_of_not_begins notBegins]
      rfl
  | .cons isStatement isBlock, cursor, next, regular, passes, notBegins => by
      obtain ⟨middle, passesFirst, passesRest⟩ := passes.split _
      have first := isStatement.statement?_eq _ _ regular passesFirst
      have rest := isBlock.block_eq _ _ (regular.of_passes passesFirst) passesRest notBegins
      rw [Parser.block_eq, Parser.bind_apply, first]
      simp only [Parser.blockRest, Parser.bind_apply, rest, Parser.pure_apply]

end

/-! ## Whole programs -/

theorem parseTokens_eq_ok_iff {tokens : List Token} {endOffset : Nat} {program : Block} :
    parseTokens tokens endOffset = .ok program ↔
      ∃ next, Parser.program (Cursor.ofTokens tokens endOffset) = .ok program next := by
  unfold parseTokens
  cases Parser.program (Cursor.ofTokens tokens endOffset) with
  | ok result next => simp
  | error error next => simp

theorem Cursor.isRegular_ofTokens {tokens : List Token}
    (regular : ∀ token ∈ tokens, token.IsRegular) (mark endOffset : Nat) :
    (Cursor.ofTokens (tokens ++ [.endOfInput mark]) endOffset).IsRegular := by
  intro token member
  rcases List.mem_append.mp member with inTokens | atEnd
  · exact regular token inTokens
  · rw [List.mem_singleton.mp atEnd]
    exact .endOfInput mark

/-- A block that the mark of the end follows is parsed. -/
theorem SpellsBlock.parseTokens_eq {tokens : List Token} {program : Block}
    (isBlock : SpellsBlock tokens program) (regular : ∀ token ∈ tokens, token.IsRegular)
    (mark endOffset : Nat) :
    parseTokens (tokens ++ [.endOfInput mark]) endOffset = .ok program := by
  have startRegular := Cursor.isRegular_ofTokens regular mark endOffset
  obtain ⟨atEnd, passes, passesMark⟩ : ∃ atEnd : Cursor,
      (Cursor.ofTokens (tokens ++ [.endOfInput mark]) endOffset).Passes tokens atEnd ∧
        atEnd.current.isEnd :=
    ⟨⟨[.endOfInput mark], tokens.length, endOffset⟩, ⟨rfl, by simp [Cursor.ofTokens], rfl⟩,
      Token.isEnd_endOfInput mark⟩
  have reads := isBlock.block_eq _ _ startRegular passes
    (Token.not_beginsStatement_of_isEnd passesMark)
  rw [parseTokens_eq_ok_iff]
  refine ⟨atEnd, ?_⟩
  simp only [Parser.program, Parser.bind_apply, reads, Parser.peek_apply, Parser.ite_apply,
    passesMark, if_true, Parser.pure_apply]

/-- What stands before the first mark of the end is determined by it. -/
theorem append_cancel_of_isEnd {first second firstRest secondRest : List Token}
    {firstMark secondMark : Token}
    (same : first ++ firstMark :: firstRest = second ++ secondMark :: secondRest)
    (firstWords : ∀ token ∈ first, token.isEnd = false) (firstEnd : firstMark.isEnd)
    (secondWords : ∀ token ∈ second, token.isEnd = false) (secondEnd : secondMark.isEnd) :
    first = second := by
  have before : ∀ {words rest : List Token} {mark : Token},
      (∀ token ∈ words, token.isEnd = false) → mark.isEnd →
        (words ++ mark :: rest).takeWhile (fun token => !token.isEnd) = words := by
    intro words rest mark allWords isEnd
    rw [List.takeWhile_append_of_pos (by simpa using allWords)]
    simp [isEnd]
  rw [← before firstWords firstEnd, same, before secondWords secondEnd]

/-- What is parsed up to the mark of the end is a block. -/
theorem spellsBlock_of_parseTokens {tokens : List Token} {program : Block} {mark endOffset : Nat}
    (parses : parseTokens (tokens ++ [.endOfInput mark]) endOffset = .ok program)
    (regular : ∀ token ∈ tokens, token.IsRegular)
    (words : ∀ token ∈ tokens, token.isEnd = false) : SpellsBlock tokens program := by
  rcases parseTokens_eq_ok_iff.mp parses with ⟨next, reads⟩
  have startRegular := Cursor.isRegular_ofTokens regular mark endOffset
  obtain ⟨passed, passes, isBlock, atEnd⟩ := Parser.program_sound startRegular reads
  have split : tokens ++ [.endOfInput mark] = passed ++ next.rest := passes.rest
  cases rest : next.rest with
  | nil =>
      -- The mark itself would have been passed.
      rw [rest, List.append_nil] at split
      have inBlock := isBlock.isEnd_eq_false (.endOfInput mark) (by simp [← split])
      simp at inBlock
  | cons last others =>
      rw [rest] at split
      have lastEnd : last.isEnd := by simpa [Cursor.current, rest] using atEnd
      obtain rfl := append_cancel_of_isEnd split words (Token.isEnd_endOfInput mark)
        isBlock.isEnd_eq_false lastEnd
      exact isBlock

/-- The parser accepts exactly the grammar.  A list of tokens of the language with the
mark of the end behind it is parsed to a program if and only if it spells the program as
a block.  So a list spells at most one program, and a list that spells none is rejected
with an error. -/
theorem parseTokens_iff_spellsBlock {tokens : List Token}
    (emitted : ∀ token ∈ tokens, Grammar.standard.Emits token) (mark endOffset : Nat) :
    (∀ program, parseTokens (tokens ++ [.endOfInput mark]) endOffset = .ok program ↔
        SpellsBlock tokens program) ∧
      ((∃! program, SpellsBlock tokens program) ∨
        (∀ program, ¬SpellsBlock tokens program) ∧
          ∃ error, parseTokens (tokens ++ [.endOfInput mark]) endOffset = .error error) := by
  have standard : ∀ token ∈ tokens, token.IsStandard :=
    fun token member => .of_emits (emitted token member)
  have accepts : ∀ program, parseTokens (tokens ++ [.endOfInput mark]) endOffset = .ok program ↔
      SpellsBlock tokens program := by
    intro program
    constructor
    · intro parses
      exact spellsBlock_of_parseTokens parses
        (fun token member => (standard token member).isRegular)
        (fun token member => (standard token member).isEnd_eq_false)
    · intro isBlock
      exact isBlock.parseTokens_eq (fun token member => (standard token member).isRegular) _ _
  refine ⟨accepts, ?_⟩
  cases outcome : parseTokens (tokens ++ [.endOfInput mark]) endOffset with
  | ok program =>
      refine .inl ⟨program, (accepts program).mp outcome, ?_⟩
      intro other isBlock
      rw [← accepts, outcome] at isBlock
      exact (Except.ok.inj isBlock).symm
  | error error =>
      refine .inr ⟨?_, error, rfl⟩
      intro program isBlock
      rw [← accepts, outcome] at isBlock
      cases isBlock

/-- A token of a word that structures statements. -/
def wordToken (word : String) (offset : Nat) : Token where
  category := .reserved
  subcategory := some .statement
  precedence := 0
  value := .text word
  span := ⟨offset, word.length⟩

/-- A token of a punctuation sign. -/
def symbolToken (sign : String) (offset : Nat) : Token where
  category := .reserved
  subcategory := some .symbol
  precedence := 0
  value := .text sign
  span := ⟨offset, sign.length⟩

/-- The tokens of the text `if a then else done`. -/
def emptyBranches : List Token :=
  [wordToken "if" 0, nameToken "a" 3, wordToken "then" 5, wordToken "else" 10,
    wordToken "done" 15]

/-- The two branches are both there and both empty. -/
theorem spellsBlock_emptyBranches :
    (∀ token ∈ emptyBranches, Grammar.standard.Emits token) ∧
      SpellsBlock emptyBranches [.ifElse (.var "a") [] []] := by
  have emitted : ∀ token ∈ emptyBranches, Grammar.standard.Emits token := by
    have lexes : Grammar.standard.tokenize "if a then else done" =
        .ok (emptyBranches ++ [.endOfInput 19]) := by decide +kernel
    have words : ∀ token ∈ emptyBranches, token.isEnd = false := by decide
    intro token member
    exact ⟨_, _, lexes, List.mem_append_left _ member, words token member⟩
  exact ⟨emitted, ((parseTokens_iff_spellsBlock emitted 19 19).1 _).mp rfl⟩

end WhileLang
