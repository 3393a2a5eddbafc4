import Mathlib
import WhileLang.Program
import WhileLang.Proofs.Parsing.Locality
import WhileLang.Proofs.Relocation

/-!
# Parsing does not look at places

The places of tokens reach the errors and nothing else.  So a parser that is run on tokens
that have been moved, and behind other tokens, does what it does on the tokens themselves,
and its errors have moved along with them.
-/

namespace WhileLang

variable (move : Nat → Nat) (passed : Nat)

/-- The same place in a list of tokens that have been moved, with so many more tokens
before it. -/
def Cursor.relocate (cursor : Cursor) : Cursor where
  rest := cursor.rest.map (Token.relocate move)
  position := cursor.position + passed
  endOffset := move cursor.endOffset

@[simp]
theorem Cursor.relocate_current (cursor : Cursor) :
    (cursor.relocate move passed).current = cursor.current.relocate move := by
  rcases cursor with ⟨rest, position, endOffset⟩
  cases rest <;> rfl

@[simp]
theorem Cursor.relocate_advance (cursor : Cursor) :
    (cursor.relocate move passed).advance = cursor.advance.relocate move passed := by
  rcases cursor with ⟨rest, position, endOffset⟩
  simp [relocate, advance, Nat.add_right_comm]

/-- The same outcome where the tokens have been moved.  A result can hold tokens itself, so
it is said what becomes of it. -/
def Parser.Outcome.relocate {α : Type} (act : α → α) :
    EStateM.Result SyntaxError Cursor α → EStateM.Result SyntaxError Cursor α
  | .ok result cursor => .ok (act result) (cursor.relocate move passed)
  | .error error cursor => .error (error.relocate move) (cursor.relocate move passed)

/-- Among tokens that have been moved the second parser does what the first one does among
the tokens as they were. -/
def Parser.Relocates {α : Type} (act : α → α) (parser moved : Parser α) : Prop :=
  ∀ cursor, moved (cursor.relocate move passed) = Outcome.relocate move passed act (parser cursor)

variable {move passed}

/-! ## Putting parsers together -/

namespace Parser

variable {α β : Type}

theorem relocates_pure (act : α → α) (result : α) :
    Relocates move passed act (pure result) (pure (act result)) :=
  fun _ => rfl

theorem relocates_throw (act : α → α) (error : SyntaxError) :
    Relocates move passed act (throw error) (throw (error.relocate move)) :=
  fun _ => rfl

theorem Relocates.bind {act : α → α} {act' : β → β} {parser moved : Parser α}
    {next next' : α → Parser β} (first : Relocates move passed act parser moved)
    (further : ∀ result, Relocates move passed act' (next result) (next' (act result))) :
    Relocates move passed act' (parser >>= next) (moved >>= next') := by
  intro cursor
  rw [bind_apply, bind_apply, first cursor]
  cases parser cursor with
  | ok result middle => exact further result middle
  | error error last => rfl

theorem Relocates.map {act : α → α} {act' : β → β} {parser moved : Parser α}
    (relocates : Relocates move passed act parser moved) {f : α → β}
    (commutes : ∀ result, f (act result) = act' (f result)) :
    Relocates move passed act' (f <$> parser) (f <$> moved) := by
  intro cursor
  rw [map_apply, map_apply, relocates cursor]
  cases parser cursor with
  | ok result next => simp [Outcome.relocate, commutes]
  | error error last => rfl

theorem Relocates.ite {act : α → α} {first first' second second' : Parser α}
    (isFirst : Relocates move passed act first first')
    (isSecond : Relocates move passed act second second') (condition : Bool) :
    Relocates move passed act (if condition then first else second)
      (if condition then first' else second') := by
  cases condition with
  | true => exact isFirst
  | false => exact isSecond

theorem relocates_peek : Relocates move passed (Token.relocate move) peek peek := by
  intro cursor
  rw [peek_apply, peek_apply, Cursor.relocate_current]
  rfl

theorem relocates_skip : Relocates move passed id skip skip := by
  intro cursor
  rw [skip_apply, skip_apply, Cursor.relocate_advance]
  rfl

theorem relocates_sees (terminal : Terminal) :
    Relocates move passed id (sees terminal) (sees terminal) := by
  intro cursor
  rw [sees_apply, sees_apply, Cursor.relocate_current, Terminal.accepts_relocate]
  rfl

theorem relocates_seesAssignment : Relocates move passed id seesAssignment seesAssignment := by
  intro cursor
  simp only [seesAssignment, ahead?_accepts, Cursor.relocate_advance, Cursor.relocate_current,
    Terminal.accepts_relocate]
  rfl

theorem relocates_expect (terminal : Terminal) :
    Relocates move passed (Token.relocate move) (expect terminal) (expect terminal) := by
  intro cursor
  rw [expect_apply, expect_apply, Cursor.relocate_current, Terminal.accepts_relocate,
    Cursor.relocate_advance]
  split <;> rfl

/-- A choice by the token at the cursor. -/
theorem relocates_ite_sees {act : α → α} {first second : Parser α} (terminal : Terminal)
    (isFirst : Relocates move passed act first first)
    (isSecond : Relocates move passed act second second) :
    Relocates move passed act (do if ← sees terminal then first else second)
      (do if ← sees terminal then first else second) :=
  (relocates_sees terminal).bind fun sees => isFirst.ite isSecond sees

end Parser

/-! ## Expressions -/

theorem numberLeaf_relocate (token : Token) :
    numberLeaf (token.relocate move) = (numberLeaf token).mapError (SyntaxError.relocate move) := by
  simp only [numberLeaf, Token.relocate_value]
  split
  · rfl
  · rfl
  · split <;> rfl

theorem operatorNode_relocate (operator : Token) (left? : Option Expr) (right : Expr) :
    operatorNode (operator.relocate move) left? right =
      (operatorNode operator left? right).mapError (SyntaxError.relocate move) := by
  unfold operatorNode
  rw [Token.relocate_text?]
  dsimp only
  split_ifs with isNot isAnd isOr
  · rfl
  · cases left? <;> rfl
  · cases left? <;> rfl
  · cases left? with
    | none => rfl
    | some left =>
        dsimp only
        split <;> rfl

theorem reduceToken_relocate (trees : List Expr) (token : Token) :
    reduceToken trees (token.relocate move) =
      (reduceToken trees token).mapError (SyntaxError.relocate move) := by
  have mapError_map : ∀ (outcome : Except SyntaxError Expr) (f : Expr → List Expr),
      (outcome.mapError (SyntaxError.relocate move)).map f =
        (outcome.map f).mapError (SyntaxError.relocate move) := by
    intro outcome f
    cases outcome <;> rfl
  unfold reduceToken
  rw [Token.relocate_toTokenClass, Token.relocate_isOperator, Token.relocate_text?]
  simp only [Token.relocate_value, numberLeaf_relocate, operatorNode_relocate, mapError_map]
  cases token.category with
  | identifier => rfl
  | number => rfl
  | reserved =>
      dsimp only
      split_ifs with isOperator isNot
      · cases trees <;> rfl
      · rcases trees with _ | ⟨right, _ | ⟨left, rest⟩⟩ <;> rfl
      · rfl

theorem exprOfPostorder_relocate (following : Token) (tokens : List Token) :
    exprOfPostorder (following.relocate move) (tokens.map (Token.relocate move)) =
      (exprOfPostorder following tokens).mapError (SyntaxError.relocate move) := by
  have reduced : ∀ trees, (tokens.map (Token.relocate move)).foldlM reduceToken trees =
      (tokens.foldlM reduceToken trees).mapError (SyntaxError.relocate move) := by
    induction tokens with
    | nil => exact fun _ => rfl
    | cons token tokens ih =>
        intro trees
        rw [List.map_cons, List.foldlM_cons, List.foldlM_cons, reduceToken_relocate]
        cases reduceToken trees token with
        | ok trees => exact ih trees
        | error error => rfl
  rw [exprOfPostorder, exprOfPostorder, reduced]
  rcases tokens.foldlM reduceToken [] with error | _ | ⟨tree, _ | ⟨other, trees⟩⟩ <;> rfl

/-- The same pass over tokens that have been moved. -/
def OperatorScan.relocate (move : Nat → Nat) (scan : OperatorScan) : OperatorScan where
  output := scan.output.map (Token.relocate move)
  waiting := scan.waiting.map (Token.relocate move)
  needsOperand := scan.needsOperand

/-- The same consequence of a token that has been moved. -/
def ScanStep.relocate (move : Nat → Nat) : ScanStep → ScanStep
  | .stop => .stop
  | .fail error => .fail (error.relocate move)
  | .proceed scan => .proceed (scan.relocate move)

namespace OperatorScan

theorem closeGroup_relocate (scan : OperatorScan) :
    (scan.relocate move).closeGroup = scan.closeGroup.relocate move := by
  have same : (fun operator => !operator.opensGroup) ∘ Token.relocate move =
      fun operator => !operator.opensGroup := rfl
  simp [closeGroup, relocate, List.takeWhile_map, List.dropWhile_map, same]

theorem pushBinary_relocate (scan : OperatorScan) (token : Token) :
    (scan.relocate move).pushBinary (token.relocate move) =
      (scan.pushBinary token).relocate move := by
  have same : (fun waiting => waiting.goesBefore (token.relocate move)) ∘ Token.relocate move =
      fun waiting => waiting.goesBefore token := rfl
  simp [pushBinary, relocate, List.takeWhile_map, List.dropWhile_map, same]

theorem step_relocate (scan : OperatorScan) (token : Token) :
    (scan.relocate move).step (token.relocate move) = (scan.step token).relocate move := by
  have role : (token.relocate move).role = token.role := rfl
  have groups : (scan.relocate move).waiting.any Token.opensGroup =
      scan.waiting.any Token.opensGroup := List.any_map
  have needs : (scan.relocate move).needsOperand = scan.needsOperand := rfl
  unfold step
  rw [role, groups, needs, closeGroup_relocate, pushBinary_relocate]
  cases token.role with
  | outside => rfl
  | operand => dsimp only; split <;> rfl
  | opening => dsimp only; split <;> rfl
  | closing => dsimp only; split_ifs <;> rfl
  | binary => dsimp only; split <;> rfl

theorem finish_relocate (scan : OperatorScan) (following : Token) :
    (scan.relocate move).finish (following.relocate move) =
      ((scan.finish following).map (List.map (Token.relocate move))).mapError
        (SyntaxError.relocate move) := by
  have opens : Token.opensGroup ∘ Token.relocate move = Token.opensGroup := rfl
  simp only [finish, relocate, List.find?_map, opens]
  split
  · rfl
  · cases scan.waiting.find? Token.opensGroup <;>
      simp [Except.map, Except.mapError, SyntaxError.relocate]

theorem run_relocate (tokens : List Token) (position endOffset : Nat) (scan : OperatorScan) :
    run (move endOffset) (tokens.map (Token.relocate move)) (position + passed)
        (scan.relocate move) =
      Parser.Outcome.relocate move passed (relocate move) (run endOffset tokens position scan) := by
  induction tokens generalizing position scan with
  | nil => rfl
  | cons token tokens ih =>
      rw [List.map_cons, run, run, step_relocate]
      cases scan.step token with
      | stop => rfl
      | fail error => rfl
      | proceed scan =>
          rw [ScanStep.relocate, Nat.add_right_comm]
          exact ih (position + 1) scan

end OperatorScan

namespace Parser

theorem relocates_scanOperators :
    Relocates move passed (OperatorScan.relocate move) scanOperators scanOperators :=
  fun cursor => OperatorScan.run_relocate cursor.rest cursor.position cursor.endOffset .start

theorem relocates_expression : Relocates move passed id expression expression := by
  have finishes : ∀ (scan : OperatorScan) following,
      Relocates move passed (List.map (Token.relocate move))
        (MonadExcept.ofExcept (scan.finish following))
        (MonadExcept.ofExcept ((scan.relocate move).finish (following.relocate move))) := by
    intro scan following cursor
    rw [ofExcept_apply, ofExcept_apply, OperatorScan.finish_relocate]
    cases scan.finish following <;> rfl
  refine relocates_scanOperators.bind fun scan => relocates_peek.bind fun following =>
    (finishes scan following).bind fun sequence => ?_
  intro cursor
  rw [ofExcept_apply, ofExcept_apply, exprOfPostorder_relocate]
  cases exprOfPostorder following sequence <;> rfl

/-! ## Statements and programs -/

theorem relocates_assignment : Relocates move passed id assignment assignment :=
  (relocates_expect _).bind fun _ => (relocates_expect _).bind fun _ =>
    relocates_expression.bind fun _ => (relocates_expect _).bind fun _ => relocates_pure id _

theorem relocates_printStatement : Relocates move passed id printStatement printStatement :=
  relocates_expression.bind fun _ => (relocates_expect _).bind fun _ => relocates_pure id _

theorem relocates_expressionStatement :
    Relocates move passed id expressionStatement expressionStatement :=
  relocates_expression.bind fun _ => (relocates_expect _).bind fun _ => relocates_pure id _

section Blocks

variable {block : Parser Block} (relocates : Relocates move passed id block block)

include relocates

theorem relocates_loop : Relocates move passed id (loop block) (loop block) :=
  relocates_expression.bind fun _ => (relocates_expect _).bind fun _ =>
    relocates.bind fun _ => (relocates_expect _).bind fun _ => relocates_pure id _

theorem relocates_conditional :
    Relocates move passed id (conditional block) (conditional block) := by
  refine relocates_expression.bind fun _ => (relocates_expect _).bind fun _ =>
    relocates.bind fun _ => relocates_ite_sees _ ?_ ?_
  · exact relocates_skip.bind fun _ => relocates.bind fun _ =>
      (relocates_expect _).bind fun _ => relocates_pure id _
  · exact (relocates_expect _).bind fun _ => relocates_pure id _

theorem relocates_statement? :
    Relocates move passed id (statement? block) (statement? block) := by
  have isSome : ∀ {parser : Parser Stmt}, Relocates move passed id parser parser →
      Relocates move passed id (some <$> parser) (some <$> parser) :=
    fun relocates => relocates.map fun _ => rfl
  apply relocates_ite_sees _ (relocates_pure id none)
  apply relocates_ite_sees _ (relocates_pure id none)
  apply relocates_ite_sees _
    (relocates_skip.bind fun _ => isSome (relocates_conditional relocates))
  apply relocates_ite_sees _ (relocates_skip.bind fun _ => isSome (relocates_loop relocates))
  apply relocates_ite_sees
  · exact relocates_seesAssignment.bind fun sees =>
      (isSome relocates_assignment).ite (isSome relocates_expressionStatement) sees
  · exact relocates_ite_sees _ (relocates_skip.bind fun _ => isSome relocates_printStatement)
      (relocates_pure id none)

theorem relocates_blockRest (statement? : Option Stmt) :
    Relocates move passed id (blockRest block statement?) (blockRest block statement?) := by
  cases statement? with
  | none => exact relocates_pure id []
  | some statement => exact relocates.bind fun _ => relocates_pure id _

end Blocks

theorem relocates_blockWithin (bound : Nat) :
    Relocates move passed id (blockWithin bound) (blockWithin bound) := by
  induction bound with
  | zero => exact relocates_pure id []
  | succ bound ih =>
      rw [blockWithin_succ]
      exact (relocates_statement? ih).bind (relocates_blockRest ih)

theorem relocates_block : Relocates move passed id block block := by
  intro cursor
  have sameLength : (cursor.relocate move passed).rest.length = cursor.rest.length :=
    List.length_map _
  change blockWithin _ _ = Outcome.relocate move passed id (blockWithin _ cursor)
  rw [sameLength]
  exact relocates_blockWithin cursor.rest.length cursor

theorem relocates_program : Relocates move passed id program program := by
  refine relocates_block.bind fun statements => relocates_peek.bind fun following => ?_
  exact (relocates_pure id statements).ite (relocates_throw id _) following.isEnd

end Parser

/-- A token list that has been moved is the same program, or has the same error where the
token at fault has moved to. -/
theorem parseTokens_relocate (tokens : List Token) (endOffset : Nat) :
    parseTokens (tokens.map (Token.relocate move)) (move endOffset) =
      (parseTokens tokens endOffset).mapError (SyntaxError.relocate move) := by
  have relocates : Parser.Relocates move 0 id Parser.program Parser.program :=
    Parser.relocates_program
  have start : Cursor.ofTokens (tokens.map (Token.relocate move)) (move endOffset) =
      (Cursor.ofTokens tokens endOffset).relocate move 0 := rfl
  unfold parseTokens
  rw [start, relocates]
  cases Parser.program (Cursor.ofTokens tokens endOffset) <;> rfl

end WhileLang
