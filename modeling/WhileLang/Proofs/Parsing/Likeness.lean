import Mathlib
import WhileLang.Program
import WhileLang.Proofs.Parsing.Locality

/-!
# Tokens that parsing cannot tell apart

What a number holds does not matter to the parser until the leaf for it is made.  So two
numbers of one class at one place can stand for each other if they make the same leaf.  The
parser then builds the same program, or it fails at the same place for the same reason, and
only the wording of what it has found there can differ.
-/

namespace WhileLang

/-! ## Tokens and errors that are alike -/

/-- Two tokens that the parser cannot tell apart: they are the same, or they are numbers of
one class at one place that make the same leaf. -/
inductive Token.IsLike : Token → Token → Prop
  | same (token : Token) : IsLike token token
  | number {tokenClass : TokenClass} {value value' : TokenValue} {span : Span} {leaf : Expr}
      (isNumber : tokenClass.category = .number)
      (notOperator : tokenClass.subcategory ≠ some .operator)
      (isLeaf : numberLeaf ⟨tokenClass, value, span⟩ = .ok leaf)
      (isLeaf' : numberLeaf ⟨tokenClass, value', span⟩ = .ok leaf) :
      IsLike ⟨tokenClass, value, span⟩ ⟨tokenClass, value', span⟩

/-- Two errors that differ at most in what was found where something else was wanted. -/
inductive SyntaxError.IsLike : SyntaxError → SyntaxError → Prop
  | same (error : SyntaxError) : IsLike error error
  | expected (wanted : Expectation) (found found' : TokenValue) (span : Span) :
      IsLike (.expected wanted found span) (.expected wanted found' span)

/-- The results are related, or the errors are alike. -/
inductive OutcomesAgree {α : Type} (Related : α → α → Prop) :
    Except SyntaxError α → Except SyntaxError α → Prop
  | ok {result result' : α} (related : Related result result') :
      OutcomesAgree Related (.ok result) (.ok result')
  | error {error error' : SyntaxError} (alike : error.IsLike error') :
      OutcomesAgree Related (.error error) (.error error')

/-- Outcomes agree up to equality if they have the same result or errors that are alike. -/
theorem outcomesAgree_eq_iff {α : Type} {outcome outcome' : Except SyntaxError α} :
    OutcomesAgree (· = ·) outcome outcome' ↔
      (∃ result, outcome = .ok result ∧ outcome' = .ok result) ∨
        ∃ error error', outcome = .error error ∧ outcome' = .error error' ∧
          error.IsLike error' := by
  constructor
  · rintro (rfl | alike)
    · exact .inl ⟨_, rfl, rfl⟩
    · exact .inr ⟨_, _, rfl, rfl, alike⟩
  · rintro (⟨result, rfl, rfl⟩ | ⟨error, error', rfl, rfl, alike⟩)
    · exact .ok rfl
    · exact .error alike

namespace Token.IsLike

variable {first second : Token} (alike : first.IsLike second)

include alike

theorem toTokenClass_eq : first.toTokenClass = second.toTokenClass := by
  cases alike <;> rfl

theorem span_eq : first.span = second.span := by
  cases alike <;> rfl

theorem eq_of_category (notNumber : first.category ≠ .number) : first = second := by
  cases alike with
  | same => rfl
  | number isNumber => exact absurd isNumber notNumber

theorem isEnd_eq : first.isEnd = second.isEnd := by
  cases alike with
  | same => rfl
  | number isNumber => simp [isEnd, isNumber]

theorem accepts_eq (terminal : Terminal) : terminal.accepts first = terminal.accepts second := by
  cases alike with
  | same => rfl
  | number isNumber => cases terminal <;> simp [Terminal.accepts, isEnd, isNumber]

theorem role_eq : first.role = second.role := by
  cases alike with
  | same => rfl
  | number isNumber => simp [role, isEnd, isNumber]

theorem opensGroup_eq : first.opensGroup = second.opensGroup := by
  cases alike with
  | same => rfl
  | number _ notOperator => simp [opensGroup, isOperator, notOperator]

theorem goesBefore_eq {token token' : Token} (alike' : token.IsLike token') :
    first.goesBefore token = second.goesBefore token' := by
  rw [goesBefore, goesBefore, alike.opensGroup_eq, alike.toTokenClass_eq, alike'.toTokenClass_eq]

theorem reduceToken_eq (trees : List Expr) :
    reduceToken trees first = reduceToken trees second := by
  cases alike with
  | same => rfl
  | number isNumber _ isLeaf isLeaf' => simp only [reduceToken, isNumber, isLeaf, isLeaf']

theorem atToken (wanted : Expectation) :
    (SyntaxError.atToken wanted first).IsLike (.atToken wanted second) := by
  cases alike with
  | same => exact .same _
  | number => exact .expected wanted _ _ _

end Token.IsLike

/-! ## Lists that are alike -/

section Lists

variable {α β : Type} {Related : α → β → Prop} {p : α → Bool} {q : β → Bool}
  {first : List α} {second : List β} (related : List.Forall₂ Related first second)
  (same : ∀ a b, Related a b → p a = q b)

include related same

theorem forall₂_takeWhile :
    List.Forall₂ Related (first.takeWhile p) (second.takeWhile q) := by
  induction related with
  | nil => exact .nil
  | cons head _ ih =>
      rw [List.takeWhile_cons, List.takeWhile_cons, same _ _ head]
      split
      · exact .cons head ih
      · exact .nil

theorem forall₂_dropWhile :
    List.Forall₂ Related (first.dropWhile p) (second.dropWhile q) := by
  induction related with
  | nil => exact .nil
  | cons head rest ih =>
      rw [List.dropWhile_cons, List.dropWhile_cons, same _ _ head]
      split
      · exact ih
      · exact .cons head rest

theorem optionRel_find? : Option.Rel Related (first.find? p) (second.find? q) := by
  induction related with
  | nil => exact .none
  | cons head _ ih =>
      rw [List.find?_cons, List.find?_cons, same _ _ head]
      split
      · exact .some head
      · exact ih

end Lists

/-! ## Trees -/

theorem exprOfPostorder_agree {following following' : Token} {tokens tokens' : List Token}
    (alike : following.IsLike following') (related : List.Forall₂ Token.IsLike tokens tokens') :
    OutcomesAgree (· = ·) (exprOfPostorder following tokens)
      (exprOfPostorder following' tokens') := by
  have reduced : ∀ trees, tokens.foldlM reduceToken trees = tokens'.foldlM reduceToken trees := by
    induction related with
    | nil => exact fun _ => rfl
    | cons head _ ih =>
        intro trees
        rw [List.foldlM_cons, List.foldlM_cons, head.reduceToken_eq]
        exact congrArg (reduceToken trees _ >>= ·) (funext ih)
  rw [exprOfPostorder, exprOfPostorder, reduced]
  rcases tokens'.foldlM reduceToken [] with error | _ | ⟨tree, _ | ⟨other, trees⟩⟩
  · exact .error (.same error)
  · exact .error (alike.atToken _)
  · exact .ok rfl
  · exact .error (alike.atToken _)

/-! ## Passes -/

/-- Two passes that have taken tokens that are alike. -/
structure OperatorScan.IsLike (first second : OperatorScan) : Prop where
  output : List.Forall₂ Token.IsLike first.output second.output
  waiting : List.Forall₂ Token.IsLike first.waiting second.waiting
  needsOperand : first.needsOperand = second.needsOperand

/-- Two consequences of tokens that are alike. -/
inductive ScanStep.IsLike : ScanStep → ScanStep → Prop
  | stop : IsLike .stop .stop
  | fail {error error' : SyntaxError} (alike : error.IsLike error') :
      IsLike (.fail error) (.fail error')
  | proceed {scan scan' : OperatorScan} (alike : scan.IsLike scan') :
      IsLike (.proceed scan) (.proceed scan')

namespace OperatorScan.IsLike

variable {scan scan' : OperatorScan} (alike : scan.IsLike scan')

include alike

theorem any_opensGroup_eq :
    scan.waiting.any Token.opensGroup = scan'.waiting.any Token.opensGroup := by
  have found := optionRel_find? alike.waiting fun _ _ alike => alike.opensGroup_eq
  rw [← List.isSome_find?, ← List.isSome_find?]
  generalize scan.waiting.find? Token.opensGroup = parenthesis? at found ⊢
  generalize scan'.waiting.find? Token.opensGroup = parenthesis'? at found ⊢
  cases found with
  | none => rfl
  | some => rfl

theorem closeGroup : scan.closeGroup.IsLike scan'.closeGroup := by
  have sameGroups : ∀ first second : Token, first.IsLike second →
      (!first.opensGroup) = !second.opensGroup :=
    fun _ _ alike => congrArg not alike.opensGroup_eq
  constructor
  · exact List.rel_append (List.rel_reverse (forall₂_takeWhile alike.waiting sameGroups))
      alike.output
  · have outer := List.forall₂_drop 1 (forall₂_dropWhile alike.waiting sameGroups)
    rwa [List.drop_one, List.drop_one] at outer
  · exact alike.needsOperand

theorem pushBinary {token token' : Token} (alike' : token.IsLike token') :
    (scan.pushBinary token).IsLike (scan'.pushBinary token') := by
  have sameOrder : ∀ first second : Token, first.IsLike second →
      first.goesBefore token = second.goesBefore token' :=
    fun _ _ alike => alike.goesBefore_eq alike'
  constructor
  · exact List.rel_append (List.rel_reverse (forall₂_takeWhile alike.waiting sameOrder))
      alike.output
  · exact .cons alike' (forall₂_dropWhile alike.waiting sameOrder)
  · rfl

theorem step {token token' : Token} (alike' : token.IsLike token') :
    (scan.step token).IsLike (scan'.step token') := by
  unfold OperatorScan.step
  rw [alike'.role_eq, alike.any_opensGroup_eq, alike.needsOperand]
  cases token'.role with
  | outside => exact .stop
  | operand =>
      dsimp only
      split
      · exact .proceed ⟨.cons alike' alike.output, alike.waiting, rfl⟩
      · exact .stop
  | opening =>
      dsimp only
      split
      · exact .proceed ⟨alike.output, .cons alike' alike.waiting, rfl⟩
      · exact .stop
  | closing =>
      dsimp only
      split_ifs
      · exact .stop
      · exact .fail (alike'.atToken _)
      · exact .proceed alike.closeGroup
  | binary =>
      dsimp only
      split
      · exact .fail (alike'.atToken _)
      · exact .proceed (alike.pushBinary alike')

theorem finish {following following' : Token} (alike' : following.IsLike following') :
    OutcomesAgree (List.Forall₂ Token.IsLike) (scan.finish following)
      (scan'.finish following') := by
  have found := optionRel_find? alike.waiting fun _ _ alike => alike.opensGroup_eq
  unfold OperatorScan.finish
  rw [alike.needsOperand]
  split
  · exact .error (alike'.atToken _)
  · generalize scan.waiting.find? Token.opensGroup = parenthesis? at found ⊢
    generalize scan'.waiting.find? Token.opensGroup = parenthesis'? at found ⊢
    cases found with
    | none => exact .ok (List.rel_append (List.rel_reverse alike.output) alike.waiting)
    | some alike =>
        dsimp only
        rw [alike.span_eq]
        exact .error (.same _)

end OperatorScan.IsLike

/-! ## Parsers -/

/-- Two places in token lists that are alike from there on. -/
structure Cursor.IsLike (first second : Cursor) : Prop where
  rest : List.Forall₂ Token.IsLike first.rest second.rest
  position : first.position = second.position
  endOffset : first.endOffset = second.endOffset

theorem Cursor.IsLike.current {first second : Cursor} (alike : first.IsLike second) :
    first.current.IsLike second.current := by
  rcases first with ⟨rest, position, endOffset⟩
  rcases second with ⟨rest', position', endOffset'⟩
  rcases alike with ⟨related, _, rfl⟩
  cases related with
  | nil => exact .same _
  | cons head _ => exact head

theorem Cursor.IsLike.advance {first second : Cursor} (alike : first.IsLike second) :
    first.advance.IsLike second.advance := by
  constructor
  · have behind := List.forall₂_drop 1 alike.rest
    rwa [List.drop_one, List.drop_one] at behind
  · exact congrArg (· + 1) alike.position
  · exact alike.endOffset

namespace Parser

variable {α β : Type}

/-- The results are related and leave cursors that are alike, or the errors are alike. -/
inductive Outcome.Agree (Related : α → α → Prop) :
    EStateM.Result SyntaxError Cursor α → EStateM.Result SyntaxError Cursor α → Prop
  | ok {result result' : α} {last last' : Cursor} (related : Related result result')
      (alike : last.IsLike last') : Agree Related (.ok result last) (.ok result' last')
  | error {error error' : SyntaxError} {last last' : Cursor} (alike : error.IsLike error') :
      Agree Related (.error error last) (.error error' last')

/-- On cursors that are alike two parsers do the same. -/
def Agree (Related : α → α → Prop) (parser parser' : Parser α) : Prop :=
  ∀ cursor cursor', cursor.IsLike cursor' →
    Outcome.Agree Related (parser cursor) (parser' cursor')

variable {Related : α → α → Prop} {Related' : β → β → Prop} {parser parser' : Parser α}

theorem agree_pure {result result' : α} (related : Related result result') :
    Agree Related (pure result) (pure result') :=
  fun _ _ alike => .ok related alike

theorem agree_throw {error error' : SyntaxError} (alike : error.IsLike error') :
    Agree Related (throw error) (throw error') :=
  fun _ _ _ => .error alike

theorem agree_ofExcept {outcome outcome' : Except SyntaxError α}
    (agree : OutcomesAgree Related outcome outcome') :
    Agree Related (MonadExcept.ofExcept outcome) (MonadExcept.ofExcept outcome') := by
  intro cursor cursor' alike
  rw [ofExcept_apply, ofExcept_apply]
  cases agree with
  | ok related => exact .ok related alike
  | error alike => exact .error alike

theorem Agree.bind {next next' : α → Parser β} (first : Agree Related parser parser')
    (further : ∀ result result', Related result result' →
      Agree Related' (next result) (next' result')) :
    Agree Related' (parser >>= next) (parser' >>= next') := by
  intro cursor cursor' alike
  rw [bind_apply, bind_apply]
  have outcomes := first cursor cursor' alike
  generalize parser cursor = outcome at outcomes ⊢
  generalize parser' cursor' = outcome' at outcomes ⊢
  cases outcomes with
  | ok related alike => exact further _ _ related _ _ alike
  | error alike => exact .error alike

/-- What follows a result that is the same need only agree for this result. -/
theorem Agree.bind_eq {next next' : α → Parser β} (first : Agree (· = ·) parser parser')
    (further : ∀ result, Agree Related' (next result) (next' result)) :
    Agree Related' (parser >>= next) (parser' >>= next') :=
  first.bind fun result _ same => same ▸ further result

theorem Agree.map_eq (agree : Agree (· = ·) parser parser') (f : α → β) :
    Agree (· = ·) (f <$> parser) (f <$> parser') := by
  rw [map_eq_pure_bind, map_eq_pure_bind]
  exact agree.bind_eq fun _ => agree_pure rfl

theorem Agree.ite {second second' : Parser α} (isFirst : Agree Related parser parser')
    (isSecond : Agree Related second second') (condition : Bool) :
    Agree Related (if condition then parser else second)
      (if condition then parser' else second') := by
  cases condition with
  | true => exact isFirst
  | false => exact isSecond

theorem agree_peek : Agree Token.IsLike peek peek :=
  fun _ _ alike => .ok alike.current alike

theorem agree_skip : Agree (· = ·) skip skip :=
  fun _ _ alike => .ok rfl alike.advance

theorem agree_sees (terminal : Terminal) : Agree (· = ·) (sees terminal) (sees terminal) :=
  fun _ _ alike => .ok (alike.current.accepts_eq terminal) alike

theorem agree_seesAssignment : Agree (· = ·) seesAssignment seesAssignment := by
  intro cursor cursor' alike
  refine .ok ?_ alike
  rw [ahead?_accepts, ahead?_accepts]
  exact alike.advance.current.accepts_eq _

/-- A token that is expected is accepted in both lists. -/
theorem agree_expect (terminal : Terminal) :
    Agree (fun token token' => token.IsLike token' ∧ terminal.accepts token)
      (expect terminal) (expect terminal) := by
  intro cursor cursor' alike
  rw [expect_apply, expect_apply, ← alike.current.accepts_eq]
  split
  case isTrue accepted => exact .ok ⟨alike.current, accepted⟩ alike.advance
  case isFalse => exact .error (alike.current.atToken _)

theorem Agree.expect_then {next next' : Parser β} (terminal : Terminal)
    (further : Agree Related' next next') :
    Agree Related' (do let _ ← expect terminal; next) (do let _ ← expect terminal; next') :=
  (agree_expect terminal).bind fun _ _ _ => further

theorem agree_ite_sees {second second' : Parser α} (terminal : Terminal)
    (isFirst : Agree Related parser parser') (isSecond : Agree Related second second') :
    Agree Related (do if ← sees terminal then parser else second)
      (do if ← sees terminal then parser' else second') :=
  (agree_sees terminal).bind_eq fun sees => isFirst.ite isSecond sees

/-! ## Expressions -/

theorem agree_scanOperators : Agree OperatorScan.IsLike scanOperators scanOperators := by
  have runs : ∀ {tokens tokens' : List Token}, List.Forall₂ Token.IsLike tokens tokens' →
      ∀ (endOffset position : Nat) {scan scan' : OperatorScan}, scan.IsLike scan' →
        Outcome.Agree OperatorScan.IsLike (OperatorScan.run endOffset tokens position scan)
          (OperatorScan.run endOffset tokens' position scan') := by
    intro tokens tokens' related endOffset
    induction related with
    | nil => exact fun _ _ _ alike => .ok alike ⟨.nil, rfl, rfl⟩
    | cons head rest ih =>
        intro position scan scan' alike
        rw [OperatorScan.run, OperatorScan.run]
        have steps := alike.step head
        generalize scan.step _ = consequence at steps ⊢
        generalize scan'.step _ = consequence' at steps ⊢
        cases steps with
        | stop => exact .ok alike ⟨.cons head rest, rfl, rfl⟩
        | fail alike => exact .error alike
        | proceed alike => exact ih (position + 1) alike
  rintro ⟨tokens, position, endOffset⟩ ⟨tokens', _, _⟩ ⟨related, rfl, rfl⟩
  exact runs related endOffset position ⟨.nil, .nil, rfl⟩

theorem agree_expression : Agree (· = ·) expression expression := by
  refine agree_scanOperators.bind fun scan scan' alike =>
    agree_peek.bind fun token token' here => ?_
  refine (agree_ofExcept (alike.finish here)).bind fun sequence sequence' related => ?_
  exact agree_ofExcept (exprOfPostorder_agree here related)

/-! ## Statements and programs -/

theorem agree_assignment : Agree (· = ·) assignment assignment := by
  refine (agree_expect _).bind fun name name' named => .expect_then _ ?_
  -- A name is no number, so it is the same token in both lists.
  obtain ⟨alike, accepted⟩ := named
  have isName : name.category = .identifier := by
    simp only [Terminal.accepts, Bool.and_eq_true, decide_eq_true_eq] at accepted
    exact accepted.1
  obtain rfl : name = name' := alike.eq_of_category (by simp [isName])
  exact agree_expression.bind_eq fun _ => .expect_then _ (agree_pure rfl)

theorem agree_printStatement : Agree (· = ·) printStatement printStatement :=
  agree_expression.bind_eq fun _ => .expect_then _ (agree_pure rfl)

theorem agree_expressionStatement : Agree (· = ·) expressionStatement expressionStatement :=
  agree_expression.bind_eq fun _ => .expect_then _ (agree_pure rfl)

section Blocks

variable {block : Parser Block} (agree : Agree (· = ·) block block)

include agree

theorem agree_loop : Agree (· = ·) (loop block) (loop block) :=
  agree_expression.bind_eq fun _ => .expect_then _ (agree.bind_eq fun _ =>
    .expect_then _ (agree_pure rfl))

theorem agree_conditional : Agree (· = ·) (conditional block) (conditional block) := by
  refine agree_expression.bind_eq fun _ => .expect_then _ (agree.bind_eq fun _ =>
    agree_ite_sees _ ?_ ?_)
  · exact agree_skip.bind_eq fun _ => agree.bind_eq fun _ => .expect_then _ (agree_pure rfl)
  · exact .expect_then _ (agree_pure rfl)

theorem agree_statement? : Agree (· = ·) (statement? block) (statement? block) := by
  apply agree_ite_sees _ (agree_pure rfl)
  apply agree_ite_sees _ (agree_pure rfl)
  apply agree_ite_sees _ (agree_skip.bind_eq fun _ => (agree_conditional agree).map_eq some)
  apply agree_ite_sees _ (agree_skip.bind_eq fun _ => (agree_loop agree).map_eq some)
  apply agree_ite_sees
  · exact agree_seesAssignment.bind_eq fun sees =>
      (agree_assignment.map_eq some).ite (agree_expressionStatement.map_eq some) sees
  · exact agree_ite_sees _ (agree_skip.bind_eq fun _ => agree_printStatement.map_eq some)
      (agree_pure rfl)

theorem agree_blockRest (statement? : Option Stmt) :
    Agree (· = ·) (blockRest block statement?) (blockRest block statement?) := by
  cases statement? with
  | none => exact agree_pure rfl
  | some statement => exact agree.bind_eq fun _ => agree_pure rfl

end Blocks

theorem agree_blockWithin (bound : Nat) :
    Agree (· = ·) (blockWithin bound) (blockWithin bound) := by
  induction bound with
  | zero => exact agree_pure rfl
  | succ bound ih =>
      rw [blockWithin_succ]
      exact (agree_statement? ih).bind_eq (agree_blockRest ih)

theorem agree_block : Agree (· = ·) block block := by
  intro cursor cursor' alike
  change Outcome.Agree _ (blockWithin _ cursor) (blockWithin _ cursor')
  rw [alike.rest.length_eq]
  exact agree_blockWithin cursor'.rest.length cursor cursor' alike

theorem agree_program : Agree (· = ·) program program := by
  refine agree_block.bind_eq fun statements => agree_peek.bind fun token token' alike => ?_
  rw [alike.isEnd_eq]
  exact (agree_pure rfl).ite (agree_throw (alike.atToken _)) token'.isEnd

end Parser

/-- Token lists that are alike are the same program or have errors that are alike. -/
theorem parseTokens_agree {tokens tokens' : List Token}
    (related : List.Forall₂ Token.IsLike tokens tokens') (endOffset : Nat) :
    OutcomesAgree (· = ·) (parseTokens tokens endOffset) (parseTokens tokens' endOffset) := by
  have outcomes := Parser.agree_program (.ofTokens tokens endOffset) (.ofTokens tokens' endOffset)
    ⟨related, rfl, rfl⟩
  unfold parseTokens
  generalize Parser.program (.ofTokens tokens endOffset) = outcome at outcomes ⊢
  generalize Parser.program (.ofTokens tokens' endOffset) = outcome' at outcomes ⊢
  cases outcomes with
  | ok same => exact .ok same
  | error alike => exact .error alike

end WhileLang
