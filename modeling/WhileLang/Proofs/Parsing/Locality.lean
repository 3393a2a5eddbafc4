import WhileLang.Parsing.Statement
import WhileLang.Proofs.Parsing.OperatorScan

/-!
# What a parser looks at

A parser passes over some tokens and stops at the one behind them.  Nothing else has
a part in what it does: on any other token list that begins with the passed tokens
and goes on with the same token, it passes over the same tokens and ends in the same
way.  Past the last token stands the mark of the end, so it makes no difference
whether that mark is written down.
-/

namespace WhileLang

/-- Moving on from a cursor over some tokens leads to another. -/
structure Cursor.Passes (cursor : Cursor) (tokens : List Token) (next : Cursor) : Prop where
  rest : cursor.rest = tokens ++ next.rest
  position : next.position = cursor.position + tokens.length
  endOffset : next.endOffset = cursor.endOffset

namespace Cursor.Passes

variable {cursor middle next : Cursor} {tokens first second : List Token}

theorem refl (cursor : Cursor) : cursor.Passes [] cursor :=
  ⟨rfl, rfl, rfl⟩

theorem trans (passesFirst : cursor.Passes first middle)
    (passesSecond : middle.Passes second next) : cursor.Passes (first ++ second) next where
  rest := by rw [passesFirst.rest, passesSecond.rest, List.append_assoc]
  position := by
    rw [passesSecond.position, passesFirst.position, List.length_append, Nat.add_assoc]
  endOffset := passesSecond.endOffset.trans passesFirst.endOffset

theorem unique {other : Cursor} (passes : cursor.Passes tokens next)
    (passesOther : cursor.Passes tokens other) : next = other := by
  rcases next with ⟨nextRest, nextPosition, nextEnd⟩
  rcases other with ⟨otherRest, otherPosition, otherEnd⟩
  rcases passes with ⟨rest, position, endOffset⟩
  rcases passesOther with ⟨rest', position', endOffset'⟩
  have sameRest := List.append_cancel_left (rest.symm.trans rest')
  simp_all

theorem tokens_unique {others : List Token} (passes : cursor.Passes tokens next)
    (passesOthers : cursor.Passes others next) : tokens = others :=
  List.append_cancel_right (passes.rest.symm.trans passesOthers.rest)

/-- Passing over a list is passing over any beginning of it first. -/
theorem split (first : List Token) (passes : cursor.Passes (first ++ second) next) :
    ∃ middle, cursor.Passes first middle ∧ middle.Passes second next := by
  refine ⟨⟨second ++ next.rest, cursor.position + first.length, cursor.endOffset⟩, ?_, ?_⟩
  · exact ⟨by rw [passes.rest, List.append_assoc], rfl, rfl⟩
  · exact ⟨rfl, by rw [passes.position, List.length_append, Nat.add_assoc], passes.endOffset⟩

theorem current {token : Token} (passes : cursor.Passes (token :: tokens) next) :
    cursor.current = token := by
  simp [Cursor.current, passes.rest]

theorem advance {token : Token} (passes : cursor.Passes [token] next) : cursor.advance = next := by
  rcases next with ⟨nextRest, nextPosition, nextEnd⟩
  rcases passes with ⟨rest, position, endOffset⟩
  simp_all [Cursor.advance]

/-- Passing over a first token is moving on. -/
theorem uncons {token : Token} (passes : cursor.Passes (token :: tokens) next) :
    cursor.current = token ∧ cursor.advance.Passes tokens next := by
  obtain ⟨middle, first, rest⟩ := passes.split [token]
  exact ⟨passes.current, first.advance ▸ rest⟩

/-- Passing over nothing leads nowhere. -/
theorem eq_of_nil (passes : cursor.Passes [] next) : next = cursor :=
  passes.unique (.refl cursor)

/-- Cursors over the same tokens with the same token behind them stand at the same one. -/
theorem current_congr {other otherNext : Cursor} (passes : cursor.Passes tokens next)
    (passesOther : other.Passes tokens otherNext) (sameNext : otherNext.current = next.current) :
    other.current = cursor.current := by
  cases tokens with
  | nil => rw [← passes.eq_of_nil, ← passesOther.eq_of_nil, sameNext]
  | cons token tokens => exact passesOther.current.trans passes.current.symm

theorem of_head? {token : Token} (head : cursor.rest.head? = some token) :
    cursor.Passes [token] cursor.advance := by
  refine ⟨?_, rfl, rfl⟩
  simp only [Cursor.advance]
  cases rest : cursor.rest with
  | nil => simp [rest] at head
  | cons first tokens =>
      have sameToken : first = token := by simpa [rest] using head
      simp [sameToken]

theorem length_le (passes : cursor.Passes tokens next) :
    next.rest.length ≤ cursor.rest.length := by
  rw [passes.rest, List.length_append]
  exact Nat.le_add_left _ _

end Cursor.Passes

namespace Parser

variable {α β : Type}

/-- Where a parser leaves the cursor. -/
def Outcome.cursor : EStateM.Result SyntaxError Cursor α → Cursor
  | .ok _ next => next
  | .error _ next => next

/-- The same end of a parser with the cursor at another place. -/
def Outcome.moveTo (next : Cursor) :
    EStateM.Result SyntaxError Cursor α → EStateM.Result SyntaxError Cursor α
  | .ok result _ => .ok result next
  | .error error _ => .error error next

/-- What the parser does depends only on the tokens that it passes and on the one where
it stops. -/
def IsLocal (parser : Parser α) : Prop :=
  ∀ cursor, ∃ tokens, cursor.Passes tokens (Outcome.cursor (parser cursor)) ∧
    ∀ other next, Cursor.Passes other tokens next →
      next.current = (Outcome.cursor (parser cursor)).current →
        parser other = Outcome.moveTo next (parser cursor)

/-! ## Ways of putting parsers together -/

/-- A parser that looks at nothing but the token under the cursor, which stays, is
local. -/
theorem isLocal_of_stays {parser : Parser α}
    (outcome : Token → Cursor → EStateM.Result SyntaxError Cursor α)
    (stays : ∀ token cursor, Outcome.cursor (outcome token cursor) = cursor)
    (moves : ∀ token cursor next,
      outcome token next = Outcome.moveTo next (outcome token cursor))
    (reads : ∀ cursor, parser cursor = outcome cursor.current cursor) : parser.IsLocal := by
  intro cursor
  rw [reads, stays]
  refine ⟨[], .refl cursor, ?_⟩
  intro other next passes sameToken
  cases passes.eq_of_nil
  rw [reads, sameToken]
  exact moves _ _ _

theorem isLocal_pure (result : α) : (pure result : Parser α).IsLocal :=
  isLocal_of_stays (fun _ => .ok result) (fun _ _ => rfl) (fun _ _ _ => rfl) (fun _ => rfl)

theorem isLocal_throw (error : SyntaxError) : (throw error : Parser α).IsLocal :=
  isLocal_of_stays (fun _ => .error error) (fun _ _ => rfl) (fun _ _ _ => rfl) (fun _ => rfl)

theorem isLocal_peek : peek.IsLocal :=
  isLocal_of_stays (fun token => .ok token) (fun _ _ => rfl) (fun _ _ _ => rfl) (fun _ => rfl)

theorem isLocal_ofExcept (outcome : Except SyntaxError α) :
    (MonadExcept.ofExcept outcome : Parser α).IsLocal := by
  cases outcome with
  | ok result => exact isLocal_pure result
  | error error => exact isLocal_throw error

theorem IsLocal.bind {parser : Parser α} {next : α → Parser β} (first : parser.IsLocal)
    (second : ∀ result, (next result).IsLocal) : (parser >>= next).IsLocal := by
  intro cursor
  obtain ⟨tokens, passes, elsewhere⟩ := first cursor
  rw [bind_apply]
  cases outcome : parser cursor with
  | error error last =>
      rw [outcome] at passes elsewhere
      refine ⟨tokens, passes, ?_⟩
      intro other otherLast passesOther sameToken
      rw [bind_apply, elsewhere other otherLast passesOther sameToken]
      rfl
  | ok result middle =>
      rw [outcome] at passes elsewhere
      obtain ⟨more, passesMore, furtherOn⟩ := second result middle
      refine ⟨tokens ++ more, passes.trans passesMore, ?_⟩
      intro other otherLast passesOther sameToken
      obtain ⟨otherMiddle, passesFirst, passesSecond⟩ := passesOther.split tokens
      -- The first parser stops at the first of the further tokens, or where the second stops.
      have sameMiddle := passesMore.current_congr passesSecond sameToken
      rw [bind_apply, elsewhere other otherMiddle passesFirst sameMiddle]
      exact furtherOn otherMiddle otherLast passesSecond sameToken

theorem IsLocal.map {parser : Parser α} (isLocal : parser.IsLocal) (f : α → β) :
    (f <$> parser).IsLocal := by
  rw [map_eq_pure_bind]
  exact isLocal.bind fun result => isLocal_pure (f result)

/-! ## Parsers that pass over a token -/

theorem passes_of_accepts {terminal : Terminal} {cursor : Cursor}
    (notEnd : terminal ≠ .endOfInput) (accepts : terminal.accepts cursor.current) :
    cursor.Passes [cursor.current] cursor.advance := by
  apply Cursor.Passes.of_head?
  unfold Cursor.current at *
  cases rest : cursor.rest with
  | cons token tokens => rfl
  | nil =>
      rw [rest] at accepts
      cases terminal with
      | reserved text => simp [Terminal.accepts] at accepts
      | ofCategory category => simp [Terminal.accepts] at accepts
      | endOfInput => exact absurd rfl notEnd

theorem isLocal_expect {terminal : Terminal} (notEnd : terminal ≠ .endOfInput) :
    (expect terminal).IsLocal := by
  intro cursor
  rw [expect_apply]
  split
  case isTrue accepts =>
    refine ⟨[cursor.current], passes_of_accepts notEnd accepts, ?_⟩
    intro other next passes _
    rw [expect_apply, passes.current, if_pos accepts, passes.advance]
    rfl
  case isFalse rejects =>
    refine ⟨[], .refl cursor, ?_⟩
    intro other next passes sameToken
    cases passes.eq_of_nil
    have sameToken : other.current = cursor.current := sameToken
    rw [expect_apply, sameToken, if_neg rejects]
    rfl

/-- Passing over a word and yielding a result that is there already is local. -/
theorem isLocal_closedBy (text : String) (result : α) :
    (do let _ ← expect (.reserved text)
        return result : Parser α).IsLocal :=
  (isLocal_expect (by simp)).bind fun _ => isLocal_pure result

/-- Choosing by the token under the cursor, and passing over it in one case, is local. -/
theorem isLocal_ite_skip {terminal : Terminal} (notEnd : terminal ≠ .endOfInput)
    {found missing : Parser α} (isLocalFound : found.IsLocal) (isLocalMissing : missing.IsLocal) :
    (do if ← sees terminal then
          skip
          found
        else
          missing : Parser α).IsLocal := by
  intro cursor
  simp only [bind_apply, sees_apply, ite_apply, skip_apply]
  cases accepts : terminal.accepts cursor.current with
  | true =>
      simp only [if_true]
      obtain ⟨tokens, passes, elsewhere⟩ := isLocalFound cursor.advance
      refine ⟨cursor.current :: tokens, (passes_of_accepts notEnd accepts).trans passes, ?_⟩
      intro other next passesOther sameToken
      have sameFirst := passesOther.current
      obtain ⟨middle, first, second⟩ := passesOther.split [cursor.current]
      rw [sameFirst, accepts, if_pos rfl, first.advance]
      exact elsewhere middle next second sameToken
  | false =>
      simp only [Bool.false_eq_true, if_false]
      obtain ⟨tokens, passes, elsewhere⟩ := isLocalMissing cursor
      refine ⟨tokens, passes, ?_⟩
      intro other next passesOther sameToken
      have sameFirst := passes.current_congr passesOther sameToken
      rw [sameFirst, accepts, if_neg Bool.false_ne_true]
      exact elsewhere other next passesOther sameToken

theorem isLocal_sees (terminal : Terminal) : (sees terminal).IsLocal :=
  isLocal_of_stays (fun token => .ok (terminal.accepts token)) (fun _ _ => rfl) (fun _ _ _ => rfl)
    (fun _ => rfl)

theorem IsLocal.ite {first second : Parser α} (isLocalFirst : first.IsLocal)
    (isLocalSecond : second.IsLocal) (condition : Prop) [Decidable condition] :
    (if condition then first else second : Parser α).IsLocal := by
  split
  · exact isLocalFirst
  · exact isLocalSecond

/-! ## Expressions and statements -/

/-- A scan never goes on past the end. -/
theorem passes_of_proceed {scan after : OperatorScan} {cursor : Cursor}
    (proceeds : scan.step cursor.current = .proceed after) :
    cursor.Passes [cursor.current] cursor.advance := by
  apply Cursor.Passes.of_head?
  unfold Cursor.current at *
  cases rest : cursor.rest with
  | nil => simp [rest] at proceeds
  | cons token tokens => rfl

theorem length_advance_lt_of_proceed {scan after : OperatorScan} {cursor : Cursor}
    (proceeds : scan.step cursor.current = .proceed after) :
    cursor.advance.rest.length < cursor.rest.length := by
  rw [(passes_of_proceed proceeds).rest]
  exact Nat.lt_succ_self _

theorem isLocal_goOn (scan : OperatorScan) : scan.goOn.IsLocal := by
  intro cursor
  induction length : cursor.rest.length using Nat.strongRecOn generalizing scan cursor with
  | ind n ih =>
      cases step : scan.step cursor.current with
      | stop =>
          rw [OperatorScan.goOn_of_stop step]
          refine ⟨[], .refl cursor, ?_⟩
          intro other next passes sameToken
          cases passes.eq_of_nil
          have sameToken : other.current = cursor.current := sameToken
          rw [OperatorScan.goOn_of_stop (sameToken.symm ▸ step)]
          rfl
      | fail error =>
          rw [OperatorScan.goOn_of_fail step]
          refine ⟨[], .refl cursor, ?_⟩
          intro other next passes sameToken
          cases passes.eq_of_nil
          have sameToken : other.current = cursor.current := sameToken
          rw [OperatorScan.goOn_of_fail (sameToken.symm ▸ step)]
          rfl
      | proceed after =>
          have first := passes_of_proceed step
          have shorter : cursor.advance.rest.length < n :=
            length ▸ length_advance_lt_of_proceed step
          obtain ⟨tokens, passes, elsewhere⟩ := ih _ shorter after cursor.advance rfl
          rw [OperatorScan.goOn_of_proceed step]
          refine ⟨cursor.current :: tokens, first.trans passes, ?_⟩
          intro other next passesOther sameToken
          obtain ⟨middle, otherFirst, otherSecond⟩ := passesOther.split [cursor.current]
          rw [OperatorScan.goOn_of_proceed (passesOther.current.symm ▸ step), otherFirst.advance]
          exact elsewhere middle next otherSecond sameToken

theorem isLocal_toTree (scan : OperatorScan) : scan.toTree.IsLocal :=
  (isLocal_goOn scan).bind fun scan => isLocal_peek.bind fun following =>
    (isLocal_ofExcept (scan.finish following)).bind fun _ => isLocal_ofExcept _

theorem isLocal_expression : expression.IsLocal :=
  isLocal_toTree .start

theorem isLocal_printStatement : printStatement.IsLocal :=
  isLocal_expression.bind fun value => isLocal_closedBy ";" (Stmt.print value)

/-- The rest of a loop behind its condition. -/
def loopRest (block : Parser Block) (condition : Expr) : Parser Stmt := do
  let _ ← expect (.reserved "do")
  let body ← block
  let _ ← expect (.reserved "done")
  return .whileDo condition body

/-- The rest of a conditional behind its condition. -/
def conditionalRest (block : Parser Block) (condition : Expr) : Parser Stmt := do
  let _ ← expect (.reserved "then")
  let thenBranch ← block
  if ← sees (.reserved "else") then
    skip
    let elseBranch ← block
    let _ ← expect (.reserved "done")
    return .ifElse condition thenBranch elseBranch
  else
    let _ ← expect (.reserved "done")
    return .ifThen condition thenBranch

theorem isLocal_loopRest {block : Parser Block} (isLocal : block.IsLocal) (condition : Expr) :
    (loopRest block condition).IsLocal :=
  (isLocal_expect (by simp)).bind fun _ => isLocal.bind fun body =>
    isLocal_closedBy "done" (Stmt.whileDo condition body)

theorem isLocal_conditionalRest {block : Parser Block} (isLocal : block.IsLocal)
    (condition : Expr) : (conditionalRest block condition).IsLocal :=
  (isLocal_expect (by simp)).bind fun _ => isLocal.bind fun thenBranch =>
    isLocal_ite_skip (by simp)
      (isLocal.bind fun elseBranch =>
        isLocal_closedBy "done" (Stmt.ifElse condition thenBranch elseBranch))
      (isLocal_closedBy "done" (Stmt.ifThen condition thenBranch))

theorem isLocal_loop {block : Parser Block} (isLocal : block.IsLocal) : (loop block).IsLocal :=
  isLocal_expression.bind (isLocal_loopRest isLocal)

theorem isLocal_conditional {block : Parser Block} (isLocal : block.IsLocal) :
    (conditional block).IsLocal :=
  isLocal_expression.bind (isLocal_conditionalRest isLocal)

/-! ## Statements that begin with an identifier -/

/-- The rest of a statement behind the identifier with which it begins: of an assignment,
or of an expression that stands as a statement. -/
def namedRest (name : Token) : Parser Stmt := do
  if ← sees (.reserved ":=") then
    skip
    let value ← expression
    let _ ← expect (.reserved ";")
    return .assign name.value.render value
  else
    let value ← OperatorScan.toTree ⟨[name], [], false⟩
    let _ ← expect (.reserved ";")
    return .expression value

/-- A statement that begins with an identifier. -/
def named : Parser Stmt :=
  expect (.ofCategory .identifier) >>= namedRest

theorem isLocal_namedRest (name : Token) : (namedRest name).IsLocal :=
  isLocal_ite_skip (by simp)
    (isLocal_expression.bind fun value =>
      isLocal_closedBy ";" (Stmt.assign name.value.render value))
    ((isLocal_toTree _).bind fun value => isLocal_closedBy ";" (Stmt.expression value))

theorem isLocal_named : named.IsLocal :=
  (isLocal_expect (by simp)).bind isLocal_namedRest

theorem ahead?_accepts {text : String} (cursor : Cursor) :
    (cursor.ahead? 1).any (Terminal.reserved text).accepts =
      (Terminal.reserved text).accepts cursor.advance.current := by
  rcases cursor with ⟨rest, position, endOffset⟩
  match rest with
  | [] => simp [Cursor.ahead?, Cursor.advance, Cursor.current, Terminal.accepts]
  | [_] => simp [Cursor.ahead?, Cursor.advance, Cursor.current, Terminal.accepts]
  | _ :: _ :: _ => simp [Cursor.ahead?, Cursor.advance, Cursor.current]

theorem expression_eq_toTree_of_identifier {cursor : Cursor}
    (isName : (Terminal.ofCategory .identifier).accepts cursor.current) :
    expression cursor = OperatorScan.toTree ⟨[cursor.current], [], false⟩ cursor.advance := by
  have isName : cursor.current.category = .identifier ∧ cursor.current.isEnd = false := by
    simpa [Terminal.accepts] using isName
  have role : cursor.current.role = .operand := by
    simp [Token.role, isName.1, isName.2]
  have step : OperatorScan.start.step cursor.current =
      .proceed ⟨[cursor.current], [], false⟩ := by
    simp [OperatorScan.step, role, OperatorScan.start]
  exact OperatorScan.toTree_congr (OperatorScan.goOn_of_proceed step)

theorem named_apply {cursor : Cursor}
    (isName : (Terminal.ofCategory .identifier).accepts cursor.current) :
    named cursor =
      if (cursor.ahead? 1).any (Terminal.reserved ":=").accepts then
        assignment cursor
      else
        expressionStatement cursor := by
  rw [ahead?_accepts]
  simp only [named, namedRest, assignment, expressionStatement, bind_apply, expect_apply cursor,
    expect_apply cursor.advance (.reserved ":="), if_pos isName, sees_apply, ite_apply, skip_apply,
    expression_eq_toTree_of_identifier isName]
  split <;> rfl

theorem map_named_apply {cursor : Cursor}
    (isName : (Terminal.ofCategory .identifier).accepts cursor.current) :
    (some <$> named) cursor =
      (do if ← seesAssignment then
            some <$> assignment
          else
            some <$> expressionStatement : Parser (Option Stmt)) cursor := by
  simp only [map_apply, named_apply isName, bind_apply, seesAssignment, ite_apply]
  cases (cursor.ahead? 1).any (Terminal.reserved ":=").accepts <;> rfl

/-- A choice is local if what stands behind it is, on the tokens that lead there. -/
theorem isLocal_ite_sees {terminal : Terminal} {found local_ missing : Parser α}
    (same : ∀ cursor, terminal.accepts cursor.current → local_ cursor = found cursor)
    (isLocal : local_.IsLocal) (isLocalMissing : missing.IsLocal) :
    (do if ← sees terminal then found else missing : Parser α).IsLocal := by
  have rewritten : (do if ← sees terminal then found else missing : Parser α) =
      (do if ← sees terminal then local_ else missing) := by
    funext cursor
    simp only [bind_apply, sees_apply, ite_apply]
    split
    case isTrue accepts => exact (same cursor accepts).symm
    case isFalse => rfl
  rw [rewritten]
  exact (isLocal_sees terminal).bind fun _ => isLocal.ite isLocalMissing _

theorem isLocal_statement? {block : Parser Block} (isLocal : block.IsLocal) :
    (statement? block).IsLocal := by
  apply isLocal_ite_sees (fun _ _ => rfl) (isLocal_pure none)
  apply isLocal_ite_sees (fun _ _ => rfl) (isLocal_pure none)
  apply isLocal_ite_skip (by simp) ((isLocal_conditional isLocal).map some)
  apply isLocal_ite_skip (by simp) ((isLocal_loop isLocal).map some)
  apply isLocal_ite_sees (fun _ => map_named_apply) (isLocal_named.map some)
  exact isLocal_ite_skip (by simp) (isLocal_printStatement.map some) (isLocal_pure none)

/-- Reading a block within a bound, as a parser. -/
def blockWithin (bound : Nat) : Parser Block :=
  fun cursor => (readWithin bound cursor).result

/-- What is read of a block behind its first statement: nothing if there was none. -/
def blockRest (block : Parser Block) : Option Stmt → Parser Block
  | none => return []
  | some statement => do
      let rest ← block
      return statement :: rest

/-- A block is empty, or a statement and the rest of the block. -/
theorem blockWithin_succ (bound : Nat) :
    blockWithin (bound + 1) = statement? (blockWithin bound) >>= blockRest (blockWithin bound) := by
  funext cursor
  have folded : (fun cursor => (readWithin bound cursor).result) = blockWithin bound := rfl
  change (readWithin (bound + 1) cursor).result = _
  rw [readWithin, folded, bind_apply]
  cases statement? (blockWithin bound) cursor with
  | error error next => rfl
  | ok statement? next =>
      cases statement? with
      | none => rfl
      | some statement =>
          simp only [blockRest, bind_apply, blockWithin, Reading.result]
          cases (readWithin bound next).error? <;> rfl

theorem isLocal_blockWithin (bound : Nat) : (blockWithin bound).IsLocal := by
  induction bound with
  | zero => exact isLocal_pure []
  | succ bound ih =>
      rw [blockWithin_succ]
      apply (isLocal_statement? ih).bind
      intro statement?
      cases statement? with
      | none => exact isLocal_pure []
      | some statement => exact ih.bind fun rest => isLocal_pure (statement :: rest)

end Parser

end WhileLang
