import Mathlib
import WhileLang.Proofs.Parsing.Block

/-!
# Termination and the range of the cursor

The parsers for blocks and statements call each other, and the pass over an expression is a
loop.  Each of them is the solution of an equation, its body.  It terminates on a token list
because unfolding the body more often than tokens are left never reaches the bottom of the
unfolding, so it makes no difference what stands there.

What makes the unfolding end is that every statement takes a token.  Also, no parser moves
the cursor back or over the end of the list, and all but the parser for blocks move it
forward when they succeed.  A block gets a statement only after the cursor has moved.
-/

namespace WhileLang

/-- The cursor at a place of a token list, which may lie behind its last token. -/
def Cursor.ofTokensFrom (tokens : List Token) (place endOffset : Nat) : Cursor :=
  { rest := tokens.drop place, position := place, endOffset }

namespace Cursor.Passes

variable {cursor next : Cursor} {passed : List Token}

theorem position_le (passes : cursor.Passes passed next) : cursor.position ≤ next.position := by
  rw [passes.position]
  exact Nat.le_add_right _ _

/-- A cursor with fewer tokens left stands further on. -/
theorem position_lt (passes : cursor.Passes passed next)
    (fewer : next.rest.length < cursor.rest.length) : cursor.position < next.position := by
  have lengths := congrArg List.length passes.rest
  rw [List.length_append] at lengths
  rw [passes.position]
  omega

/-- From a place of a list a cursor comes to a place of the same list, no further than its
end. -/
theorem ofTokensFrom {tokens : List Token} {place endOffset : Nat}
    (passes : (Cursor.ofTokensFrom tokens place endOffset).Passes passed next) :
    next = Cursor.ofTokensFrom tokens next.position endOffset ∧
      next.position ≤ max place tokens.length := by
  rcases next with ⟨rest, position, nextEnd⟩
  obtain ⟨isRest, isPosition, sameEnd⟩ := passes
  have isRest : tokens.drop place = passed ++ rest := isRest
  have isPosition : position = place + passed.length := isPosition
  have sameEnd : nextEnd = endOffset := sameEnd
  have bounded : passed.length ≤ tokens.length - place := by
    rw [← List.length_drop, isRest, List.length_append]
    exact Nat.le_add_right _ _
  constructor
  · have behind : tokens.drop position = rest := by
      rw [isPosition, ← List.drop_drop, isRest, List.drop_left]
    simp [Cursor.ofTokensFrom, behind, sameEnd]
  · change position ≤ max place tokens.length
    omega

end Cursor.Passes

namespace Parser

variable {α β : Type}

/-! ## The range of the cursor -/

/-- At any place of any token list the parser leaves the cursor at a place of the list that
is neither before that place nor behind the end, whether it succeeds or fails. -/
def StaysInRange (parser : Parser α) : Prop :=
  ∀ tokens place endOffset, ∃ place',
    Outcome.cursor (parser (Cursor.ofTokensFrom tokens place endOffset)) =
        Cursor.ofTokensFrom tokens place' endOffset ∧
      place ≤ place' ∧ place' ≤ max place tokens.length

/-- When the parser succeeds it has moved the cursor forward. -/
def Advances (parser : Parser α) : Prop :=
  ∀ {cursor next result}, parser cursor = .ok result next → cursor.position < next.position

theorem IsLocal.staysInRange {parser : Parser α} (isLocal : parser.IsLocal) :
    parser.StaysInRange := by
  intro tokens place endOffset
  obtain ⟨passed, passes, _⟩ := isLocal (Cursor.ofTokensFrom tokens place endOffset)
  obtain ⟨isPlace, inRange⟩ := passes.ofTokensFrom
  exact ⟨_, isPlace, passes.position_le, inRange⟩

theorem IsLocal.position_le {parser : Parser α} (isLocal : parser.IsLocal) (cursor : Cursor) :
    cursor.position ≤ (Outcome.cursor (parser cursor)).position := by
  obtain ⟨passed, passes, _⟩ := isLocal cursor
  exact passes.position_le

theorem IsLocal.position_lt {parser : Parser α} (isLocal : parser.IsLocal) {cursor next : Cursor}
    {result : α} (reads : parser cursor = .ok result next)
    (fewer : next.rest.length < cursor.rest.length) : cursor.position < next.position := by
  obtain ⟨passed, passes, _⟩ := isLocal cursor
  rw [reads] at passes
  exact passes.position_lt fewer

theorem TakesToken.advances {parser : Parser α} (takes : parser.TakesToken)
    (isLocal : parser.IsLocal) : parser.Advances :=
  fun reads => isLocal.position_lt reads (takes reads)

/-! ## Expressions and statements take tokens -/

/-- An expression needs an operand, and so it takes a token. -/
theorem takesToken_expression : expression.TakesToken := by
  intro cursor next tree reads
  rw [OperatorScan.expression_eq_toTree_start] at reads
  cases step : OperatorScan.start.step cursor.current with
  | stop =>
      rw [OperatorScan.toTree_of_stop step] at reads
      cases reads
  | fail error =>
      rw [OperatorScan.toTree_of_fail step] at reads
      cases reads
  | proceed after =>
      rw [OperatorScan.toTree_congr (OperatorScan.goOn_of_proceed step)] at reads
      exact Nat.lt_of_le_of_lt ((isLocal_toTree after).length_le reads)
        (length_advance_lt_of_proceed step)

/-- The forms that a statement can have. -/
inductive Form where
  | conditional
  | loop
  | assignment
  | print
  | expression
deriving DecidableEq

namespace Form

/-- The parser for statements of a form. -/
def parser (block : Parser Block) : Form → Parser Stmt
  | .conditional => Parser.conditional block
  | .loop => Parser.loop block
  | .assignment => Parser.assignment
  | .print => Parser.printStatement
  | .expression => Parser.expressionStatement

/-- What stands behind the name in an assignment. -/
theorem isLocal_assigned (name : Token) :
    (do let _ ← expect (.reserved ":=")
        let value ← Parser.expression
        let _ ← expect (.reserved ";")
        return .assign name.value.render value : Parser Stmt).IsLocal :=
  (isLocal_expect (by simp)).bind fun _ => isLocal_expression.bind fun value =>
    isLocal_closedBy ";" (Stmt.assign name.value.render value)

variable {block : Parser Block}

theorem isLocal (isLocal : block.IsLocal) (form : Form) : (form.parser block).IsLocal := by
  cases form with
  | conditional => exact isLocal_conditional isLocal
  | loop => exact isLocal_loop isLocal
  | assignment => exact (isLocal_expect (by simp)).bind isLocal_assigned
  | print => exact isLocal_printStatement
  | expression =>
      exact isLocal_expression.bind fun value => isLocal_closedBy ";" (Stmt.expression value)

/-- A statement begins with an expression or an identifier, and so it takes a token. -/
theorem takesToken (isLocal : block.IsLocal) (form : Form) : (form.parser block).TakesToken := by
  cases form with
  | conditional =>
      exact TakesToken.bind takesToken_expression (isLocal_conditionalRest isLocal)
  | loop => exact TakesToken.bind takesToken_expression (isLocal_loopRest isLocal)
  | assignment => exact TakesToken.bind (takesToken_expect (by simp)) isLocal_assigned
  | print =>
      exact TakesToken.bind takesToken_expression fun value =>
        isLocal_closedBy ";" (Stmt.print value)
  | expression =>
      exact TakesToken.bind takesToken_expression fun value =>
        isLocal_closedBy ";" (Stmt.expression value)

end Form

/-! ## Unfolding the recursion -/

/-- The body of the parser for blocks: a block is empty, or a statement and the rest of the
block. -/
def blockBody (block : Parser Block) : Parser Block :=
  statement? block >>= blockRest block

/-- The body of the pass over an expression. -/
def scanBody (goOn : OperatorScan → Parser OperatorScan) (scan : OperatorScan) :
    Parser OperatorScan :=
  fun cursor =>
    match scan.step cursor.current with
    | .stop => .ok scan cursor
    | .fail error => .error error cursor
    | .proceed after => goOn after cursor.advance

theorem AgreeBelow.mono {bound smaller : Nat} {first second : Parser α}
    (agree : AgreeBelow bound first second) (le : smaller ≤ bound) :
    AgreeBelow smaller first second :=
  fun cursor shorter => agree cursor (Nat.lt_of_lt_of_le shorter le)

/-- A parser agrees with the parser for blocks on one token more if it is used for the
blocks behind the first token. -/
theorem AgreeBelow.blockBody {bound : Nat} {other : Parser Block}
    (agree : AgreeBelow bound block other) :
    AgreeBelow (bound + 1) block (blockBody other) := by
  intro cursor shorter
  have within := agree.mono (Nat.le_of_lt_succ shorter)
  rw [congrFun block_eq cursor, Parser.blockBody, bind_apply, bind_apply,
    ← statement?_congr isLocal_block within]
  cases outcome : statement? block cursor with
  | error error next => rfl
  | ok statement? next =>
      cases statement? with
      | none => rfl
      | some statement =>
          have fewer := statement?_length_lt isLocal_block outcome
          simp only [blockRest, bind_apply, within next fewer]

/-- Below the number of unfoldings the parser for blocks never reaches the bottom. -/
theorem agreeBelow_iterate_blockBody (count : Nat) (bottom : Parser Block) :
    AgreeBelow count block (blockBody^[count] bottom) := by
  induction count with
  | zero =>
      intro cursor shorter
      exact absurd shorter (Nat.not_lt_zero _)
  | succ count ih =>
      rw [Function.iterate_succ_apply']
      exact ih.blockBody

theorem AgreeBelow.form {bound : Nat} {block' : Parser Block}
    (agree : AgreeBelow bound block block') (form : Form) :
    AgreeBelow bound (form.parser block) (form.parser block') := by
  cases form with
  | conditional => exact agree.conditional isLocal_block
  | loop => exact agree.loop isLocal_block
  | assignment => exact .refl _ _
  | print => exact .refl _ _
  | expression => exact .refl _ _

/-- Below the number of unfoldings a pass never reaches the bottom. -/
theorem agreeBelow_iterate_scanBody (count : Nat) (bottom : OperatorScan → Parser OperatorScan)
    (scan : OperatorScan) : AgreeBelow count scan.goOn (scanBody^[count] bottom scan) := by
  induction count generalizing scan with
  | zero =>
      intro cursor shorter
      exact absurd shorter (Nat.not_lt_zero _)
  | succ count ih =>
      intro cursor shorter
      rw [Function.iterate_succ_apply']
      unfold scanBody
      cases step : scan.step cursor.current with
      | stop => exact OperatorScan.goOn_of_stop step
      | fail error => exact OperatorScan.goOn_of_fail step
      | proceed after =>
          rw [OperatorScan.goOn_of_proceed step]
          exact ih after _ (Nat.lt_of_lt_of_le (length_advance_lt_of_proceed step)
            (Nat.le_of_lt_succ shorter))

/-! ## The statements of a block -/

/-- How a block is read.  It ends where no statement begins or where a statement fails, and
before that every statement is added behind a cursor that has moved forward. -/
inductive BlockTrace : Cursor → Reading → Prop
  | done {cursor next : Cursor} (ends : statement? block cursor = .ok none next) :
      BlockTrace cursor { statements := [], error? := none, cursor := next }
  | fails {cursor next : Cursor} {error : SyntaxError}
      (fails : statement? block cursor = .error error next) :
      BlockTrace cursor { statements := [], error? := some error, cursor := next }
  | pushes {cursor next : Cursor} {statement : Stmt} {reading : Reading}
      (reads : statement? block cursor = .ok (some statement) next)
      (advances : cursor.position < next.position) (rest : BlockTrace next reading) :
      BlockTrace cursor { reading with statements := statement :: reading.statements }

theorem readWithin_trace {bound : Nat} {cursor : Cursor} (bounded : cursor.rest.length ≤ bound) :
    BlockTrace cursor (readWithin bound cursor) := by
  induction bound generalizing cursor with
  | zero =>
      have empty : cursor.rest = [] := List.length_eq_zero_iff.mp (Nat.le_zero.mp bounded)
      exact .done (statement?_of_rest_eq_nil empty)
  | succ bound ih =>
      -- The bound suffices for the blocks inside the statement, so there it can be forgotten.
      have agree : AgreeBelow cursor.rest.length block (blockWithin bound) :=
        fun next shorter => block_apply_eq (by omega)
      have same : statement? (fun cursor => (readWithin bound cursor).result) cursor =
          statement? block cursor :=
        (statement?_congr isLocal_block agree).symm
      rw [readWithin, same]
      cases outcome : statement? block cursor with
      | error error next => exact .fails outcome
      | ok statement? next =>
          cases statement? with
          | none => exact .done outcome
          | some statement =>
              have fewer := statement?_length_lt isLocal_block outcome
              have advances := (isLocal_statement? isLocal_block).position_lt outcome fewer
              exact .pushes outcome advances (ih (by omega))

theorem read_trace (cursor : Cursor) : BlockTrace cursor (read cursor) :=
  readWithin_trace (Nat.le_refl _)

/-- A block gets no more statements than the cursor has moved. -/
theorem BlockTrace.length_le {cursor : Cursor} {reading : Reading}
    (trace : BlockTrace cursor reading) :
    cursor.position + reading.statements.length ≤ reading.cursor.position := by
  have moves := (isLocal_statement? isLocal_block).position_le
  induction trace with
  | @done cursor next ends =>
      have moved := moves cursor
      rw [ends] at moved
      exact moved
  | @fails cursor next error fails =>
      have moved := moves cursor
      rw [fails] at moved
      exact moved
  | pushes _ advances _ ih =>
      simp only [List.length_cons]
      omega

/-- The parser terminates on every token list from every place on, and keeps the cursor in
range.  No more unfoldings of a recursion are needed than tokens are left and one.  Wherever
a parser begins, it leaves the cursor in the list and not before that place, and every
parser but the one for blocks moves the cursor forward when it succeeds.  A block gets a
statement only after the cursor has moved forward, so it gets no more statements than tokens
were passed, also when it fails in the end. -/
theorem terminates_in_range :
    (∀ count bottom, AgreeBelow count block (blockBody^[count] bottom) ∧
        (∀ form : Form,
          AgreeBelow count (form.parser block) (form.parser (blockBody^[count] bottom)))) ∧
      (∀ count bottom, AgreeBelow count scanOperators (scanBody^[count] bottom .start)) ∧
      (block.StaysInRange ∧ expression.StaysInRange ∧
        ∀ form : Form, (form.parser block).StaysInRange) ∧
      (expression.Advances ∧ ∀ form : Form, (form.parser block).Advances) ∧
      ∀ cursor, BlockTrace cursor (read cursor) ∧
        cursor.position + (read cursor).statements.length ≤ (read cursor).cursor.position := by
  constructor
  · intro count bottom
    have agree := agreeBelow_iterate_blockBody count bottom
    exact ⟨agree, agree.form⟩
  constructor
  · exact fun count bottom => agreeBelow_iterate_scanBody count bottom .start
  constructor
  · exact ⟨isLocal_block.staysInRange, isLocal_expression.staysInRange,
      fun form => (form.isLocal isLocal_block).staysInRange⟩
  constructor
  · have advances : ∀ form : Form, (form.parser block).Advances := fun form =>
      TakesToken.advances (form.takesToken isLocal_block) (form.isLocal isLocal_block)
    exact ⟨TakesToken.advances takesToken_expression isLocal_expression, advances⟩
  · exact fun cursor => ⟨read_trace cursor, (read_trace cursor).length_le⟩

end Parser

end WhileLang
