import WhileLang.Proofs.Parsing.Block

/-!
# Where errors come from

A statement has few ways of its own to fail: something that it asks for does not stand
at the cursor.  Every other error was made by one of its expressions.  So whatever is to
be shown of all errors of a program has to be shown of the tokens at which a parser can
stop and of the errors of expressions.
-/

namespace WhileLang

/-- An error of a reading that began at a cursor was made at the token where the reading
stopped, or by an expression that the reading had reached. -/
inductive SyntaxError.ComesFrom (error : SyntaxError) (cursor last : Cursor) : Prop
  | token (wanted : Expectation) (same : error = .atToken wanted last.current)
  | expression {passed : List Token} {start : Cursor} (passes : cursor.Passes passed start)
      (fails : Parser.expression start = .error error last)

/-- An error keeps its origin when the reading is seen from further ahead. -/
theorem SyntaxError.ComesFrom.of_passes {error : SyntaxError} {cursor middle last : Cursor}
    {tokens : List Token} (passes : cursor.Passes tokens middle)
    (comesFrom : error.ComesFrom middle last) : error.ComesFrom cursor last := by
  cases comesFrom with
  | token wanted same => exact .token wanted same
  | expression passesMore fails => exact .expression (passes.trans passesMore) fails

namespace Parser

variable {α β : Type}

/-- Every error of the parser comes from a token at the cursor or from an expression. -/
def TracesErrors (parser : Parser α) : Prop :=
  ∀ ⦃cursor last error⦄, parser cursor = .error error last → error.ComesFrom cursor last

/-! ## Ways of putting parsers together -/

theorem tracesErrors_pure (result : α) : (pure result : Parser α).TracesErrors := by
  intro cursor last error fails
  cases fails

theorem tracesErrors_expect (terminal : Terminal) : (expect terminal).TracesErrors := by
  intro cursor last error fails
  obtain ⟨_, rfl, rfl⟩ := expect_eq_error_iff.mp fails
  exact .token (.terminal terminal) rfl

theorem tracesErrors_expression : expression.TracesErrors := by
  intro cursor last error fails
  exact .expression (.refl cursor) fails

theorem TracesErrors.bind {parser : Parser α} {next : α → Parser β} (first : parser.TracesErrors)
    (isLocal : parser.IsLocal) (second : ∀ result, (next result).TracesErrors) :
    (parser >>= next).TracesErrors := by
  intro cursor last error fails
  rcases bind_eq_error_iff.mp fails with failsFirst | ⟨value, middle, reads, failsNext⟩
  · exact first failsFirst
  · obtain ⟨tokens, passes, _⟩ := isLocal cursor
    rw [reads] at passes
    exact (second value failsNext).of_passes passes

/-- A parser that is used behind a token that was seen traces its errors to there. -/
theorem TracesErrors.behind {parser : Parser α} {terminal : Terminal} {cursor last : Cursor}
    {error : SyntaxError} (traces : parser.TracesErrors) (notEnd : terminal ≠ .endOfInput)
    (accepts : terminal.accepts cursor.current)
    (fails : parser cursor.advance = .error error last) : error.ComesFrom cursor last :=
  (traces fails).of_passes (passes_of_accepts notEnd accepts)

theorem TracesErrors.ite_skip {terminal : Terminal} (notEnd : terminal ≠ .endOfInput)
    {found missing : Parser α} (tracesFound : found.TracesErrors)
    (tracesMissing : missing.TracesErrors) :
    (do if ← sees terminal then
          skip
          found
        else
          missing : Parser α).TracesErrors := by
  intro cursor last error fails
  simp only [bind_apply, sees_apply, ite_apply, skip_apply] at fails
  split at fails
  case isTrue accepts => exact tracesFound.behind notEnd accepts fails
  case isFalse => exact tracesMissing fails

/-! ## Statements -/

/-- A statement of one expression and the sign that ends it. -/
theorem tracesErrors_ended (make : Expr → Stmt) :
    (do let value ← expression
        let _ ← expect (.reserved ";")
        return make value : Parser Stmt).TracesErrors :=
  tracesErrors_expression.bind isLocal_expression fun _ =>
    (tracesErrors_expect _).bind (isLocal_expect (by simp)) fun _ => tracesErrors_pure _

theorem tracesErrors_assignment : assignment.TracesErrors :=
  (tracesErrors_expect _).bind (isLocal_expect (by simp)) fun _ =>
    (tracesErrors_expect _).bind (isLocal_expect (by simp)) fun _ => tracesErrors_ended _

theorem named_comesFrom {cursor last : Cursor} {error : SyntaxError}
    (isName : (Terminal.ofCategory .identifier).accepts cursor.current)
    (fails : named cursor = .error error last) : error.ComesFrom cursor last := by
  rw [named_apply isName] at fails
  split at fails
  · exact tracesErrors_assignment fails
  · exact tracesErrors_ended .expression fails

theorem tracesErrors_loop {block : Parser Block} (traces : block.TracesErrors)
    (isLocal : block.IsLocal) : (loop block).TracesErrors :=
  tracesErrors_expression.bind isLocal_expression fun _ =>
    (tracesErrors_expect _).bind (isLocal_expect (by simp)) fun _ =>
      traces.bind isLocal fun _ =>
        (tracesErrors_expect _).bind (isLocal_expect (by simp)) fun _ => tracesErrors_pure _

theorem tracesErrors_conditional {block : Parser Block} (traces : block.TracesErrors)
    (isLocal : block.IsLocal) : (conditional block).TracesErrors :=
  tracesErrors_expression.bind isLocal_expression fun _ =>
    (tracesErrors_expect _).bind (isLocal_expect (by simp)) fun _ =>
      traces.bind isLocal fun _ => TracesErrors.ite_skip (by simp)
        (traces.bind isLocal fun _ =>
          (tracesErrors_expect _).bind (isLocal_expect (by simp)) fun _ => tracesErrors_pure _)
        ((tracesErrors_expect _).bind (isLocal_expect (by simp)) fun _ => tracesErrors_pure _)

theorem map_eq_error_iff {parser : Parser α} {f : α → β} {cursor last : Cursor}
    {error : SyntaxError} :
    (f <$> parser) cursor = .error error last ↔ parser cursor = .error error last := by
  rw [map_apply]
  cases parser cursor <;> simp

theorem tracesErrors_statement? {block : Parser Block} (traces : block.TracesErrors)
    (isLocal : block.IsLocal) : (statement? block).TracesErrors := by
  intro cursor last error fails
  rcases statement?_cases cursor with ⟨_, same⟩ | ⟨isIf, same⟩ | ⟨isWhile, same⟩ |
    ⟨isName, same⟩ | ⟨isPrint, same⟩
  · rw [same] at fails
    cases fails
  · rw [same, map_eq_error_iff] at fails
    exact (tracesErrors_conditional traces isLocal).behind (by simp) isIf fails
  · rw [same, map_eq_error_iff] at fails
    exact (tracesErrors_loop traces isLocal).behind (by simp) isWhile fails
  · rw [same, map_eq_error_iff] at fails
    exact named_comesFrom isName fails
  · rw [same, map_eq_error_iff] at fails
    exact (tracesErrors_ended .print).behind (by simp) isPrint fails

/-! ## Blocks and programs -/

theorem tracesErrors_blockWithin (bound : Nat) : (blockWithin bound).TracesErrors := by
  induction bound with
  | zero => exact tracesErrors_pure []
  | succ bound ih =>
      rw [blockWithin_succ]
      apply (tracesErrors_statement? ih (isLocal_blockWithin bound)).bind
        (isLocal_statement? (isLocal_blockWithin bound))
      intro statement?
      cases statement? with
      | none => exact tracesErrors_pure []
      | some statement => exact ih.bind (isLocal_blockWithin bound) fun _ => tracesErrors_pure _

theorem tracesErrors_block : block.TracesErrors := by
  intro cursor last error fails
  exact tracesErrors_blockWithin cursor.rest.length fails

/-- Every error of a program comes from the token where parsing stopped or from an
expression that it had reached. -/
theorem tracesErrors_program : program.TracesErrors := by
  apply tracesErrors_block.bind isLocal_block
  intro statements cursor last error fails
  simp only [bind_apply, peek_apply, ite_apply, throw_apply] at fails
  split at fails
  case isTrue => cases fails
  case isFalse =>
    cases fails
    exact .token .statement rfl

end Parser

end WhileLang
