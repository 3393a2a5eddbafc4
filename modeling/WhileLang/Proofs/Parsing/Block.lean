import WhileLang.Proofs.Parsing.Locality

/-!
# Blocks without a bound

The reader of blocks is given a bound on the statements that can follow and on their
nesting.  Every statement takes a token, so the number of tokens that are left always
suffices, and beyond it the bound has no effect.  A block therefore satisfies the
equation of its grammar rule: it is empty, or a statement and the rest of the block.
-/

namespace WhileLang

/-- The token begins a statement. -/
def Token.BeginsStatement (token : Token) : Prop :=
  (Terminal.reserved "if").accepts token ∨ (Terminal.reserved "while").accepts token ∨
    (Terminal.ofCategory .identifier).accepts token ∨ (Terminal.reserved "print").accepts token

namespace Parser

variable {α β : Type}

/-! ## The statement at a token -/

theorem statement?_apply (block : Parser Block) (cursor : Cursor) :
    statement? block cursor =
      if Terminal.endOfInput.accepts cursor.current then .ok none cursor
      else if (Terminal.reserved "else").accepts cursor.current then .ok none cursor
      else if (Terminal.reserved "if").accepts cursor.current then
        (some <$> conditional block) cursor.advance
      else if (Terminal.reserved "while").accepts cursor.current then
        (some <$> loop block) cursor.advance
      else if (Terminal.ofCategory .identifier).accepts cursor.current then
        (some <$> named) cursor
      else if (Terminal.reserved "print").accepts cursor.current then
        (some <$> printStatement) cursor.advance
      else .ok none cursor := by
  simp only [statement?, bind_apply cursor, sees_apply, ite_apply, skip_apply, pure_apply]
  split_ifs with _ _ _ _ isName
  · rfl
  · rfl
  · rfl
  · rfl
  · simp only [map_named_apply isName, bind_apply cursor, ite_apply]
  · rfl
  · rfl

/-- The statement that is read at a cursor depends on the token there. -/
theorem statement?_cases (cursor : Cursor) :
    (¬cursor.current.BeginsStatement ∧ ∀ block, statement? block cursor = .ok none cursor) ∨
    ((Terminal.reserved "if").accepts cursor.current ∧ ∀ block,
      statement? block cursor = (some <$> conditional block) cursor.advance) ∨
    ((Terminal.reserved "while").accepts cursor.current ∧ ∀ block,
      statement? block cursor = (some <$> loop block) cursor.advance) ∨
    ((Terminal.ofCategory .identifier).accepts cursor.current ∧ ∀ block,
      statement? block cursor = (some <$> named) cursor) ∨
    ((Terminal.reserved "print").accepts cursor.current ∧ ∀ block,
      statement? block cursor = (some <$> printStatement) cursor.advance) := by
  simp only [statement?_apply]
  split_ifs with atEnd atElse isIf isWhile isName isPrint
  · refine .inl ⟨?_, fun _ => rfl⟩
    have atEnd : cursor.current.isEnd = true := atEnd
    simp [Token.BeginsStatement, Terminal.accepts, atEnd]
  · refine .inl ⟨?_, fun _ => rfl⟩
    have atElse : cursor.current.category = .reserved ∧ cursor.current.text? = some "else" := by
      simp only [Terminal.accepts, Bool.and_eq_true, decide_eq_true_eq] at atElse
      exact ⟨atElse.1.1, atElse.2⟩
    simp [Token.BeginsStatement, Terminal.accepts, atElse.1, atElse.2]
  · exact .inr (.inl ⟨isIf, fun _ => rfl⟩)
  · exact .inr (.inr (.inl ⟨isWhile, fun _ => rfl⟩))
  · exact .inr (.inr (.inr (.inl ⟨isName, fun _ => rfl⟩)))
  · exact .inr (.inr (.inr (.inr ⟨isPrint, fun _ => rfl⟩)))
  · refine .inl ⟨?_, fun _ => rfl⟩
    simp [Token.BeginsStatement, isIf, isWhile, isName, isPrint]

/-! ## Parsers leave no more tokens than they find -/

theorem IsLocal.length_le {parser : Parser α} (isLocal : parser.IsLocal) {cursor next : Cursor}
    {result : α} (reads : parser cursor = .ok result next) :
    next.rest.length ≤ cursor.rest.length := by
  obtain ⟨tokens, passes, _⟩ := isLocal cursor
  rw [reads] at passes
  exact passes.length_le

/-- When the parser succeeds it has taken a token. -/
def TakesToken (parser : Parser α) : Prop :=
  ∀ {cursor next result}, parser cursor = .ok result next → next.rest.length < cursor.rest.length

theorem length_advance_lt_of_accepts {terminal : Terminal} {cursor : Cursor}
    (notEnd : terminal ≠ .endOfInput) (accepts : terminal.accepts cursor.current) :
    cursor.advance.rest.length < cursor.rest.length := by
  rw [(passes_of_accepts notEnd accepts).rest]
  exact Nat.lt_succ_self _

theorem takesToken_expect {terminal : Terminal} (notEnd : terminal ≠ .endOfInput) :
    (expect terminal).TakesToken := by
  intro cursor next token reads
  rcases expect_eq_ok_iff.mp reads with ⟨accepts, _, rfl⟩
  exact length_advance_lt_of_accepts notEnd accepts

theorem TakesToken.bind {first : Parser α} {next : α → Parser β} (takes : first.TakesToken)
    (isLocal : ∀ result, (next result).IsLocal) : (first >>= next).TakesToken := by
  intro cursor last result reads
  rcases bind_eq_ok_iff.mp reads with ⟨value, middle, readsFirst, readsNext⟩
  exact Nat.lt_of_le_of_lt ((isLocal value).length_le readsNext) (takes readsFirst)

/-- A statement takes at least one token. -/
theorem statement?_length_lt {block : Parser Block} (isLocal : block.IsLocal)
    {cursor next : Cursor} {statement : Stmt}
    (reads : statement? block cursor = .ok (some statement) next) :
    next.rest.length < cursor.rest.length := by
  rcases statement?_cases cursor with ⟨_, same⟩ | ⟨accepts, same⟩ | ⟨accepts, same⟩ |
    ⟨accepts, same⟩ | ⟨accepts, same⟩
  · rw [same] at reads
    simp at reads
  · rw [same] at reads
    exact Nat.lt_of_le_of_lt (((isLocal_conditional isLocal).map some).length_le reads)
      (length_advance_lt_of_accepts (by simp) accepts)
  · rw [same] at reads
    exact Nat.lt_of_le_of_lt (((isLocal_loop isLocal).map some).length_le reads)
      (length_advance_lt_of_accepts (by simp) accepts)
  · rw [same, map_eq_pure_bind] at reads
    have takes : named.TakesToken := TakesToken.bind (takesToken_expect (by simp)) isLocal_namedRest
    exact TakesToken.bind takes (fun _ => isLocal_pure _) reads
  · rw [same] at reads
    exact Nat.lt_of_le_of_lt ((isLocal_printStatement.map some).length_le reads)
      (length_advance_lt_of_accepts (by simp) accepts)

/-! ## The bound has no effect -/

/-- Two parsers do the same on lists of fewer than `bound` tokens. -/
def AgreeBelow (bound : Nat) (first second : Parser α) : Prop :=
  ∀ cursor, cursor.rest.length < bound → first cursor = second cursor

theorem AgreeBelow.refl (bound : Nat) (parser : Parser α) : AgreeBelow bound parser parser :=
  fun _ _ => rfl

theorem AgreeBelow.bind {bound : Nat} {first second : Parser α} {next next' : α → Parser β}
    (agree : AgreeBelow bound first second) (isLocal : first.IsLocal)
    (agreeNext : ∀ result, AgreeBelow bound (next result) (next' result)) :
    AgreeBelow bound (first >>= next) (second >>= next') := by
  intro cursor shorter
  rw [bind_apply, bind_apply, ← agree cursor shorter]
  cases outcome : first cursor with
  | error error last => rfl
  | ok result middle =>
      exact agreeNext result middle (Nat.lt_of_le_of_lt (isLocal.length_le outcome) shorter)

theorem AgreeBelow.loop {bound : Nat} {block block' : Parser Block}
    (agree : AgreeBelow bound block block') (isLocal : block.IsLocal) :
    AgreeBelow bound (loop block) (loop block') :=
  (AgreeBelow.refl _ _).bind isLocal_expression fun _ =>
    (AgreeBelow.refl _ _).bind (isLocal_expect (by simp)) fun _ =>
      agree.bind isLocal fun _ => AgreeBelow.refl _ _

theorem AgreeBelow.conditional {bound : Nat} {block block' : Parser Block}
    (agree : AgreeBelow bound block block') (isLocal : block.IsLocal) :
    AgreeBelow bound (conditional block) (conditional block') := by
  refine (AgreeBelow.refl _ _).bind isLocal_expression fun condition => ?_
  refine (AgreeBelow.refl _ _).bind (isLocal_expect (by simp)) fun _ => ?_
  refine agree.bind isLocal fun thenBranch => ?_
  refine (AgreeBelow.refl _ _).bind (isLocal_sees _) fun hasElse => ?_
  intro cursor shorter
  cases hasElse with
  | false => rfl
  | true =>
      have advanced : cursor.advance.rest.length < bound :=
        Nat.lt_of_le_of_lt (by simp [Cursor.advance]) shorter
      exact agree.bind isLocal (fun _ => AgreeBelow.refl _ _) cursor.advance advanced

/-- A statement is read in the same way with any two readers of blocks that do the same
behind its first token. -/
theorem statement?_congr {block block' : Parser Block} {cursor : Cursor} (isLocal : block.IsLocal)
    (agree : AgreeBelow cursor.rest.length block block') :
    statement? block cursor = statement? block' cursor := by
  rcases statement?_cases cursor with ⟨_, same⟩ | ⟨accepts, same⟩ | ⟨accepts, same⟩ |
    ⟨accepts, same⟩ | ⟨accepts, same⟩
  · rw [same, same]
  · rw [same, same, map_apply, map_apply,
      agree.conditional isLocal _ (length_advance_lt_of_accepts (by simp) accepts)]
  · rw [same, same, map_apply, map_apply,
      agree.loop isLocal _ (length_advance_lt_of_accepts (by simp) accepts)]
  · rw [same, same]
  · rw [same, same]

theorem statement?_of_rest_eq_nil {block : Parser Block} {cursor : Cursor}
    (empty : cursor.rest = []) : statement? block cursor = .ok none cursor := by
  rw [statement?_apply, if_pos]
  simp [Terminal.accepts, Cursor.current, empty]

/-- Any two bounds that the number of tokens does not exceed read the same block. -/
theorem blockWithin_apply_eq {first second : Nat} {cursor : Cursor}
    (firstBound : cursor.rest.length ≤ first) (secondBound : cursor.rest.length ≤ second) :
    blockWithin first cursor = blockWithin second cursor := by
  induction first generalizing second cursor with
  | zero =>
      have empty : cursor.rest = [] := List.length_eq_zero_iff.mp (Nat.le_zero.mp firstBound)
      cases second with
      | zero => rfl
      | succ second =>
          rw [blockWithin_succ, bind_apply, statement?_of_rest_eq_nil empty]
          rfl
  | succ first ih =>
      cases second with
      | zero =>
          have empty : cursor.rest = [] := List.length_eq_zero_iff.mp (Nat.le_zero.mp secondBound)
          rw [blockWithin_succ, bind_apply, statement?_of_rest_eq_nil empty]
          rfl
      | succ second =>
          have agree : AgreeBelow cursor.rest.length (blockWithin first) (blockWithin second) :=
            fun next shorter => ih (by omega) (by omega)
          rw [blockWithin_succ, blockWithin_succ, bind_apply, bind_apply,
            ← statement?_congr (isLocal_blockWithin first) agree]
          cases outcome : statement? (blockWithin first) cursor with
          | error error next => rfl
          | ok statement? next =>
              cases statement? with
              | none => rfl
              | some statement =>
                  have shorter := statement?_length_lt (isLocal_blockWithin first) outcome
                  simp only [blockRest, bind_apply, agree next shorter]

theorem block_apply_eq {bound : Nat} {cursor : Cursor} (bounded : cursor.rest.length ≤ bound) :
    block cursor = blockWithin bound cursor :=
  blockWithin_apply_eq (Nat.le_refl _) bounded

/-- A block is empty, or a statement and the rest of the block. -/
theorem block_eq : block = statement? block >>= blockRest block := by
  funext cursor
  have agree : AgreeBelow cursor.rest.length (blockWithin cursor.rest.length) block :=
    fun next shorter => (block_apply_eq (Nat.le_of_lt shorter)).symm
  rw [block_apply_eq (Nat.le_succ _), blockWithin_succ, bind_apply, bind_apply,
    ← statement?_congr (isLocal_blockWithin _) agree]
  cases outcome : statement? (blockWithin cursor.rest.length) cursor with
  | error error next => rfl
  | ok statement? next =>
      cases statement? with
      | none => rfl
      | some statement =>
          have shorter := statement?_length_lt (isLocal_blockWithin _) outcome
          simp only [blockRest, bind_apply, agree next shorter]

theorem isLocal_block : block.IsLocal := by
  intro cursor
  obtain ⟨tokens, passes, _⟩ := isLocal_blockWithin cursor.rest.length cursor
  rw [← block_apply_eq (Nat.le_refl _)] at passes
  refine ⟨tokens, passes, ?_⟩
  intro other next passesOther sameToken
  -- One bound that suffices for both lists.
  have bounded := Nat.le_max_left cursor.rest.length other.rest.length
  obtain ⟨tokens', passes', elsewhere⟩ :=
    isLocal_blockWithin (max cursor.rest.length other.rest.length) cursor
  rw [← block_apply_eq bounded] at passes' elsewhere
  rw [block_apply_eq (Nat.le_max_right cursor.rest.length other.rest.length)]
  exact elsewhere other next (passes.tokens_unique passes' ▸ passesOther) sameToken

theorem isLocal_program : program.IsLocal := by
  refine isLocal_block.bind fun statements => isLocal_peek.bind fun following => ?_
  exact (isLocal_pure statements).ite (isLocal_throw _) _

end Parser

end WhileLang
