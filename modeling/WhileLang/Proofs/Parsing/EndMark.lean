import Mathlib
import WhileLang.Proofs.Parsing.Acceptance

/-!
# The mark of the end

A token list is parsed up to the first token that marks the end of the input.  Tokens behind
that mark have no effect, and a list without a mark is parsed as if one stood behind it, at
the offset where the source ends.

The reason is that no parser moves the cursor over a mark.  A parser that is local looks at
the tokens that it passes and at the one where it stops.  So with a mark in its way it looks
at nothing behind the mark.
-/

namespace WhileLang

/-! ## Moving on before the mark -/

/-- Moving on from a cursor leads to another, over tokens of which none marks the end. -/
def Cursor.PassesWords (cursor next : Cursor) : Prop :=
  ∃ tokens, cursor.Passes tokens next ∧ ∀ token ∈ tokens, token.isEnd = false

namespace Cursor.PassesWords

variable {cursor middle next : Cursor}

theorem refl (cursor : Cursor) : cursor.PassesWords cursor :=
  ⟨[], .refl cursor, by simp⟩

theorem trans (first : cursor.PassesWords middle) (second : middle.PassesWords next) :
    cursor.PassesWords next := by
  obtain ⟨before, passesBefore, wordsBefore⟩ := first
  obtain ⟨behind, passesBehind, wordsBehind⟩ := second
  exact ⟨before ++ behind, passesBefore.trans passesBehind,
    List.forall_mem_append.mpr ⟨wordsBefore, wordsBehind⟩⟩

theorem advance (passes : cursor.Passes [cursor.current] cursor.advance)
    (isWord : cursor.current.isEnd = false) : cursor.PassesWords cursor.advance :=
  ⟨[cursor.current], passes, by simpa using isWord⟩

end Cursor.PassesWords

namespace Parser

variable {α β : Type}

/-- The parser moves the cursor over no mark of the end, whether it succeeds or fails. -/
def StaysBeforeEnd (parser : Parser α) : Prop :=
  ∀ cursor : Cursor, cursor.PassesWords (Outcome.cursor (parser cursor))

theorem passesWords_of_accepts {terminal : Terminal} {cursor : Cursor}
    (notEnd : terminal ≠ .endOfInput) (accepts : terminal.accepts cursor.current) :
    cursor.PassesWords cursor.advance := by
  apply Cursor.PassesWords.advance (passes_of_accepts notEnd accepts)
  cases terminal with
  | reserved text => simp_all [Terminal.accepts]
  | ofCategory category => simp_all [Terminal.accepts]
  | endOfInput => exact absurd rfl notEnd

theorem passesWords_of_proceed {scan after : OperatorScan} {cursor : Cursor}
    (proceeds : scan.step cursor.current = .proceed after) :
    cursor.PassesWords cursor.advance := by
  apply Cursor.PassesWords.advance (passes_of_proceed proceeds)
  by_contra atEnd
  have atEnd : cursor.current.isEnd = true := by simpa using atEnd
  simp [OperatorScan.step, Token.role, atEnd] at proceeds

/-! ## Ways of putting parsers together -/

theorem staysBeforeEnd_pure (result : α) : (pure result : Parser α).StaysBeforeEnd :=
  Cursor.PassesWords.refl

theorem staysBeforeEnd_throw (error : SyntaxError) : (throw error : Parser α).StaysBeforeEnd :=
  Cursor.PassesWords.refl

theorem staysBeforeEnd_peek : peek.StaysBeforeEnd :=
  Cursor.PassesWords.refl

theorem staysBeforeEnd_ofExcept (outcome : Except SyntaxError α) :
    (MonadExcept.ofExcept outcome : Parser α).StaysBeforeEnd := by
  cases outcome with
  | ok result => exact staysBeforeEnd_pure result
  | error error => exact staysBeforeEnd_throw error

theorem StaysBeforeEnd.bind {parser : Parser α} {next : α → Parser β}
    (first : parser.StaysBeforeEnd) (second : ∀ result, (next result).StaysBeforeEnd) :
    (parser >>= next).StaysBeforeEnd := by
  intro cursor
  have passes := first cursor
  rw [bind_apply]
  cases outcome : parser cursor with
  | error error last =>
      rw [outcome] at passes
      exact passes
  | ok result middle =>
      rw [outcome] at passes
      exact passes.trans (second result middle)

theorem StaysBeforeEnd.map {parser : Parser α} (stays : parser.StaysBeforeEnd) (f : α → β) :
    (f <$> parser).StaysBeforeEnd := by
  rw [map_eq_pure_bind]
  exact stays.bind fun result => staysBeforeEnd_pure (f result)

theorem staysBeforeEnd_expect {terminal : Terminal} (notEnd : terminal ≠ .endOfInput) :
    (expect terminal).StaysBeforeEnd := by
  intro cursor
  rw [expect_apply]
  split
  case isTrue accepts => exact passesWords_of_accepts notEnd accepts
  case isFalse => exact .refl cursor

theorem StaysBeforeEnd.ite_skip {terminal : Terminal} (notEnd : terminal ≠ .endOfInput)
    {found missing : Parser α} (staysFound : found.StaysBeforeEnd)
    (staysMissing : missing.StaysBeforeEnd) :
    (do if ← sees terminal then
          skip
          found
        else
          missing : Parser α).StaysBeforeEnd := by
  intro cursor
  simp only [bind_apply, sees_apply, ite_apply, skip_apply]
  split
  case isTrue accepts =>
    exact (passesWords_of_accepts notEnd accepts).trans (staysFound cursor.advance)
  case isFalse => exact staysMissing cursor

/-! ## Expressions, statements and blocks -/

theorem staysBeforeEnd_goOn (scan : OperatorScan) : scan.goOn.StaysBeforeEnd := by
  rintro ⟨tokens, position, endOffset⟩
  induction tokens generalizing scan position with
  | nil => exact .refl _
  | cons token tokens ih =>
      cases step : scan.step token with
      | stop =>
          rw [OperatorScan.goOn_of_stop step]
          exact .refl _
      | fail error =>
          rw [OperatorScan.goOn_of_fail step]
          exact .refl _
      | proceed after =>
          rw [OperatorScan.goOn_of_proceed step]
          exact (passesWords_of_proceed step).trans (ih after (position + 1))

theorem staysBeforeEnd_toTree (scan : OperatorScan) : scan.toTree.StaysBeforeEnd :=
  (staysBeforeEnd_goOn scan).bind fun scan => staysBeforeEnd_peek.bind fun following =>
    (staysBeforeEnd_ofExcept (scan.finish following)).bind fun _ => staysBeforeEnd_ofExcept _

theorem staysBeforeEnd_expression : expression.StaysBeforeEnd :=
  staysBeforeEnd_toTree .start

theorem staysBeforeEnd_closedBy (text : String) (result : α) :
    (do let _ ← expect (.reserved text)
        return result : Parser α).StaysBeforeEnd :=
  (staysBeforeEnd_expect (by simp)).bind fun _ => staysBeforeEnd_pure result

theorem staysBeforeEnd_printStatement : printStatement.StaysBeforeEnd :=
  staysBeforeEnd_expression.bind fun value => staysBeforeEnd_closedBy ";" (Stmt.print value)

theorem staysBeforeEnd_named : named.StaysBeforeEnd :=
  (staysBeforeEnd_expect (by simp)).bind fun name =>
    .ite_skip (by simp)
      (staysBeforeEnd_expression.bind fun value =>
        staysBeforeEnd_closedBy ";" (Stmt.assign name.value.render value))
      ((staysBeforeEnd_toTree _).bind fun value =>
        staysBeforeEnd_closedBy ";" (Stmt.expression value))

theorem StaysBeforeEnd.loop {block : Parser Block} (stays : block.StaysBeforeEnd) :
    (loop block).StaysBeforeEnd :=
  staysBeforeEnd_expression.bind fun condition => (staysBeforeEnd_expect (by simp)).bind fun _ =>
    stays.bind fun body => staysBeforeEnd_closedBy "done" (Stmt.whileDo condition body)

theorem StaysBeforeEnd.conditional {block : Parser Block} (stays : block.StaysBeforeEnd) :
    (conditional block).StaysBeforeEnd :=
  staysBeforeEnd_expression.bind fun condition => (staysBeforeEnd_expect (by simp)).bind fun _ =>
    stays.bind fun thenBranch => .ite_skip (by simp)
      (stays.bind fun elseBranch =>
        staysBeforeEnd_closedBy "done" (Stmt.ifElse condition thenBranch elseBranch))
      (staysBeforeEnd_closedBy "done" (Stmt.ifThen condition thenBranch))

theorem StaysBeforeEnd.statement? {block : Parser Block} (stays : block.StaysBeforeEnd) :
    (statement? block).StaysBeforeEnd := by
  intro cursor
  rcases statement?_cases cursor with ⟨_, same⟩ | ⟨accepts, same⟩ | ⟨accepts, same⟩ |
    ⟨accepts, same⟩ | ⟨accepts, same⟩
  · rw [same]
    exact .refl cursor
  · rw [same]
    exact (passesWords_of_accepts (by simp) accepts).trans (stays.conditional.map some _)
  · rw [same]
    exact (passesWords_of_accepts (by simp) accepts).trans (stays.loop.map some _)
  · rw [same]
    exact staysBeforeEnd_named.map some cursor
  · rw [same]
    exact (passesWords_of_accepts (by simp) accepts).trans
      (staysBeforeEnd_printStatement.map some _)

theorem staysBeforeEnd_blockWithin (bound : Nat) : (blockWithin bound).StaysBeforeEnd := by
  induction bound with
  | zero => exact staysBeforeEnd_pure []
  | succ bound ih =>
      rw [blockWithin_succ]
      apply ih.statement?.bind
      intro statement?
      cases statement? with
      | none => exact staysBeforeEnd_pure []
      | some statement => exact ih.bind fun rest => staysBeforeEnd_pure (statement :: rest)

theorem staysBeforeEnd_block : block.StaysBeforeEnd :=
  fun cursor => staysBeforeEnd_blockWithin cursor.rest.length cursor

theorem staysBeforeEnd_program : program.StaysBeforeEnd := by
  apply staysBeforeEnd_block.bind
  intro statements
  apply staysBeforeEnd_peek.bind
  intro following
  split
  · exact staysBeforeEnd_pure statements
  · exact staysBeforeEnd_throw _

/-! ## What stands behind the mark -/

/-- A parser that looks only at what it passes and at the token where it stops, and passes no
mark of the end, does the same on two lists that agree up to their first mark. -/
theorem StaysBeforeEnd.exists_moveTo {parser : Parser α} (stays : parser.StaysBeforeEnd)
    (isLocal : parser.IsLocal) {cursor atEnd other otherEnd : Cursor} {tokens : List Token}
    (passes : cursor.Passes tokens atEnd) (passesOther : other.Passes tokens otherEnd)
    (isEnd : atEnd.current.isEnd = true) (sameMark : otherEnd.current = atEnd.current) :
    ∃ next, parser other = Outcome.moveTo next (parser cursor) := by
  obtain ⟨passed, passesPassed, elsewhere⟩ := isLocal cursor
  obtain ⟨words, passesWords, areWords⟩ := stays cursor
  cases passesPassed.tokens_unique passesWords
  obtain ⟨more, split⟩ : ∃ more, tokens = passed ++ more := by
    rcases List.append_eq_append_iff.mp (passesPassed.rest.symm.trans passes.rest) with
      ⟨more, split, _⟩ | ⟨further, split, behind⟩
    · exact ⟨more, split⟩
    · cases further with
      | nil => exact ⟨[], by simpa using split.symm⟩
      | cons token further =>
          -- The parser would have passed the mark.
          have isMark : atEnd.current = token := by simp [Cursor.current, behind]
          have isWord := areWords token (by simp [split])
          rw [isMark, isWord] at isEnd
          cases isEnd
  subst split
  obtain ⟨middle, first, second⟩ := passes.split passed
  obtain ⟨otherMiddle, otherFirst, otherSecond⟩ := passesOther.split passed
  cases first.unique passesPassed
  exact ⟨otherMiddle, elsewhere other otherMiddle otherFirst
    (second.current_congr otherSecond sameMark)⟩

end Parser

theorem parseTokens_congr {first second : List Token} {endOffset : Nat} {next : Cursor}
    (same : Parser.program (Cursor.ofTokens first endOffset) =
      Parser.Outcome.moveTo next (Parser.program (Cursor.ofTokens second endOffset))) :
    parseTokens first endOffset = parseTokens second endOffset := by
  unfold parseTokens
  rw [same]
  cases Parser.program (Cursor.ofTokens second endOffset) <;> rfl

/-- Lists that agree up to a mark of the end are parsed alike.  Behind the last token of a
list stands the mark at the end of the source. -/
theorem parseTokens_append_congr {tokens first second : List Token} {endOffset : Nat}
    (isEnd : (first.head?.getD (.endOfInput endOffset)).isEnd = true)
    (sameMark : second.head?.getD (.endOfInput endOffset) =
      first.head?.getD (.endOfInput endOffset)) :
    parseTokens (tokens ++ second) endOffset = parseTokens (tokens ++ first) endOffset := by
  have passes : ∀ behind, (Cursor.ofTokens (tokens ++ behind) endOffset).Passes tokens
      ⟨behind, tokens.length, endOffset⟩ :=
    fun behind => ⟨rfl, by simp [Cursor.ofTokens], rfl⟩
  obtain ⟨next, same⟩ := Parser.staysBeforeEnd_program.exists_moveTo Parser.isLocal_program
    (passes first) (passes second) isEnd sameMark
  exact parseTokens_congr same

/-- The mark of the end bounds what is parsed.  With a mark at the end of the source, and any
tokens behind it, a token list is parsed to the same program or fails with the same error as
without them, and what stands behind any mark has no effect. -/
theorem parseTokens_stops_at_end (tokens junk : List Token) (endOffset : Nat) :
    parseTokens (tokens ++ [.endOfInput endOffset] ++ junk) endOffset =
        parseTokens tokens endOffset ∧
      ∀ mark : Token, mark.isEnd = true →
        parseTokens (tokens ++ mark :: junk) endOffset =
          parseTokens (tokens ++ [mark]) endOffset := by
  constructor
  · have same : parseTokens (tokens ++ .endOfInput endOffset :: junk) endOffset =
        parseTokens (tokens ++ []) endOffset :=
      parseTokens_append_congr (by simp) (by simp)
    simpa using same
  · intro mark isEnd
    exact parseTokens_append_congr (by simpa using isEnd) (by simp)

/-- The tokens `print x ;`. -/
def printName : List Token :=
  [wordToken "print" 0, nameToken "x" 6, symbolToken ";" 7]

/-- A second statement behind a mark of the end is not seen, although the mark stands before
the end of the source. -/
theorem parseTokens_printName_stops_at_end :
    (Token.endOfInput 3).isEnd = true ∧
      parseTokens (printName ++ .endOfInput 3 :: printName) 16 = .ok [.print (.var "x")] := by
  have isEnd : (Token.endOfInput 3).isEnd = true := rfl
  have same := (parseTokens_stops_at_end printName printName 16).2 (.endOfInput 3) isEnd
  exact ⟨isEnd, same.trans rfl⟩

end WhileLang
