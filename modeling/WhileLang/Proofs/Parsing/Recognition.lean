import WhileLang.Proofs.Parsing.Block
import WhileLang.Proofs.Parsing.ClimbPhrase

/-!
# Parsers read phrases

A parser is set against the phrases that it is meant to read.  When it succeeds, the
tokens that it has passed are such a phrase.  When it fails, the tokens that it has
passed begin such a phrase, so up to the place of the error nothing was wrong, and the
error blames the token at that place.  All this is kept when parsers are put together,
because each kind of phrase has members that can be appended where another parser has
succeeded.
-/

namespace WhileLang

variable {α β : Type}

/-- Token lists with what they spell. -/
abbrev Phrases (α : Type) :=
  List Token → α → Prop

namespace Phrases

/-- No tokens, which spell one thing. -/
def none_ (value : α) : Phrases α :=
  fun tokens result => tokens = [] ∧ result = value

/-- One token of a set, which spells itself. -/
def one (terminal : Terminal) : Phrases Token :=
  fun tokens token => tokens = [token] ∧ terminal.accepts token

/-- A phrase and behind it another, which may depend on what the first one spells. -/
def seq (first : Phrases α) (next : α → Phrases β) : Phrases β :=
  fun tokens result => ∃ before after value,
    tokens = before ++ after ∧ first before value ∧ next value after result

/-- A phrase that begins with a token of a set, or another phrase without that token. -/
def optional (terminal : Terminal) (found missing : Phrases α) : Phrases α :=
  fun tokens result =>
    (∃ token rest, tokens = token :: rest ∧ terminal.accepts token ∧ found rest result) ∨
      missing tokens result

/-- The tokens begin a phrase, and tokens that some texts have complete it. -/
def Begins (phrases : Phrases α) (tokens : List Token) : Prop :=
  ∃ completion result, Grammar.standard.EmitsAll completion ∧ phrases (tokens ++ completion) result

theorem Begins.seq {first : Phrases α} {next : α → Phrases β} {tokens : List Token}
    (begins : first.Begins tokens) (inhabited : ∀ value, (next value).Begins []) :
    (first.seq next).Begins tokens := by
  rcases begins with ⟨completion, value, emitted, member⟩
  obtain ⟨more, result, emittedMore, memberNext⟩ := inhabited value
  exact ⟨completion ++ more, result, emitted.append emittedMore, tokens ++ completion, more, value,
    by simp, member, memberNext⟩

theorem Begins.seq_of_mem {first : Phrases α} {next : α → Phrases β} {tokens more : List Token}
    {value : α} (member : first tokens value) (begins : (next value).Begins more) :
    (first.seq next).Begins (tokens ++ more) := by
  rcases begins with ⟨completion, result, emitted, memberNext⟩
  exact ⟨completion, result, emitted, tokens, more ++ completion, value, by simp, member,
    memberNext⟩

theorem Begins.mono {first second : Phrases α} {tokens : List Token}
    (subset : ∀ tokens result, first tokens result → second tokens result)
    (begins : first.Begins tokens) : second.Begins tokens := by
  rcases begins with ⟨completion, result, emitted, member⟩
  exact ⟨completion, result, emitted, subset _ _ member⟩

end Phrases

namespace Parser

/-- The parser reads phrases of a kind, on any regular tokens. -/
structure Reads (parser : Parser α) (phrases : Phrases α) : Prop where
  sound {cursor next : Cursor} {result : α} : cursor.IsRegular →
    parser cursor = .ok result next → ∃ tokens, cursor.Passes tokens next ∧ phrases tokens result
  viable {cursor next : Cursor} {error : SyntaxError} : cursor.IsRegular →
    parser cursor = .error error next → ∃ tokens, cursor.Passes tokens next ∧ phrases.Begins tokens
  blames {cursor next : Cursor} {error : SyntaxError} : cursor.IsRegular →
    parser cursor = .error error next → error.Blames next.current
  inhabited : phrases.Begins []

/-- A parser has ended at a cursor as if it read a phrase: what it has passed is one, or
begins one and the error blames the token behind. -/
def Outcome.IsReading (phrases : Phrases α) (cursor : Cursor) :
    EStateM.Result SyntaxError Cursor α → Prop
  | .ok result next => ∃ tokens, cursor.Passes tokens next ∧ phrases tokens result
  | .error error next =>
      (∃ tokens, cursor.Passes tokens next ∧ phrases.Begins tokens) ∧ error.Blames next.current

theorem Reads.isReading {parser : Parser α} {phrases : Phrases α} {cursor : Cursor}
    (reads : parser.Reads phrases) (regular : cursor.IsRegular) :
    Outcome.IsReading phrases cursor (parser cursor) := by
  cases outcome : parser cursor with
  | ok result next => exact reads.sound regular outcome
  | error error next => exact ⟨reads.viable regular outcome, reads.blames regular outcome⟩

theorem Reads.of_isReading {parser : Parser α} {phrases : Phrases α}
    (isReading : ∀ cursor : Cursor, cursor.IsRegular →
      Outcome.IsReading phrases cursor (parser cursor))
    (inhabited : phrases.Begins []) : parser.Reads phrases := by
  constructor
  · intro cursor next result regular succeeds
    have reading := isReading cursor regular
    rwa [succeeds] at reading
  · intro cursor next error regular fails
    have reading := isReading cursor regular
    rw [fails] at reading
    exact reading.1
  · intro cursor next error regular fails
    have reading := isReading cursor regular
    rw [fails] at reading
    exact reading.2
  · exact inhabited

/-- Reading behind tokens that have been passed. -/
theorem Outcome.IsReading.behind {rest whole : Phrases α} {cursor middle : Cursor}
    {passed : List Token} {outcome : EStateM.Result SyntaxError Cursor α}
    (reading : IsReading rest middle outcome) (passes : cursor.Passes passed middle)
    (complete : ∀ tokens result, rest tokens result → whole (passed ++ tokens) result) :
    IsReading whole cursor outcome := by
  cases outcome with
  | ok result next =>
      rcases reading with ⟨tokens, passesRest, member⟩
      exact ⟨_, passes.trans passesRest, complete _ _ member⟩
  | error error next =>
      rcases reading with ⟨⟨tokens, passesRest, completion, result, emitted, member⟩, blames⟩
      have memberWhole := complete _ _ member
      rw [← List.append_assoc] at memberWhole
      exact ⟨⟨_, passes.trans passesRest, completion, result, emitted, memberWhole⟩, blames⟩

theorem Outcome.IsReading.map {parser : Parser α} {f : α → β} {phrases : Phrases α}
    {image : Phrases β} {cursor start : Cursor}
    (reading : IsReading phrases cursor (parser start))
    (maps : ∀ tokens value, phrases tokens value → image tokens (f value)) :
    IsReading image cursor ((f <$> parser) start) := by
  rw [map_apply]
  cases outcome : parser start with
  | ok result next =>
      rw [outcome] at reading
      rcases reading with ⟨tokens, passes, member⟩
      exact ⟨tokens, passes, maps _ _ member⟩
  | error error next =>
      rw [outcome] at reading
      rcases reading with ⟨⟨tokens, passes, completion, result, emitted, member⟩, blames⟩
      exact ⟨⟨tokens, passes, completion, f result, emitted, maps _ _ member⟩, blames⟩

/-! ## Ways of putting parsers together -/

theorem reads_pure (value : α) : (pure value : Parser α).Reads (.none_ value) where
  sound {cursor next result} _ reads := by
    simp only [pure_apply, EStateM.Result.ok.injEq] at reads
    rcases reads with ⟨rfl, rfl⟩
    exact ⟨[], .refl cursor, rfl, rfl⟩
  viable _ fails := by simp at fails
  blames _ fails := by simp at fails
  inhabited := ⟨[], value, .nil _, rfl, rfl⟩

theorem reads_expect {terminal : Terminal} (notEnd : terminal ≠ .endOfInput)
    (exists_ : ∃ token, Grammar.standard.Emits token ∧ terminal.accepts token) :
    (expect terminal).Reads (.one terminal) := by
  rcases exists_ with ⟨wanted, emitted, accepted⟩
  have inhabited : (Phrases.one terminal).Begins [] :=
    ⟨[wanted], wanted, emitted.emitsAll, rfl, accepted⟩
  constructor
  · intro cursor next token _ reads
    rcases expect_eq_ok_iff.mp reads with ⟨accepts, rfl, rfl⟩
    exact ⟨_, passes_of_accepts notEnd accepts, rfl, accepts⟩
  · intro cursor next error _ fails
    rcases expect_eq_error_iff.mp fails with ⟨_, _, rfl⟩
    exact ⟨[], .refl cursor, inhabited⟩
  · intro cursor next error _ fails
    rcases expect_eq_error_iff.mp fails with ⟨_, rfl, rfl⟩
    exact SyntaxError.blames_atToken _ _
  · exact inhabited

theorem reads_expect_reserved (text : String)
    (isFixed : text ∈ Grammar.standard.fixedWords) :
    (expect (.reserved text)).Reads (.one (.reserved text)) :=
  reads_expect (by simp) (exists_emits_is isFixed)

theorem reads_expect_identifier :
    (expect (.ofCategory .identifier)).Reads (.one (.ofCategory .identifier)) := by
  apply reads_expect (by simp)
  rcases exists_emits_name with ⟨token, emitted, isName⟩
  exact ⟨token, emitted, Token.accepts_identifier_iff.mpr isName⟩

theorem Reads.bind {parser : Parser α} {next : α → Parser β} {first : Phrases α}
    {second : α → Phrases β} (reads : parser.Reads first)
    (readsNext : ∀ value, (next value).Reads (second value)) :
    (parser >>= next).Reads (first.seq second) := by
  constructor
  · intro cursor last result regular succeeds
    rcases bind_eq_ok_iff.mp succeeds with ⟨value, middle, firstSucceeds, secondSucceeds⟩
    obtain ⟨tokens, passes, member⟩ := reads.sound regular firstSucceeds
    obtain ⟨more, passesMore, memberNext⟩ :=
      (readsNext value).sound (regular.of_passes passes) secondSucceeds
    exact ⟨_, passes.trans passesMore, tokens, more, value, rfl, member, memberNext⟩
  · intro cursor last error regular fails
    rcases bind_eq_error_iff.mp fails with firstFails | ⟨value, middle, succeeds, secondFails⟩
    · obtain ⟨tokens, passes, begins⟩ := reads.viable regular firstFails
      exact ⟨tokens, passes, begins.seq fun value => (readsNext value).inhabited⟩
    · obtain ⟨tokens, passes, member⟩ := reads.sound regular succeeds
      obtain ⟨more, passesMore, begins⟩ :=
        (readsNext value).viable (regular.of_passes passes) secondFails
      exact ⟨_, passes.trans passesMore, .seq_of_mem member begins⟩
  · intro cursor last error regular fails
    rcases bind_eq_error_iff.mp fails with firstFails | ⟨value, middle, succeeds, secondFails⟩
    · exact reads.blames regular firstFails
    · obtain ⟨tokens, passes, _⟩ := reads.sound regular succeeds
      exact (readsNext value).blames (regular.of_passes passes) secondFails
  · exact reads.inhabited.seq fun value => (readsNext value).inhabited

theorem Reads.mono {parser : Parser α} {first second : Phrases α} (reads : parser.Reads first)
    (subset : ∀ tokens result, first tokens result → second tokens result) :
    parser.Reads second := by
  apply Reads.of_isReading
  · intro cursor regular
    exact (reads.isReading regular).behind (.refl cursor) subset
  · exact reads.inhabited.mono subset

/-- Choosing by the token under the cursor, and passing over it in one case. -/
theorem Reads.optional {terminal : Terminal} (notEnd : terminal ≠ .endOfInput)
    {found missing : Parser α} {first second : Phrases α} (readsFound : found.Reads first)
    (readsMissing : missing.Reads second) :
    (do if ← sees terminal then
          skip
          found
        else
          missing : Parser α).Reads (.optional terminal first second) := by
  apply Reads.of_isReading
  · intro cursor regular
    simp only [bind_apply, sees_apply, ite_apply, skip_apply]
    split
    case isTrue accepts =>
      apply (readsFound.isReading regular.advance).behind (passes_of_accepts notEnd accepts)
      intro tokens result member
      exact .inl ⟨_, tokens, rfl, accepts, member⟩
    case isFalse =>
      apply (readsMissing.isReading regular).behind (.refl cursor)
      intro tokens result member
      exact .inr member
  · exact readsMissing.inhabited.mono fun _ _ => .inr

/-! ## Expressions and statements -/

theorem reads_expression : expression.Reads IsExpr := by
  apply Reads.of_isReading
  · intro cursor regular
    obtain ⟨outcome, climb⟩ := exists_climb ⊥ cursor
    have isPhrase := climb.isPhrase regular 0 rfl
    rw [climb.expression_eq regular.hasMeaning]
    cases outcome with
    | ok tree next =>
        obtain ⟨tokens, endsNegated, passes, spells⟩ := isPhrase
        exact ⟨tokens, passes, endsNegated, spells.spells⟩
    | error error next =>
        obtain ⟨tokens, completion, tree, endsNegated, passes, emitted, spells⟩ := isPhrase
        exact ⟨⟨tokens, passes, completion, tree, emitted, endsNegated, spells⟩,
          climb.blamesCurrent⟩
  · rcases exists_emits_name with ⟨name, emitted, isName⟩
    exact ⟨[name], _, emitted.emitsAll, false, .leaf (Token.leaf?_of_identifier isName)⟩

/-- An expression and behind it the sign that ends a statement. -/
def IsEnded (tokens : List Token) (value : Expr) : Prop :=
  ∃ inner semicolon, tokens = inner ++ [semicolon] ∧ IsExpr inner value ∧ semicolon.Is ";"

theorem reads_ended (make : Expr → Stmt) :
    (do let value ← expression
        let _ ← expect (.reserved ";")
        return make value : Parser Stmt).Reads
      fun tokens statement => ∃ value, IsEnded tokens value ∧ statement = make value := by
  have reads := reads_expression.bind fun value =>
    (reads_expect_reserved ";" (by decide)).bind fun _ => reads_pure (make value)
  apply reads.mono
  rintro tokens statement
    ⟨inner, _, value, rfl, isValue, _, _, semicolon, rfl, ⟨rfl, ends⟩, rfl, rfl⟩
  exact ⟨value, ⟨inner, semicolon, by simp, isValue, ends⟩, rfl⟩

theorem reads_assignment : assignment.Reads SpellsStmt := by
  have reads := reads_expect_identifier.bind fun name =>
    (reads_expect_reserved ":=" (by decide)).bind fun _ =>
      reads_ended (.assign name.value.render)
  apply reads.mono
  rintro tokens statement ⟨_, _, name, rfl, ⟨rfl, isName⟩, _, _, sign, rfl, ⟨rfl, isSign⟩, value,
    ⟨inner, semicolon, rfl, isValue, ends⟩, rfl⟩
  exact .assign (Token.accepts_identifier_iff.mp isName) isSign isValue ends

theorem reads_printStatement :
    printStatement.Reads fun tokens statement =>
      ∀ word : Token, word.Is "print" → SpellsStmt (word :: tokens) statement := by
  apply (reads_ended .print).mono
  rintro tokens statement ⟨value, ⟨inner, semicolon, rfl, isValue, ends⟩, rfl⟩ word isPrint
  exact .print isPrint isValue ends

theorem reads_loop {block : Parser Block} (reads : block.Reads SpellsBlock) :
    (loop block).Reads fun tokens statement =>
      ∀ word : Token, word.Is "while" → SpellsStmt (word :: tokens) statement := by
  have parts := reads_expression.bind fun condition =>
    (reads_expect_reserved "do" (by decide)).bind fun _ => reads.bind fun body =>
      (reads_expect_reserved "done" (by decide)).bind fun _ =>
        reads_pure (Stmt.whileDo condition body)
  apply parts.mono
  rintro tokens statement ⟨conditionTokens, _, condition, rfl, isCondition, _, _, do_, rfl,
    ⟨rfl, isDo⟩, bodyTokens, _, body, rfl, isBody, _, _, done, rfl, ⟨rfl, isDone⟩, rfl, rfl⟩
    word isWhile
  simpa using SpellsStmt.whileDo isWhile isCondition isDo isBody isDone

theorem reads_conditional {block : Parser Block} (reads : block.Reads SpellsBlock) :
    (conditional block).Reads fun tokens statement =>
      ∀ word : Token, word.Is "if" → SpellsStmt (word :: tokens) statement := by
  have parts := reads_expression.bind fun condition =>
    (reads_expect_reserved "then" (by decide)).bind fun _ => reads.bind fun thenBranch =>
      Reads.optional (show Terminal.reserved "else" ≠ .endOfInput by simp)
        (reads.bind fun elseBranch =>
          (reads_expect_reserved "done" (by decide)).bind fun _ =>
            reads_pure (Stmt.ifElse condition thenBranch elseBranch))
        ((reads_expect_reserved "done" (by decide)).bind fun _ =>
          reads_pure (Stmt.ifThen condition thenBranch))
  apply parts.mono
  rintro tokens statement ⟨conditionTokens, _, condition, rfl, isCondition, _, _, then_, rfl,
    ⟨rfl, isThen⟩, thenTokens, _, thenBranch, rfl, isThenBranch,
    ⟨else_, _, rfl, isElse, elseTokens, _, elseBranch, rfl, isElseBranch, _, _, done, rfl,
      ⟨rfl, isDone⟩, rfl, rfl⟩ | ⟨_, _, done, rfl, ⟨rfl, isDone⟩, rfl, rfl⟩⟩ word isIf
  · simpa using
      SpellsStmt.ifElse isIf isCondition isThen isThenBranch isElse isElseBranch isDone
  · simpa using SpellsStmt.ifThen isIf isCondition isThen isThenBranch isDone

/-! ## Statements that begin with an identifier -/

/-- A statement that begins with an identifier passes over it. -/
theorem named_passes {cursor : Cursor}
    (isName : (Terminal.ofCategory .identifier).accepts cursor.current) :
    ∃ tokens, cursor.Passes (cursor.current :: tokens) (Outcome.cursor (named cursor)) := by
  obtain ⟨tokens, passes, _⟩ := isLocal_namedRest cursor.current cursor.advance
  have same : named cursor = namedRest cursor.current cursor.advance := by
    simp only [named, bind_apply, expect_apply, if_pos isName]
  exact ⟨tokens, same ▸ (passes_of_accepts (by simp) isName).trans passes⟩

/-- An ended expression that begins with an identifier is a statement. -/
theorem IsEnded.spellsStmt {name : Token} {tokens : List Token} {value : Expr}
    (isEnded : IsEnded (name :: tokens) value) (isName : name.category = .identifier) :
    SpellsStmt (name :: tokens) (.expression value) := by
  rcases isEnded with ⟨inner, semicolon, same, isValue, ends⟩
  cases inner with
  | nil =>
      rcases isValue with ⟨_, spells⟩
      exact absurd rfl spells.ne_nil
  | cons first inner =>
      obtain ⟨rfl, rfl⟩ := List.cons.inj same
      exact .expression isName isValue ends

theorem named_isReading {cursor : Cursor} (regular : cursor.IsRegular)
    (isName : (Terminal.ofCategory .identifier).accepts cursor.current) :
    Outcome.IsReading SpellsStmt cursor (named cursor) := by
  obtain ⟨others, passesName⟩ := named_passes isName
  cases assigns : (cursor.ahead? 1).any (Terminal.reserved ":=").accepts with
  | true =>
      rw [named_apply isName, assigns, if_pos rfl]
      exact reads_assignment.isReading regular
  | false =>
      have same : named cursor = expressionStatement cursor := by
        rw [named_apply isName, assigns, if_neg Bool.false_ne_true]
      have reading : Outcome.IsReading _ cursor (expressionStatement cursor) :=
        (reads_ended .expression).isReading regular
      rw [same] at passesName ⊢
      have isIdentifier := Token.accepts_identifier_iff.mp isName
      -- The passed tokens begin with the name, so the expression does.
      cases outcome : expressionStatement cursor with
      | ok statement next =>
          rw [outcome] at reading passesName
          rcases reading with ⟨tokens, passes, value, isEnded, rfl⟩
          obtain rfl := passesName.tokens_unique passes
          exact ⟨_, passes, isEnded.spellsStmt isIdentifier⟩
      | error error next =>
          rw [outcome] at reading passesName
          rcases reading with
            ⟨⟨tokens, passes, completion, statement, emitted, value, isEnded, rfl⟩, blames⟩
          obtain rfl := passesName.tokens_unique passes
          exact ⟨⟨_, passes, completion, _, emitted, isEnded.spellsStmt isIdentifier⟩, blames⟩

/-! ## Blocks -/

/-- No tokens where there is no statement, and otherwise the statement. -/
def SpellsStmt? (tokens : List Token) : Option Stmt → Prop
  | none => tokens = []
  | some statement => SpellsStmt tokens statement

/-- Behind a word that begins a statement, the rest of the statement is read. -/
theorem isReading_of_word {rest : Parser Stmt} {text : String} {cursor : Cursor}
    (reads : rest.Reads fun tokens statement =>
      ∀ word : Token, word.Is text → SpellsStmt (word :: tokens) statement)
    (regular : cursor.IsRegular) (accepts : (Terminal.reserved text).accepts cursor.current) :
    Outcome.IsReading SpellsStmt? cursor ((some <$> rest) cursor.advance) := by
  have whole : Outcome.IsReading SpellsStmt cursor (rest cursor.advance) := by
    apply (reads.isReading regular.advance).behind (passes_of_accepts (by simp) accepts)
    intro tokens statement isRest
    exact isRest cursor.current accepts
  exact whole.map fun _ _ => id

theorem reads_statement? {block : Parser Block} (reads : block.Reads SpellsBlock) :
    (statement? block).Reads SpellsStmt? := by
  apply Reads.of_isReading
  · intro cursor regular
    rcases statement?_cases cursor with ⟨_, same⟩ | ⟨accepts, same⟩ | ⟨accepts, same⟩ |
      ⟨accepts, same⟩ | ⟨accepts, same⟩
    · rw [same]
      exact ⟨[], .refl cursor, rfl⟩
    · rw [same]
      exact isReading_of_word (reads_conditional reads) regular accepts
    · rw [same]
      exact isReading_of_word (reads_loop reads) regular accepts
    · rw [same]
      exact (named_isReading regular accepts).map fun _ _ => id
    · rw [same]
      exact isReading_of_word reads_printStatement regular accepts
  · exact ⟨[], none, .nil _, rfl⟩

/-- What follows a statement of a block: nothing where there was none, and otherwise a
block, of which the statement becomes the first. -/
def SpellsRest : Option Stmt → Phrases Block
  | none => .none_ []
  | some statement => Phrases.seq SpellsBlock fun rest => .none_ (statement :: rest)

theorem reads_rest {block : Parser Block} (reads : block.Reads SpellsBlock)
    (statement? : Option Stmt) : (blockRest block statement?).Reads (SpellsRest statement?) := by
  cases statement? with
  | none => exact reads_pure []
  | some statement => exact reads.bind fun rest => reads_pure (statement :: rest)

/-- A block is read within any bound, if only up to the bound. -/
theorem reads_blockWithin (bound : Nat) : (blockWithin bound).Reads SpellsBlock := by
  induction bound with
  | zero =>
      apply (reads_pure []).mono
      rintro tokens block ⟨rfl, rfl⟩
      exact .nil
  | succ bound ih =>
      rw [blockWithin_succ]
      apply ((reads_statement? ih).bind (reads_rest ih)).mono
      rintro tokens block ⟨first, others, statement?, rfl, isStatement, isRest⟩
      cases statement? with
      | none =>
          rcases isRest with ⟨rfl, rfl⟩
          rcases isStatement with rfl : first = []
          exact .nil
      | some statement =>
          rcases isRest with ⟨rest, _, restBlock, rfl, isBlock, rfl, rfl⟩
          rw [List.append_nil]
          exact .cons isStatement isBlock

theorem reads_block : block.Reads SpellsBlock := by
  apply Reads.of_isReading
  · intro cursor regular
    rw [block_apply_eq le_rfl]
    exact (reads_blockWithin _).isReading regular
  · exact (reads_blockWithin 0).inhabited

/-- A program is a block that the mark of the end follows. -/
theorem program_sound {cursor next : Cursor} {program_ : Block} (regular : cursor.IsRegular)
    (succeeds : program cursor = .ok program_ next) :
    ∃ tokens, cursor.Passes tokens next ∧ SpellsBlock tokens program_ ∧ next.current.isEnd := by
  rcases bind_eq_ok_iff.mp succeeds with ⟨statements, middle, reads, atEnd⟩
  obtain ⟨tokens, passes, isBlock⟩ := reads_block.sound regular reads
  simp only [bind_apply, peek_apply, ite_apply, pure_apply, throw_apply] at atEnd
  split at atEnd
  case isFalse => cases atEnd
  case isTrue isEnd =>
    cases atEnd
    exact ⟨tokens, passes, isBlock, isEnd⟩

/-- What was passed before a program failed begins a block. -/
theorem program_viable {cursor next : Cursor} {error : SyntaxError} (regular : cursor.IsRegular)
    (fails : program cursor = .error error next) :
    ∃ tokens, cursor.Passes tokens next ∧ Phrases.Begins SpellsBlock tokens := by
  rcases bind_eq_error_iff.mp fails with fails | ⟨statements, middle, reads, fails⟩
  · exact reads_block.viable regular fails
  · obtain ⟨tokens, passes, isBlock⟩ := reads_block.sound regular reads
    simp only [bind_apply, peek_apply, ite_apply, pure_apply, throw_apply] at fails
    split at fails
    case isTrue => cases fails
    case isFalse =>
      cases fails
      exact ⟨tokens, passes, [], statements, .nil _, by simpa using isBlock⟩

theorem program_blames {cursor next : Cursor} {error : SyntaxError} (regular : cursor.IsRegular)
    (fails : program cursor = .error error next) : error.Blames next.current := by
  rcases bind_eq_error_iff.mp fails with fails | ⟨statements, middle, _, fails⟩
  · exact reads_block.blames regular fails
  · simp only [bind_apply, peek_apply, ite_apply, pure_apply, throw_apply] at fails
    split at fails
    case isTrue => cases fails
    case isFalse =>
      cases fails
      exact SyntaxError.blames_atToken _ _

end Parser

end WhileLang
