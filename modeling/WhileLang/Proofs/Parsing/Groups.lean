import Mathlib
import WhileLang.Program
import WhileLang.Proofs.Lexical.TokenPlaces
import WhileLang.Proofs.Parsing.Acceptance
import WhileLang.Proofs.Parsing.Origin

/-!
# Parentheses that are never closed

A token list opens a group at every opening parenthesis and closes one at every closing
one.  Reading an expression passes only over groups that it closes, so when it gives up
on a group, the tokens that it passed inside are balanced.  It has not looked any
further: whether the reported parenthesis is closed after all depends on what stands
behind the token where the reading stopped.
-/

namespace WhileLang

/-! ## Counting groups -/

instance (token : Token) (symbol : String) : Decidable (token.IsSign symbol) :=
  inferInstanceAs (Decidable (_ ∧ _ ∧ _))

/-- What a token adds to the number of groups that are open. -/
def Token.groupChange (token : Token) : Int :=
  if token.IsSign "(" then 1 else if token.IsSign ")" then -1 else 0

/-- How many more groups a list opens than it closes. -/
def groupBalance : List Token → Int
  | [] => 0
  | token :: rest => token.groupChange + groupBalance rest

@[simp]
theorem groupBalance_nil : groupBalance [] = 0 :=
  rfl

@[simp]
theorem groupBalance_cons (token : Token) (rest : List Token) :
    groupBalance (token :: rest) = token.groupChange + groupBalance rest :=
  rfl

@[simp]
theorem groupBalance_append (first second : List Token) :
    groupBalance (first ++ second) = groupBalance first + groupBalance second := by
  induction first with
  | nil => simp
  | cons token rest ih => simp [ih, add_assoc]

theorem Token.groupChange_of_isSign {token : Token} {symbol : String}
    (isSign : token.IsSign symbol) :
    token.groupChange = if symbol = "(" then 1 else if symbol = ")" then -1 else 0 := by
  have same : ∀ other, token.IsSign other ↔ symbol = other := by
    intro other
    simp [IsSign, isSign.1, isSign.2.1, isSign.2.2]
  simp only [groupChange, same]

/-- Every group of the list is closed in it, and none that was opened before. -/
structure IsBalanced (tokens : List Token) : Prop where
  closesNone : ∀ count, 0 ≤ groupBalance (tokens.take count)
  leavesNone : groupBalance tokens = 0

namespace IsBalanced

variable {first second tokens : List Token} {token : Token}

theorem nil : IsBalanced [] where
  closesNone count := by simp
  leavesNone := rfl

theorem append (balancedFirst : IsBalanced first) (balancedSecond : IsBalanced second) :
    IsBalanced (first ++ second) where
  closesNone count := by
    rw [List.take_append, groupBalance_append]
    exact add_nonneg (balancedFirst.closesNone _) (balancedSecond.closesNone _)
  leavesNone := by
    rw [groupBalance_append, balancedFirst.leavesNone, balancedSecond.leavesNone, zero_add]

/-- A token that is no parenthesis. -/
theorem singleton (neutral : token.groupChange = 0) : IsBalanced [token] where
  closesNone count := by
    cases count with
    | zero => simp
    | succ count => simp [neutral]
  leavesNone := by simp [neutral]

/-- Balanced tokens between a parenthesis and the one that closes it. -/
theorem group {opening closing : Token} (opens : opening.IsSign "(")
    (closes : closing.IsSign ")") (balanced : IsBalanced tokens) :
    IsBalanced ([opening] ++ (tokens ++ [closing])) := by
  have opened : opening.groupChange = 1 := Token.groupChange_of_isSign opens
  have closed : closing.groupChange = -1 := Token.groupChange_of_isSign closes
  have atMostOne : ∀ count, -1 ≤ groupBalance ([closing].take count) := by
    intro count
    cases count with
    | zero => simp
    | succ count => simp [closed]
  constructor
  · intro count
    cases count with
    | zero => simp
    | succ count =>
        have inside := balanced.closesNone count
        have last := atMostOne (count - tokens.length)
        simp only [List.cons_append, List.nil_append, List.take_succ_cons, List.take_append,
          groupBalance_cons, groupBalance_append, opened]
        omega
  · simp [opened, closed, balanced.leavesNone]

end IsBalanced

/-- From the first token of the list on, the number of open groups never comes back to
zero. -/
def NeverCloses (tokens : List Token) : Prop :=
  ∀ count, groupBalance (tokens.take (count + 1)) ≠ 0

/-- A parenthesis with balanced tokens behind it stays open unless what follows these
closes, up to some token, one group more than it opens. -/
theorem neverCloses_iff {parenthesis : Token} {inside later : List Token}
    (opens : parenthesis.IsSign "(") (balanced : IsBalanced inside) :
    NeverCloses (parenthesis :: (inside ++ later)) ↔
      ∀ count, groupBalance (later.take count) ≠ -1 := by
  have opened : parenthesis.groupChange = 1 := Token.groupChange_of_isSign opens
  simp only [NeverCloses, List.take_succ_cons, groupBalance_cons, opened]
  constructor
  · intro never count closes
    apply never (inside.length + count)
    rw [List.take_length_add_append, groupBalance_append, balanced.leavesNone, closes]
    rfl
  · intro staysOpen count
    rw [List.take_append, groupBalance_append]
    rcases Nat.le_total count inside.length with within | beyond
    · have inside := balanced.closesNone count
      rw [Nat.sub_eq_zero_of_le within, List.take_zero, groupBalance_nil]
      omega
    · have later := staysOpen (count - inside.length)
      rw [List.take_of_length_le beyond, balanced.leavesNone]
      omega

/-! ## The groups that a climb passes -/

/-- A parenthesis at a place was passed on the way, balanced tokens behind it, and the
reading stopped before a token that does not close it. -/
def LeftOpen (cursor last : Cursor) (span : Span) : Prop :=
  ∃ before parenthesis inside, cursor.Passes (before ++ parenthesis :: inside) last ∧
    parenthesis.IsSign "(" ∧ parenthesis.span = span ∧ IsBalanced inside ∧
      ¬last.current.IsSign ")"

theorem LeftOpen.of_passes {cursor middle last : Cursor} {tokens : List Token} {span : Span}
    (passes : cursor.Passes tokens middle) (open_ : LeftOpen middle last span) :
    LeftOpen cursor last span := by
  rcases open_ with ⟨before, parenthesis, inside, passesMore, facts⟩
  exact ⟨tokens ++ before, parenthesis, inside, by simpa using passes.trans passesMore, facts⟩

/-- A tree was read over balanced tokens, and a parenthesis that is reported was left
open. -/
def ExprOutcome.KeepsGroups (cursor : Cursor) : ExprOutcome → Prop
  | .ok _ next => ∃ tokens, cursor.Passes tokens next ∧ IsBalanced tokens
  | .error error next => ∀ span, error = .unbalancedParenthesis span → LeftOpen cursor next span

theorem ExprOutcome.KeepsGroups.of_passes {cursor middle : Cursor} {tokens : List Token}
    {outcome : ExprOutcome} (passes : cursor.Passes tokens middle) (balanced : IsBalanced tokens)
    (keeps : outcome.KeepsGroups middle) : outcome.KeepsGroups cursor := by
  cases outcome with
  | ok tree next =>
      rcases keeps with ⟨more, passesMore, balancedMore⟩
      exact ⟨tokens ++ more, passes.trans passesMore, balanced.append balancedMore⟩
  | error error next =>
      intro span same
      exact (keeps span same).of_passes passes

/-- The sign of an operator that is no parenthesis is passed without harm. -/
theorem Token.IsSign.passesBalanced {cursor : Cursor} {symbol : String}
    (isSign : cursor.current.IsSign symbol) (notOpening : symbol ≠ "(") (notClosing : symbol ≠ ")") :
    cursor.Passes [cursor.current] cursor.advance ∧ IsBalanced [cursor.current] := by
  refine ⟨.of_isEnd_eq_false isSign.is.isEnd_eq_false, .singleton ?_⟩
  rw [groupChange_of_isSign isSign, if_neg notOpening, if_neg notClosing]

theorem Token.IsSign.passesBalanced_of_operator {cursor : Cursor} {op : BinaryOperator}
    (isOperator : cursor.current.IsSign op.symbol) :
    cursor.Passes [cursor.current] cursor.advance ∧ IsBalanced [cursor.current] := by
  obtain ⟨_, notOpening, notClosing, _⟩ := op.symbol_ne
  exact isOperator.passesBalanced notOpening notClosing

theorem Token.groupChange_of_leaf? {token : Token} {tree : Expr}
    (isLeaf : token.leaf? = some tree) : token.groupChange = 0 := by
  have notReserved : token.category ≠ .reserved := by
    intro reserved
    simp [leaf?, reserved] at isLeaf
  simp [groupChange, IsSign, notReserved]

mutual

theorem ClimbOperand.keepsGroups {cursor : Cursor} {outcome : ExprOutcome} :
    ClimbOperand cursor outcome → outcome.KeepsGroups cursor
  | .leaf isLeaf =>
      ⟨_, .of_isEnd_eq_false (Token.isEnd_eq_false_of_leaf? isLeaf),
        .singleton (Token.groupChange_of_leaf? isLeaf)⟩
  | .group opens body closes => by
      have opening := Cursor.Passes.of_isEnd_eq_false opens.is.isEnd_eq_false
      have closing := Cursor.Passes.of_isEnd_eq_false closes.is.isEnd_eq_false
      obtain ⟨tokens, passes, balanced⟩ := body.keepsGroups
      exact ⟨_, opening.trans (passes.trans closing), .group opens closes balanced⟩
  | .groupFails opens body => by
      intro span same
      exact (body.keepsGroups span same).of_passes
        (.of_isEnd_eq_false opens.is.isEnd_eq_false)
  | .groupOpen opens body notClosed => by
      intro span same
      have opening := Cursor.Passes.of_isEnd_eq_false opens.is.isEnd_eq_false
      obtain ⟨tokens, passes, balanced⟩ := body.keepsGroups
      cases same
      exact ⟨[], _, tokens, opening.trans passes, opens, rfl, balanced, notClosed⟩
  | .negation isNot operand => by
      obtain ⟨sign, neutral⟩ := isNot.passesBalanced (by decide) (by decide)
      have body : ExprOutcome.KeepsGroups _ (.ok _ _) := operand.keepsGroups
      exact body.of_passes sign neutral
  | .negationFails isNot operand => by
      obtain ⟨sign, neutral⟩ := isNot.passesBalanced (by decide) (by decide)
      exact operand.keepsGroups.of_passes sign neutral
  | .missing _ => by
      intro span same
      simp [SyntaxError.atToken] at same

/-- A climb passes over balanced tokens, and what it reports it has left open. -/
theorem Climb.keepsGroups {floor : WithBot Nat} {cursor : Cursor} {outcome : ExprOutcome} :
    Climb floor cursor outcome → outcome.KeepsGroups cursor
  | .operandFails operand => operand.keepsGroups
  | .climbs operand operators => by
      obtain ⟨tokens, passes, balanced⟩ := operand.keepsGroups
      exact operators.keepsGroups.of_passes passes balanced

theorem ClimbOn.keepsGroups {floor : WithBot Nat} {left : Expr} {cursor : Cursor}
    {outcome : ExprOutcome} :
    ClimbOn floor left cursor outcome → outcome.KeepsGroups cursor
  | .stop _ => ⟨[], .refl _, .nil⟩
  | .combine isOperator _ operand operators => by
      obtain ⟨sign, neutral⟩ := isOperator.passesBalanced_of_operator
      obtain ⟨tokens, passes, balanced⟩ := operand.keepsGroups
      exact operators.keepsGroups.of_passes (sign.trans passes) (neutral.append balanced)
  | .operandFails isOperator _ operand => by
      obtain ⟨sign, neutral⟩ := isOperator.passesBalanced_of_operator
      exact operand.keepsGroups.of_passes sign neutral

end

/-! ## Programs -/

theorem expression_leftOpen {cursor last : Cursor} {span : Span} (meaning : cursor.HasMeaning)
    (fails : Parser.expression cursor = .error (.unbalancedParenthesis span) last) :
    LeftOpen cursor last span := by
  have climb := (expression_eq_iff_climb meaning _).mp fails
  exact climb.keepsGroups span rfl

theorem program_leftOpen {cursor last : Cursor} {span : Span} (meaning : cursor.HasMeaning)
    (fails : Parser.program cursor = .error (.unbalancedParenthesis span) last) :
    LeftOpen cursor last span := by
  cases Parser.tracesErrors_program fails with
  | token wanted same => simp [SyntaxError.atToken] at same
  | expression passes failsThere =>
      apply (expression_leftOpen ?_ failsThere).of_passes passes
      intro token member
      exact meaning token (by simp [passes.rest, member])

/-- At a place there is a parenthesis that is never closed. -/
def NeverClosedAt (tokens : List Token) (span : Span) : Prop :=
  ∃ before parenthesis later, tokens = before ++ parenthesis :: later ∧
    parenthesis.IsSign "(" ∧ parenthesis.span = span ∧ NeverCloses (parenthesis :: later)

/-- Tokens that begin at different offsets stand at one place only. -/
theorem eq_of_sortedLT_offset {before others later further : List Token} {token other : Token}
    (sorted : ((before ++ token :: later).map fun token => token.span.offset).SortedLT)
    (same : before ++ token :: later = others ++ other :: further)
    (sameSpan : other.span = token.span) : other = token ∧ further = later := by
  have distinct : ((before ++ token :: later).map fun token => token.span.offset).Nodup :=
    sorted.nodup
  rw [List.map_append, List.map_cons, List.nodup_middle, List.nodup_cons, ← sameSpan,
    List.mem_append] at distinct
  have notElsewhere := not_or.mp distinct.1
  obtain ⟨_, sameToken, sameRest⟩ := (List.append_cons_inj_of_notMem
    (fun member => notElsewhere.1 (List.mem_map_of_mem member))
    (fun member => notElsewhere.2 (List.mem_map_of_mem member))).mp same
  exact ⟨sameToken.symm, sameRest.symm⟩

/-- A parenthesis that was left open is never closed unless it is closed where the reading
did not get to. -/
theorem LeftOpen.neverClosedAt_iff {tokens : List Token} {endOffset : Nat} {cursor : Cursor}
    {span : Span} (leftOpen : LeftOpen (Cursor.ofTokens tokens endOffset) cursor span)
    (sorted : (tokens.map fun token => token.span.offset).SortedLT) :
    NeverClosedAt tokens span ↔ ∀ count, groupBalance (cursor.rest.take count) ≠ -1 := by
  rcases leftOpen with ⟨before, parenthesis, inside, passes, opens, rfl, balanced, _⟩
  have split : tokens = before ++ parenthesis :: (inside ++ cursor.rest) := by
    simpa [Cursor.ofTokens] using passes.rest
  rw [← neverCloses_iff opens balanced]
  constructor
  · rintro ⟨others, other, further, same, _, sameSpan, never⟩
    obtain ⟨rfl, rfl⟩ := eq_of_sortedLT_offset (split ▸ sorted) (split.symm.trans same) sameSpan
    exact never
  · intro never
    exact ⟨before, parenthesis, _, split, opens, rfl, never⟩

theorem leftOpen_of_tokenize {source : Source} {tokens : List Token} {cursor : Cursor}
    {span : Span} (lexes : Grammar.standard.tokenize source.text = .ok tokens)
    (fails : Parser.program (Cursor.ofTokens tokens source.size) =
      .error (.unbalancedParenthesis span) cursor) :
    LeftOpen (Cursor.ofTokens tokens source.size) cursor span := by
  obtain ⟨words, mark, rfl, standard⟩ := Token.isStandard_of_tokenize lexes
  have regular := Cursor.isRegular_ofTokens
    (fun token member => (standard token member).isRegular) mark source.size
  exact program_leftOpen regular.hasMeaning fails

/-- When a source is refused for a parenthesis, there is an opening parenthesis at the
reported place, only groups that were closed were passed behind it, and the reading stopped
before a token that does not close it either.  The parenthesis is in fact never closed if
and only if the tokens from that one on do not close, up to any of them, one group more than
they open. -/
theorem neverClosedAt_iff_of_unbalancedParenthesis {source : Source} {tokens : List Token}
    {cursor : Cursor} {span : Span} (lexes : Grammar.standard.tokenize source.text = .ok tokens)
    (fails : Parser.program (Cursor.ofTokens tokens source.size) =
      .error (.unbalancedParenthesis span) cursor) :
    LeftOpen (Cursor.ofTokens tokens source.size) cursor span ∧
      (NeverClosedAt tokens span ↔ ∀ count, groupBalance (cursor.rest.take count) ≠ -1) := by
  have leftOpen := leftOpen_of_tokenize lexes fails
  exact ⟨leftOpen, leftOpen.neverClosedAt_iff (Grammar.sortedLT_offset_of_tokenize lexes)⟩

/-- An integer token of one digit. -/
def digitToken (digit : Int64) (offset : Nat) : Token where
  category := .number
  subcategory := some .int
  precedence := 0
  value := .int digit
  span := ⟨offset, 1⟩

/-- A source in which two operands stand side by side in the inner one of two groups, of
which only the inner one is closed. -/
def looseOperand : Source :=
  Source.ofText none "print ((1 2);"

/-- The tokens of the source up to the second operand. -/
def beforeLooseOperand : List Token :=
  [wordToken "print" 0, signToken "(" 9 6, signToken "(" 9 7, digitToken 1 8]

/-- The tokens of the source from the second operand on. -/
def fromLooseOperand : List Token :=
  [digitToken 2 10, signToken ")" 0 11, symbolToken ";" 12, .endOfInput 13]

theorem tokenize_looseOperand :
    Grammar.standard.tokenize looseOperand.text = .ok (beforeLooseOperand ++ fromLooseOperand) := by
  decide +kernel

theorem program_looseOperand :
    Parser.program (Cursor.ofTokens (beforeLooseOperand ++ fromLooseOperand) looseOperand.size) =
      .error (.unbalancedParenthesis ⟨7, 1⟩) ⟨fromLooseOperand, 4, 13⟩ :=
  rfl

/-- The inner parenthesis is reported, and the closing one that stands two tokens further
on closes it. -/
theorem not_forall_neverClosedAt :
    ¬∀ (source : Source) (tokens : List Token) (span : Span),
      Grammar.standard.tokenize source.text = .ok tokens →
        source.parse = .error (.syntactic (.unbalancedParenthesis span)) →
          NeverClosedAt tokens span := by
  intro always
  have refused : looseOperand.parse =
      .error (.syntactic (.unbalancedParenthesis ⟨7, 1⟩)) := by
    simp only [Source.parse, Source.parseWith, tokenize_looseOperand, parseTokens,
      program_looseOperand]
  have never := always _ _ _ tokenize_looseOperand refused
  have leftOpen := leftOpen_of_tokenize tokenize_looseOperand program_looseOperand
  rw [leftOpen.neverClosedAt_iff
    (Grammar.sortedLT_offset_of_tokenize tokenize_looseOperand)] at never
  exact never 2 (by decide)

/-- A source in which the end of a statement stands in an open group. -/
def unclosedGroup : Source :=
  Source.ofText none "print (1;"

/-- The tokens of the source up to the end of the statement. -/
def beforeUnclosedEnd : List Token :=
  [wordToken "print" 0, signToken "(" 9 6, digitToken 1 7]

/-- With nothing behind the group that could close it, the report is right. -/
theorem neverClosedAt_unclosedGroup :
    NeverClosedAt (beforeUnclosedEnd ++ [symbolToken ";" 8, .endOfInput 9]) ⟨6, 1⟩ := by
  have lexes : Grammar.standard.tokenize unclosedGroup.text =
      .ok (beforeUnclosedEnd ++ [symbolToken ";" 8, .endOfInput 9]) := by decide +kernel
  have fails : Parser.program (Cursor.ofTokens
      (beforeUnclosedEnd ++ [symbolToken ";" 8, .endOfInput 9]) unclosedGroup.size) =
        .error (.unbalancedParenthesis ⟨6, 1⟩) ⟨[symbolToken ";" 8, .endOfInput 9], 3, 9⟩ := rfl
  obtain ⟨_, neverClosed⟩ := neverClosedAt_iff_of_unbalancedParenthesis lexes fails
  refine neverClosed.mpr fun count => ?_
  rcases Nat.lt_or_ge count 2 with first | all
  · interval_cases count <;> decide
  · rw [List.take_of_length_le all]
    decide

end WhileLang
