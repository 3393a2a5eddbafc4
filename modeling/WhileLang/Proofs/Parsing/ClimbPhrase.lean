import WhileLang.Proofs.Parsing.Locality
import WhileLang.Proofs.Parsing.Phrase
import WhileLang.Proofs.Parsing.ScanAgreement

/-!
# Climbing reads the phrases of the grammar

What a climb passes over on its way to a tree spells the tree.  What it passes over
before it fails is not lost either: further tokens of the language complete it to an
expression, so the climb has not passed over anything wrong.

In the other direction, a climb on tokens that spell a tree builds the tree, if what
follows them cannot be taken for a part of the expression.
-/

namespace WhileLang

/-! ## Tokens to go on with -/

/-- All tokens are emitted for some texts. -/
def Grammar.EmitsAll (grammar : Grammar) (tokens : List Token) : Prop :=
  ∀ token ∈ tokens, grammar.Emits token

theorem Grammar.EmitsAll.nil (grammar : Grammar) : grammar.EmitsAll [] := by
  simp [EmitsAll]

theorem Grammar.Emits.emitsAll {grammar : Grammar} {token : Token} (emitted : grammar.Emits token) :
    grammar.EmitsAll [token] := by
  simpa [EmitsAll] using emitted

theorem Grammar.EmitsAll.append {grammar : Grammar} {first second : List Token}
    (emitsFirst : grammar.EmitsAll first) (emitsSecond : grammar.EmitsAll second) :
    grammar.EmitsAll (first ++ second) := by
  intro token member
  rcases List.mem_append.mp member with inFirst | inSecond
  · exact emitsFirst token inFirst
  · exact emitsSecond token inSecond

theorem exists_emits_is {text : String}
    (isFixed : text ∈ Grammar.standard.fixedWords) :
    ∃ token, Grammar.standard.Emits token ∧ token.Is text := by
  rcases List.mem_map.mp isFixed with ⟨entry, listed, rfl⟩
  obtain ⟨token, emitted, written⟩ := (isWord_of_mem_fixedTokens listed).exists_emits
  exact ⟨token, emitted, written.is (List.mem_map.mpr ⟨entry, listed, rfl⟩)⟩

theorem exists_emits_name :
    ∃ token, Grammar.standard.Emits token ∧ token.category = .identifier := by
  have isName : IsName "x" := by decide
  obtain ⟨token, emitted, written⟩ := (isWord_of_isName isName).exists_emits
  exact ⟨token, emitted, congrArg TokenClass.category (written.of_isName isName).2⟩

theorem Token.leaf?_of_identifier {token : Token} (isName : token.category = .identifier) :
    token.leaf? = some (.var token.value.render) := by
  simp [leaf?, isName]

namespace Cursor

theorem Passes.of_isEnd_eq_false {cursor : Cursor} (notEnd : cursor.current.isEnd = false) :
    cursor.Passes [cursor.current] cursor.advance := by
  apply Passes.of_head?
  apply head?_eq_current
  intro atEnd
  simp [atEnd] at notEnd

theorem IsRegular.of_passes {cursor next : Cursor} {tokens : List Token}
    (regular : cursor.IsRegular) (passes : cursor.Passes tokens next) : next.IsRegular := by
  intro token member
  apply regular
  rw [passes.rest]
  exact List.mem_append_right tokens member

end Cursor

/-! ## What a climb reads -/

/-- The tokens spell the tree, and so does it as the left operand of the token that
follows them, if that is a binary operator: a negation at the end has taken all that it
can. -/
structure SpellsBefore (level : Nat) (endsNegated : Bool) (following : Token)
    (tokens : List Token) (tree : Expr) : Prop where
  spells : SpellsExpr level endsNegated tokens tree
  asOperand : ∀ lower : Nat, following.Exceeds lower → SpellsExpr lower endsNegated tokens tree
  longest : endsNegated → ¬following.Exceeds negationPrecedence

/-- What was passed, behind some tokens, spells the tree that was read, or it can be
completed to an expression if there was an error. -/
def ExprOutcome.IsPhrase (level : Nat) (before : List Token) (cursor : Cursor) :
    ExprOutcome → Prop
  | .ok tree next => ∃ tokens endsNegated, cursor.Passes tokens next ∧
      SpellsBefore level endsNegated next.current (before ++ tokens) tree
  | .error _ next => ∃ tokens completion tree endsNegated, cursor.Passes tokens next ∧
      Grammar.standard.EmitsAll completion ∧
        SpellsExpr level endsNegated (before ++ (tokens ++ completion)) tree

/-- Tokens that were passed can be counted to those before. -/
theorem ExprOutcome.IsPhrase.of_passes {level : Nat} {before tokens : List Token}
    {cursor middle : Cursor} {outcome : ExprOutcome} (passes : cursor.Passes tokens middle)
    (isPhrase : outcome.IsPhrase level (before ++ tokens) middle) :
    outcome.IsPhrase level before cursor := by
  cases outcome with
  | ok tree next =>
      rcases isPhrase with ⟨more, endsNegated, passesMore, spells⟩
      exact ⟨tokens ++ more, endsNegated, passes.trans passesMore, by simpa using spells⟩
  | error error next =>
      rcases isPhrase with ⟨more, completion, tree, endsNegated, passesMore, emitted, spells⟩
      exact ⟨tokens ++ more, completion, tree, endsNegated, passes.trans passesMore, emitted,
        by simpa using spells⟩

theorem lt_of_unbotD_eq {floor : WithBot Nat} {level precedence : Nat}
    (same : floor.unbotD 0 = level) (positive : 0 < precedence)
    (exceeds : floor < (precedence : WithBot Nat)) : level < precedence := by
  subst same
  cases floor with
  | bot => exact positive
  | coe floor => exact WithBot.coe_lt_coe.mp exceeds

/-- What stands before a binary operator can be its left operand. -/
theorem SpellsBefore.asLeftOperand {level : Nat} {endsNegated : Bool} {op : BinaryOperator}
    {sign : Token} {tokens : List Token} {tree : Expr}
    (operand : SpellsBefore level endsNegated sign tokens tree) (isSign : sign.IsSign op.symbol)
    (precedence : sign.precedence = op.precedence) :
    SpellsExpr (op.precedence - 1) endsNegated tokens tree ∧
      (endsNegated → op.precedence ≤ negationPrecedence) := by
  have positive := op.precedence_pos
  have exceeds : ∀ lower : Nat, lower < op.precedence → sign.Exceeds lower := by
    intro lower below
    exact ⟨⟨op, isSign⟩, by rwa [precedence, Nat.cast_lt]⟩
  constructor
  · exact operand.asOperand _ (exceeds _ (by omega))
  · intro negated
    by_contra larger
    exact operand.longest negated (exceeds _ (Nat.lt_of_not_le larger))

/-- An operator with both operands is the left operand of what follows, unless that would
have been taken into the right operand. -/
theorem SpellsBefore.binary {level : Nat} {leftNegated rightNegated : Bool}
    {op : BinaryOperator} {sign following : Token} {leftTokens rightTokens : List Token}
    {left right : Expr} (leftOperand : SpellsBefore level leftNegated sign leftTokens left)
    (isSign : sign.IsSign op.symbol) (precedence : sign.precedence = op.precedence)
    (rightOperand : SpellsBefore op.precedence rightNegated following rightTokens right)
    (exceeds : level < op.precedence) (notExceeds : ¬following.Exceeds op.precedence) :
    SpellsBefore level rightNegated following (leftTokens ++ sign :: rightTokens)
      (op.node left right) := by
  obtain ⟨leftSpells, longest⟩ := leftOperand.asLeftOperand isSign precedence
  constructor
  · exact .binary leftSpells isSign.is rightOperand.spells exceeds longest
  · intro lower followingExceeds
    apply SpellsExpr.binary leftSpells isSign.is rightOperand.spells _ longest
    by_contra larger
    apply notExceeds
    rcases followingExceeds with ⟨isOperator, above⟩
    exact ⟨isOperator, lt_of_le_of_lt (Nat.cast_le.mpr (Nat.le_of_not_lt larger)) above⟩
  · exact rightOperand.longest

/-- What spells a tree at every level and ends in no negation can stand before anything. -/
theorem SpellsBefore.of_closed {tokens : List Token} {tree : Expr}
    (spells : ∀ level, SpellsExpr level false tokens tree) (level : Nat) (following : Token) :
    SpellsBefore level false following tokens tree where
  spells := spells level
  asOperand lower _ := spells lower
  longest := by simp

mutual

/-- Reading an operand passes over a phrase. -/
theorem ClimbOperand.isPhrase {cursor : Cursor} {outcome : ExprOutcome} :
    ClimbOperand cursor outcome → cursor.IsRegular → ∀ level, outcome.IsPhrase level [] cursor
  | .leaf isLeaf, _, level => by
      have passes := Cursor.Passes.of_isEnd_eq_false (Token.isEnd_eq_false_of_leaf? isLeaf)
      exact ⟨_, false, passes, .of_closed (fun _ => .leaf isLeaf) level _⟩
  | .group opens body closes, regular, level => by
      have opening := Cursor.Passes.of_isEnd_eq_false opens.is.isEnd_eq_false
      have closing := Cursor.Passes.of_isEnd_eq_false closes.is.isEnd_eq_false
      obtain ⟨tokens, endsNegated, passes, inner⟩ := body.isPhrase regular.advance 0 rfl
      exact ⟨_, false, opening.trans (passes.trans closing),
        .of_closed (fun _ => .group opens.is inner.spells closes.is) level _⟩
  | .groupFails opens body, regular, level => by
      have opening := Cursor.Passes.of_isEnd_eq_false opens.is.isEnd_eq_false
      obtain ⟨tokens, completion, tree, endsNegated, passes, emitted, inner⟩ :=
        body.isPhrase regular.advance 0 rfl
      obtain ⟨closing, emitsClosing, closes⟩ :
          ∃ token, Grammar.standard.Emits token ∧ token.Is ")" := exists_emits_is (by decide)
      have whole : SpellsExpr level false _ tree := .group opens.is inner closes
      exact ⟨_, completion ++ [closing], tree, false, opening.trans passes,
        emitted.append emitsClosing.emitsAll, by simpa using whole⟩
  | .groupOpen opens body _, regular, level => by
      have opening := Cursor.Passes.of_isEnd_eq_false opens.is.isEnd_eq_false
      obtain ⟨tokens, endsNegated, passes, inner⟩ := body.isPhrase regular.advance 0 rfl
      obtain ⟨closing, emitsClosing, closes⟩ :
          ∃ token, Grammar.standard.Emits token ∧ token.Is ")" := exists_emits_is (by decide)
      have whole : SpellsExpr level false _ _ := .group opens.is inner.spells closes
      exact ⟨_, [closing], _, false, opening.trans passes, emitsClosing.emitsAll,
        by simpa using whole⟩
  | .negation isNot operand, regular, level => by
      have sign := Cursor.Passes.of_isEnd_eq_false isNot.is.isEnd_eq_false
      have precedence := regular.current.negation isNot
      obtain ⟨tokens, endsNegated, passes, inner⟩ :=
        operand.isPhrase regular.advance negationPrecedence precedence
      have notExceeds := operand.not_exceeds
      rw [precedence] at notExceeds
      have whole : ∀ level, SpellsExpr level true _ _ := fun _ => .negation isNot.is inner.spells
      exact ⟨_, true, sign.trans passes, whole level, fun lower _ => whole lower,
        fun _ => notExceeds⟩
  | .negationFails isNot operand, regular, level => by
      have sign := Cursor.Passes.of_isEnd_eq_false isNot.is.isEnd_eq_false
      obtain ⟨tokens, completion, tree, endsNegated, passes, emitted, inner⟩ :=
        operand.isPhrase regular.advance negationPrecedence (regular.current.negation isNot)
      exact ⟨_, completion, _, true, sign.trans passes, emitted, .negation isNot.is inner⟩
  | .missing _, _, level => by
      rcases exists_emits_name with ⟨name, emitted, isName⟩
      exact ⟨[], [name], _, false, .refl _, emitted.emitsAll,
        .leaf (Token.leaf?_of_identifier isName)⟩

/-- A climb passes over a phrase whose operators exceed the floor. -/
theorem Climb.isPhrase {floor : WithBot Nat} {cursor : Cursor} {outcome : ExprOutcome} :
    Climb floor cursor outcome → cursor.IsRegular → ∀ level, floor.unbotD 0 = level →
      outcome.IsPhrase level [] cursor
  | .operandFails operand, regular, level, _ => operand.isPhrase regular level
  | .climbs operand operators, regular, level, same => by
      obtain ⟨tokens, endsNegated, passes, spells⟩ := operand.isPhrase regular level
      exact .of_passes passes
        (operators.isPhrase (regular.of_passes passes) level same _ endsNegated spells)

/-- Going on behind an operand passes over the rest of a phrase that begins with it. -/
theorem ClimbOn.isPhrase {floor : WithBot Nat} {left : Expr} {cursor : Cursor}
    {outcome : ExprOutcome} :
    ClimbOn floor left cursor outcome → cursor.IsRegular → ∀ level, floor.unbotD 0 = level →
      ∀ before endsNegated, SpellsBefore level endsNegated cursor.current before left →
        outcome.IsPhrase level before cursor
  | .stop _, _, level, _, before, endsNegated, spells =>
      ⟨[], endsNegated, .refl cursor, by simpa using spells⟩
  | .combine isOperator exceeds operand operators, regular, level, same, before, endsNegated,
      spells => by
      have sign := Cursor.Passes.of_isEnd_eq_false isOperator.is.isEnd_eq_false
      have precedence := regular.current.binary _ isOperator
      obtain ⟨tokens, rightNegated, passes, right⟩ :=
        operand.isPhrase regular.advance _ precedence
      have notExceeds := operand.not_exceeds
      rw [precedence] at notExceeds exceeds
      have above := lt_of_unbotD_eq same (BinaryOperator.precedence_pos _) exceeds
      have both := spells.binary isOperator precedence right above notExceeds
      have passed := sign.trans passes
      exact .of_passes passed
        (operators.isPhrase (regular.of_passes passed) level same _ rightNegated both)
  | .operandFails isOperator exceeds operand, regular, level, same, before, endsNegated,
      spells => by
      have sign := Cursor.Passes.of_isEnd_eq_false isOperator.is.isEnd_eq_false
      have precedence := regular.current.binary _ isOperator
      obtain ⟨tokens, completion, right, rightNegated, passes, emitted, inner⟩ :=
        operand.isPhrase regular.advance _ precedence
      rw [precedence] at exceeds
      have above := lt_of_unbotD_eq same (BinaryOperator.precedence_pos _) exceeds
      obtain ⟨leftSpells, longest⟩ := spells.asLeftOperand isOperator precedence
      have both : SpellsExpr level rightNegated _ _ :=
        .binary leftSpells isOperator.is inner above longest
      exact ⟨_, completion, _, rightNegated, sign.trans passes, emitted, by simpa using both⟩

end

/-! ## What a climb blames -/

/-- An error that found something else than what it wanted names the token and its
place. -/
def SyntaxError.Blames (error : SyntaxError) (token : Token) : Prop :=
  ∀ wanted found span, error = .expected wanted found span →
    found = token.value ∧ span = token.span

theorem SyntaxError.blames_atToken (wanted : Expectation) (token : Token) :
    (SyntaxError.atToken wanted token).Blames token := by
  rintro _ _ _ same
  cases same
  exact ⟨rfl, rfl⟩

theorem SyntaxError.blames_unbalancedParenthesis (span : Span) (token : Token) :
    (SyntaxError.unbalancedParenthesis span).Blames token := by
  rintro _ _ _ same
  cases same

/-- An error blames the token where the cursor was left. -/
def ExprOutcome.BlamesCurrent : ExprOutcome → Prop
  | .ok _ _ => True
  | .error error next => error.Blames next.current

mutual

theorem ClimbOperand.blamesCurrent {cursor : Cursor} {outcome : ExprOutcome} :
    ClimbOperand cursor outcome → outcome.BlamesCurrent
  | .leaf _ => trivial
  | .group _ _ _ => trivial
  | .groupFails _ body => body.blamesCurrent
  | .groupOpen _ _ _ => SyntaxError.blames_unbalancedParenthesis _ _
  | .negation _ _ => trivial
  | .negationFails _ operand => operand.blamesCurrent
  | .missing _ => SyntaxError.blames_atToken _ _

/-- A climb fails at the token that it blames. -/
theorem Climb.blamesCurrent {floor : WithBot Nat} {cursor : Cursor} {outcome : ExprOutcome} :
    Climb floor cursor outcome → outcome.BlamesCurrent
  | .operandFails operand => operand.blamesCurrent
  | .climbs _ operators => operators.blamesCurrent

theorem ClimbOn.blamesCurrent {floor : WithBot Nat} {left : Expr} {cursor : Cursor}
    {outcome : ExprOutcome} : ClimbOn floor left cursor outcome → outcome.BlamesCurrent
  | .stop _ => trivial
  | .combine _ _ _ operators => operators.blamesCurrent
  | .operandFails _ _ operand => operand.blamesCurrent

end

/-! ## Phrases are climbed -/

theorem Token.Exceeds.of_le {token : Token} {lower higher : WithBot Nat}
    (exceeds : token.Exceeds higher) (below : lower ≤ higher) : token.Exceeds lower :=
  ⟨exceeds.1, lt_of_le_of_lt below exceeds.2⟩

/-- Only a binary operator exceeds a floor. -/
theorem Token.Is.not_exceeds {token : Token} {text : String} (is : token.Is text)
    (notBinary : ∀ op ∈ BinaryOperator.all, op.symbol ≠ text) (floor : WithBot Nat) :
    ¬token.Exceeds floor := by
  rintro ⟨⟨op, isSign⟩, _⟩
  exact notBinary op op.mem_all (isSign.is.unique is)

/-- A climb on a phrase builds its tree and goes on behind it, if what follows neither
binds more tightly than the phrase nor belongs to a negation at its end. -/
theorem SpellsExpr.climb {level : Nat} {endsNegated : Bool} {tokens : List Token} {tree : Expr}
    (spells : SpellsExpr level endsNegated tokens tree) :
    ∀ {cursor next : Cursor}, cursor.IsRegular → cursor.Passes tokens next →
      ¬next.current.Exceeds (level + 1 : Nat) →
      (endsNegated → ¬next.current.Exceeds negationPrecedence) →
      ∀ {floor : WithBot Nat} {outcome : ExprOutcome}, floor ≤ level →
        ClimbOn floor tree next outcome → Climb floor cursor outcome := by
  induction spells with
  | leaf isLeaf =>
      intro cursor next _ passes _ _ floor outcome _ operators
      rw [← passes.advance] at operators
      exact .climbs (.leaf (by rwa [passes.current])) operators
  | @group _ _ opening closing tokens tree opens body closes ih =>
      intro cursor next regular passes _ _ floor outcome _ operators
      obtain ⟨start, passesOpening, passesRest⟩ := passes.split [opening]
      obtain ⟨last, passesBody, passesClosing⟩ := passesRest.split tokens
      have isOpening : cursor.current.IsSign "(" :=
        regular.current.isSign _ (by decide) (by rwa [passes.current])
      have startRegular := regular.of_passes passesOpening
      have lastRegular := startRegular.of_passes passesBody
      have isClosing : last.current.Is ")" := by rwa [passesClosing.current]
      have notBinary := isClosing.not_exceeds (by decide)
      have inner : Climb ⊥ start (.ok tree last) :=
        ih startRegular passesBody (notBinary _) (fun _ => notBinary _) bot_le
          (.stop (notBinary _))
      rw [← passesOpening.advance] at inner
      rw [← passesClosing.advance] at operators
      exact .climbs (.group isOpening inner
        (lastRegular.current.isSign _ (by decide) isClosing)) operators
  | @negation _ _ sign tokens tree isNot operand ih =>
      intro cursor next regular passes _ longest floor outcome _ operators
      obtain ⟨start, passesSign, passesOperand⟩ := passes.split [sign]
      have isSign : cursor.current.IsSign "not" :=
        regular.current.isSign _ (by decide) (by rwa [passes.current])
      have precedence := regular.current.negation isSign
      have notExceeds : ¬next.current.Exceeds negationPrecedence := longest rfl
      have inner : Climb negationPrecedence start (.ok tree next) := by
        apply ih (regular.of_passes passesSign) passesOperand _ _ le_rfl (.stop notExceeds)
        · intro exceeds
          exact notExceeds (exceeds.of_le (Nat.cast_le.mpr (Nat.le_succ _)))
        · exact fun _ => notExceeds
      rw [← passesSign.advance, ← precedence] at inner
      exact .climbs (.negation isSign inner) operators
  | @binary level leftNegated rightNegated op sign leftTokens rightTokens left right leftOperand
      isOperator rightOperand exceeds longest leftIh rightIh =>
      intro cursor next regular passes below rightLongest floor outcome atMost operators
      obtain ⟨middle, passesLeft, passesRest⟩ := passes.split leftTokens
      obtain ⟨start, passesSign, passesRight⟩ := passesRest.split [sign]
      have middleRegular := regular.of_passes passesLeft
      have isSign : middle.current.IsSign op.symbol :=
        middleRegular.current.isSign_binary (by rwa [passesRest.current])
      have precedence := middleRegular.current.binary op isSign
      have positive := op.precedence_pos
      have notExceeds : ¬next.current.Exceeds op.precedence := by
        intro higher
        exact below (higher.of_le (Nat.cast_le.mpr exceeds))
      have inner : Climb op.precedence start (.ok right next) := by
        apply rightIh (middleRegular.of_passes passesSign) passesRight _ rightLongest le_rfl
          (.stop notExceeds)
        intro higher
        exact notExceeds (higher.of_le (Nat.cast_le.mpr (Nat.le_succ _)))
      rw [← passesSign.advance, ← precedence] at inner
      have floorBelow : floor < (op.precedence : WithBot Nat) :=
        lt_of_le_of_lt atMost (Nat.cast_lt.mpr exceeds)
      apply leftIh regular passesLeft
      · rintro ⟨_, higher⟩
        rw [precedence, Nat.cast_lt] at higher
        omega
      · rintro negated ⟨_, higher⟩
        rw [precedence, Nat.cast_lt] at higher
        exact absurd (longest negated) (Nat.not_le_of_lt higher)
      · exact atMost.trans (Nat.cast_le.mpr (by omega))
      · exact .combine isSign (by rwa [precedence]) inner operators

/-- An expression is read up to a token that is no binary operator. -/
theorem IsExpr.expression_eq {tokens : List Token} {tree : Expr} (isExpr : IsExpr tokens tree)
    {cursor next : Cursor} (regular : cursor.IsRegular) (passes : cursor.Passes tokens next)
    (notBinary : ∀ floor, ¬next.current.Exceeds floor) :
    Parser.expression cursor = .ok tree next := by
  rcases isExpr with ⟨endsNegated, spells⟩
  have climb : Climb ⊥ cursor (.ok tree next) :=
    spells.climb regular passes (notBinary _) (fun _ => notBinary _) bot_le (.stop (notBinary _))
  exact climb.expression_eq regular.hasMeaning

end WhileLang
