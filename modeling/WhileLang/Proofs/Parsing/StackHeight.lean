import Mathlib
import WhileLang.Proofs.Lexical.StandardToken
import WhileLang.Proofs.Parsing.Phrase
import WhileLang.Proofs.Parsing.Postorder

/-!
# The height of the stack of trees

A pass over an expression sends its tokens to a sequence from which a tree is built on a
stack.  Here it is shown that every operator finds its operands on the stack and that one
tree is left in the end, whatever tokens the pass was given.

Every token takes as many trees as it has operands and puts one there.  So the height of the
stack is known without building a tree.  While the pass runs, the output has raised the stack
to one tree for each binary operator that waits, its left operand, and one more if an operand
has just been read.  An operator that is sent out finds its operands for that reason.

What can still be wrong with a token of the sequence is the token itself: a number that
cannot be read, or a sign that means no operator.
-/

namespace WhileLang

/-! ## Heights -/

/-- How many operands a token has in a postorder sequence.  A reserved token that is no
operator has no part there. -/
def Token.arity? (token : Token) : Option Nat :=
  match token.category with
  | .number => some 0
  | .identifier => some 0
  | .reserved =>
      if token.isOperator then
        some (if token.text? = some "not" then 1 else 2)
      else
        none

/-- The height of the stack behind a token, which takes its operands from the stack and puts
its own tree there. -/
def heightAfter? (height : Nat) (token : Token) : Option Nat :=
  match token.arity? with
  | none => none
  | some arity => if arity ≤ height then some (height - arity + 1) else none

/-- The tokens find all their operands on a stack and change its height. -/
def Lifts (tokens : List Token) (before after : Nat) : Prop :=
  tokens.foldlM heightAfter? before = some after

/-- A sequence leaves one tree on an empty stack. -/
def IsComplete (tokens : List Token) : Prop :=
  Lifts tokens 0 1

instance (tokens : List Token) (before after : Nat) : Decidable (Lifts tokens before after) :=
  inferInstanceAs (Decidable (_ = _))

instance (tokens : List Token) : Decidable (IsComplete tokens) :=
  inferInstanceAs (Decidable (Lifts _ _ _))

theorem heightAfter?_eq_some_iff {before after : Nat} {token : Token} :
    heightAfter? before token = some after ↔
      ∃ arity height, token.arity? = some arity ∧ before = height + arity ∧
        after = height + 1 := by
  unfold heightAfter?
  cases token.arity? with
  | none => simp
  | some arity =>
      constructor
      · intro lifts
        dsimp only at lifts
        split at lifts
        case isFalse => cases lifts
        case isTrue enough =>
          exact ⟨arity, before - arity, rfl, (Nat.sub_add_cancel enough).symm,
            (Option.some.inj lifts).symm⟩
      · rintro ⟨_, height, same, rfl, rfl⟩
        cases same
        simp

namespace Lifts

variable {tokens first second : List Token} {token : Token} {before middle after : Nat}

theorem nil (height : Nat) : Lifts [] height height :=
  rfl

theorem append (liftsFirst : Lifts first before middle) (liftsSecond : Lifts second middle after) :
    Lifts (first ++ second) before after := by
  have liftsFirst : first.foldlM heightAfter? before = some middle := liftsFirst
  rw [Lifts, List.foldlM_append, liftsFirst]
  exact liftsSecond

theorem singleton {arity : Nat} (takes : token.arity? = some arity) (height : Nat) :
    Lifts [token] (height + arity) (height + 1) := by
  have lifts : heightAfter? (height + arity) token = some (height + 1) :=
    heightAfter?_eq_some_iff.mpr ⟨arity, height, takes, rfl, rfl⟩
  rw [Lifts, List.foldlM_cons, lifts]
  rfl

theorem cons_iff :
    Lifts (token :: tokens) before after ↔
      ∃ middle, heightAfter? before token = some middle ∧ Lifts tokens middle after := by
  rw [Lifts, List.foldlM_cons]
  exact Option.bind_eq_some_iff

end Lifts

/-! ## Building trees on a stack that is high enough -/

/-- The tree of a token cannot be made although its operands are there: its number cannot be
read, or its sign means no operator. -/
inductive Token.HasNoNode (token : Token) : SyntaxError → Prop
  | number {literal : String} (isNumber : token.category = .number)
      (isText : token.text? = some literal)
      (noInteger : ∀ number, Decimal.readInteger literal.toList ≠ .ok number)
      (noFloat : ∀ number, Decimal.readFloat literal.toList ≠ .ok number) :
      HasNoNode token (.atToken .number token)
  | operator (reserved : token.category = .reserved) (isOperator : token.isOperator = true)
      (notNegation : token.text? ≠ some "not")
      (unknown : ∀ op : BinaryOperator, token.text? ≠ some op.symbol) :
      HasNoNode token (.invalidOperator token.value token.span)

theorem numberLeaf_cases {token : Token} (isNumber : token.category = .number) :
    (∃ leaf, numberLeaf token = .ok leaf) ∨
      ∃ error, token.HasNoNode error ∧ numberLeaf token = .error error := by
  unfold numberLeaf
  cases value : token.value with
  | int number => exact .inl ⟨_, rfl⟩
  | float number => exact .inl ⟨_, rfl⟩
  | text literal =>
      have isText : token.text? = some literal := by simp [Token.text?, value]
      cases integer : Decimal.readInteger literal.toList with
      | ok number => exact .inl ⟨.integer number, by simp [integer]⟩
      | error noInteger =>
          cases float : Decimal.readFloat literal.toList with
          | ok number => exact .inl ⟨.float number, by simp [integer, float]⟩
          | error noFloat =>
              have hasNoNode : token.HasNoNode (.atToken .number token) :=
                .number isNumber isText (by simp [integer]) (by simp [float])
              exact .inr ⟨_, hasNoNode, by simp [integer, float]⟩

theorem operatorNode_cases {token : Token} (reserved : token.category = .reserved)
    (isOperator : token.isOperator = true) (notNegation : token.text? ≠ some "not")
    (left right : Expr) :
    (∃ node, operatorNode token (some left) right = .ok node) ∨
      ∃ error, token.HasNoNode error ∧ operatorNode token (some left) right = .error error := by
  by_cases known : ∃ op : BinaryOperator, token.text? = some op.symbol
  · obtain ⟨op, text⟩ := known
    have isSign : token.IsSign op.symbol :=
      ⟨reserved, of_decide_eq_true isOperator, Token.value_of_text? text⟩
    exact .inl ⟨_, operatorNode_eq_node isSign left right⟩
  · have unknown : ∀ op : BinaryOperator, token.text? ≠ some op.symbol :=
      fun op text => known ⟨op, text⟩
    cases outcome : operatorNode token (some left) right with
    | ok node =>
        obtain ⟨op, text, _⟩ := operatorNode_eq_ok notNegation outcome
        exact absurd text (unknown op)
    | error error =>
        have isInvalid : error = .invalidOperator token.value token.span := by
          unfold operatorNode at outcome
          dsimp only at outcome
          split_ifs at outcome
          split at outcome <;> cases outcome
          rfl
        exact .inr ⟨error, isInvalid ▸ .operator reserved isOperator notNegation unknown, rfl⟩

/-- A token whose operands are on the stack leaves a stack of the height that is due, or its
tree cannot be made. -/
theorem reduceToken_of_heightAfter? {trees : List Expr} {token : Token} {height : Nat}
    (lifts : heightAfter? trees.length token = some height) :
    (∃ after, reduceToken trees token = .ok after ∧ after.length = height) ∨
      ∃ error, token.HasNoNode error ∧ reduceToken trees token = .error error := by
  obtain ⟨arity, rest, takes, enough, rfl⟩ := heightAfter?_eq_some_iff.mp lifts
  unfold Token.arity? at takes
  unfold reduceToken
  cases category : token.category with
  | number =>
      rw [category] at takes
      cases takes
      rcases numberLeaf_cases category with ⟨leaf, makes⟩ | ⟨error, hasNoNode, fails⟩
      · exact .inl ⟨leaf :: trees, by rw [makes]; rfl, by simpa using enough⟩
      · exact .inr ⟨error, hasNoNode, by rw [fails]; rfl⟩
  | identifier =>
      rw [category] at takes
      cases takes
      exact .inl ⟨_, rfl, by simpa using enough⟩
  | reserved =>
      rw [category] at takes
      by_cases isOperator : token.isOperator = true
      · by_cases isNot : token.text? = some "not"
        · simp only [isOperator, isNot, if_true, Option.some.injEq] at takes ⊢
          subst takes
          obtain ⟨right, below, rfl⟩ := List.exists_cons_of_length_eq_add_one enough
          exact .inl ⟨.not right :: below, by simp [operatorNode, isNot, Except.map], by
            simpa using enough⟩
        · simp only [isOperator, isNot, if_true, if_false, Option.some.injEq] at takes ⊢
          subst takes
          obtain ⟨right, belowRight, rfl⟩ := List.exists_cons_of_length_eq_add_one enough
          have enough : belowRight.length = rest + 1 := by simpa using enough
          obtain ⟨left, below, rfl⟩ := List.exists_cons_of_length_eq_add_one enough
          rcases operatorNode_cases category isOperator isNot left right with
            ⟨node, makes⟩ | ⟨error, hasNoNode, fails⟩
          · exact .inl ⟨node :: below, by simp [makes, Except.map], by simpa using enough⟩
          · exact .inr ⟨error, hasNoNode, by simp [fails, Except.map]⟩
      · simp [isOperator] at takes

/-- A sequence that finds all its operands builds a stack of the height that is due, or the
tree of one of its tokens cannot be made. -/
theorem Lifts.foldlM_reduceToken {tokens : List Token} {trees : List Expr} {height : Nat}
    (lifts : Lifts tokens trees.length height) :
    (∃ after, tokens.foldlM reduceToken trees = .ok after ∧ after.length = height) ∨
      ∃ token ∈ tokens, ∃ error, token.HasNoNode error ∧
        tokens.foldlM reduceToken trees = .error error := by
  induction tokens generalizing trees with
  | nil => exact .inl ⟨trees, rfl, Option.some.inj lifts⟩
  | cons token tokens ih =>
      obtain ⟨middle, first, rest⟩ := Lifts.cons_iff.mp lifts
      rw [List.foldlM_cons]
      rcases reduceToken_of_heightAfter? first with ⟨after, reduced, rfl⟩ |
        ⟨error, hasNoNode, fails⟩
      · rw [reduced]
        rcases ih rest with built | ⟨culprit, member, failure⟩
        · exact .inl built
        · exact .inr ⟨culprit, List.mem_cons_of_mem token member, failure⟩
      · rw [fails]
        exact .inr ⟨token, List.mem_cons_self, error, hasNoNode, rfl⟩

theorem IsComplete.exprOfPostorder {tokens : List Token} (complete : IsComplete tokens)
    (following : Token) :
    (∃ tree, exprOfPostorder following tokens = .ok tree) ∨
      ∃ token ∈ tokens, ∃ error, token.HasNoNode error ∧
        exprOfPostorder following tokens = .error error := by
  have lifts : Lifts tokens ([] : List Expr).length 1 := complete
  unfold WhileLang.exprOfPostorder
  rcases lifts.foldlM_reduceToken with ⟨after, built, single⟩ |
    ⟨token, member, error, hasNoNode, fails⟩
  · obtain ⟨tree, rfl⟩ := List.length_eq_one_iff.mp single
    rw [built]
    exact .inl ⟨tree, rfl⟩
  · rw [fails]
    exact .inr ⟨token, member, error, hasNoNode, rfl⟩

/-- An operator with one operand too few leaves no complete sequence. -/
example :
    IsComplete [operandToken 7 0, operandToken 2 2, signToken "-" 4 4] ∧
      ¬IsComplete [operandToken 7 0, signToken "-" 4 4] := by
  decide

/-! ## What a pass sends out -/

namespace Token

/-- The token is kept waiting by a pass. -/
def Waits (token : Token) : Prop :=
  token.role = .opening ∨ token.role = .binary

/-- The token is one that a pass sends out: an operand, a negation or a binary operator. -/
def GoesOut (token : Token) : Prop :=
  token.role = .operand ∨ token.Waits ∧ token.opensGroup = false

variable {token : Token}

/-- What decides the role of a token. -/
theorem role_cases_of_category (token : Token) :
    token.role = .outside ∨ (token.role = .operand ∧ token.category ≠ .reserved) ∨
      (token.category = .reserved ∧ token.isOperator = true ∧ token.role =
        if token.text? = some "(" ∨ token.text? = some "not" then .opening
        else if token.text? = some ")" then .closing
        else .binary) := by
  unfold role
  by_cases atEnd : token.isEnd = true
  · exact .inl (if_pos atEnd)
  · rw [if_neg atEnd]
    cases category : token.category with
    | number => exact .inr (.inl ⟨rfl, by simp⟩)
    | identifier => exact .inr (.inl ⟨rfl, by simp⟩)
    | reserved =>
        by_cases outside : (!token.isOperator || token.text? = some ":=") = true
        · exact .inl (if_pos outside)
        · have isOperator : token.isOperator = true := by simp_all
          exact .inr (.inr ⟨rfl, isOperator, by simp [outside]⟩)

theorem category_of_role_eq_operand (operand : token.role = .operand) :
    token.category ≠ .reserved := by
  rcases role_cases_of_category token with outside | ⟨_, notReserved⟩ | ⟨_, _, role⟩
  · cases outside.symm.trans operand
  · exact notReserved
  · rw [role] at operand
    split_ifs at operand

theorem sign_of_role_eq_opening (opening : token.role = .opening) :
    token.category = .reserved ∧ token.isOperator = true ∧
      (token.text? = some "(" ∨ token.text? = some "not") := by
  rcases role_cases_of_category token with outside | ⟨operand, _⟩ | ⟨reserved, isOperator, role⟩
  · cases outside.symm.trans opening
  · cases operand.symm.trans opening
  · rw [role] at opening
    split_ifs at opening with signs
    exact ⟨reserved, isOperator, signs⟩

theorem sign_of_role_eq_binary (binary : token.role = .binary) :
    token.category = .reserved ∧ token.isOperator = true ∧
      token.text? ≠ some "(" ∧ token.text? ≠ some "not" ∧ token.text? ≠ some ")" := by
  rcases role_cases_of_category token with outside | ⟨operand, _⟩ | ⟨reserved, isOperator, role⟩
  · cases outside.symm.trans binary
  · cases operand.symm.trans binary
  · rw [role] at binary
    split_ifs at binary with signs isClosing
    exact ⟨reserved, isOperator, fun isOpen => signs (.inl isOpen),
      fun isNot => signs (.inr isNot), isClosing⟩

/-- An opening token that opens no group is a negation. -/
theorem isNot_of_role_eq_opening (opening : token.role = .opening)
    (noGroup : token.opensGroup = false) : token.text? = some "not" := by
  obtain ⟨_, isOperator, isOpen | isNot⟩ := sign_of_role_eq_opening opening
  · simp [opensGroup, isOperator, isOpen] at noGroup
  · exact isNot

theorem role_ne_binary_of_opensGroup (opens : token.opensGroup = true) :
    token.role ≠ .binary := by
  intro binary
  obtain ⟨_, _, notOpen, _⟩ := sign_of_role_eq_binary binary
  simp [opensGroup, notOpen] at opens

theorem arity?_of_role_eq_operand (operand : token.role = .operand) : token.arity? = some 0 := by
  have notReserved := category_of_role_eq_operand operand
  unfold arity?
  cases category : token.category with
  | number => rfl
  | identifier => rfl
  | reserved => exact absurd category notReserved

theorem arity?_of_role_eq_opening (opening : token.role = .opening)
    (noGroup : token.opensGroup = false) : token.arity? = some 1 := by
  obtain ⟨reserved, isOperator, _⟩ := sign_of_role_eq_opening opening
  simp [arity?, reserved, isOperator, isNot_of_role_eq_opening opening noGroup]

theorem arity?_of_role_eq_binary (binary : token.role = .binary) : token.arity? = some 2 := by
  obtain ⟨reserved, isOperator, _, notNegation, _⟩ := sign_of_role_eq_binary binary
  simp [arity?, reserved, isOperator, notNegation]

/-- A parenthesis is not sent out. -/
theorem GoesOut.not_parenthesis (goesOut : token.GoesOut) (reserved : token.category = .reserved) :
    token.text? ≠ some "(" ∧ token.text? ≠ some ")" := by
  rcases goesOut with operand | ⟨opening | binary, noGroup⟩
  · exact absurd reserved (category_of_role_eq_operand operand)
  · rw [isNot_of_role_eq_opening opening noGroup]
    decide
  · obtain ⟨_, _, notOpen, _, notClosing⟩ := sign_of_role_eq_binary binary
    exact ⟨notOpen, notClosing⟩

/-- The tree of a token of the language that a pass sends out can be made. -/
theorem GoesOut.not_hasNoNode {error : SyntaxError} (goesOut : token.GoesOut)
    (meaning : token.HasMeaning) : ¬token.HasNoNode error := by
  intro hasNoNode
  cases hasNoNode with
  | number isNumber isText =>
      rw [meaning.1 isNumber] at isText
      cases isText
  | operator reserved _ notNegation unknown =>
      rcases goesOut with operand | ⟨opening | binary, noGroup⟩
      · exact category_of_role_eq_operand operand reserved
      · exact notNegation (isNot_of_role_eq_opening opening noGroup)
      · obtain ⟨op, isSign⟩ := exists_isSign_of_role_eq_binary meaning binary
        exact unknown op (text?_of_isSign isSign)

end Token

/-! ## The height during a pass -/

/-- Operators that are sent out find their operands if there is a left operand for each
binary one and an operand behind them all. -/
theorem lifts_of_waits {operators : List Token}
    (wait : ∀ token ∈ operators, token.Waits ∧ token.opensGroup = false) (height : Nat) :
    Lifts operators (operators.countP (·.role = .binary) + (height + 1)) (height + 1) := by
  induction operators with
  | nil => simpa using Lifts.nil (height + 1)
  | cons token operators ih =>
      obtain ⟨⟨waits, noGroup⟩, rest⟩ := List.forall_mem_cons.mp wait
      have first : Lifts [token] ((token :: operators).countP (·.role = .binary) + (height + 1))
          (operators.countP (·.role = .binary) + height + 1) := by
        rcases waits with opening | binary
        · rw [List.countP_cons_of_neg (by simp [opening]), ← Nat.add_assoc]
          exact .singleton (Token.arity?_of_role_eq_opening opening noGroup) _
        · rw [List.countP_cons_of_pos (by simp [binary]), Nat.add_add_add_comm]
          exact .singleton (Token.arity?_of_role_eq_binary binary) _
      exact first.append (ih rest)

namespace OperatorScan

/-- The height to which the output of a pass has raised the stack: a left operand for each
binary operator that waits, and the operand that has just been read. -/
def height (scan : OperatorScan) : Nat :=
  scan.waiting.countP (·.role = .binary) + if scan.needsOperand then 0 else 1

/-- What holds of a pass over some tokens: it has sent out and keeps waiting tokens of the
right kinds, and its output finds its operands. -/
structure IsSound (tokens : List Token) (scan : OperatorScan) : Prop where
  output : ∀ token ∈ scan.output, token ∈ tokens ∧ token.GoesOut
  waiting : ∀ token ∈ scan.waiting, token ∈ tokens ∧ token.Waits
  lifts : Lifts scan.output.reverse 0 scan.height

theorem isSound_start (tokens : List Token) : start.IsSound tokens where
  output := by simp [start]
  waiting := by simp [start]
  lifts := Lifts.nil 0

/-- What waits can be sent out, all at once or the innermost part of it. -/
theorem IsSound.send {tokens output inner outer : List Token}
    (sound : IsSound tokens ⟨output, inner ++ outer, false⟩)
    (noGroup : ∀ operator ∈ inner, operator.opensGroup = false) :
    (∀ token ∈ inner.reverse ++ output, token ∈ tokens ∧ token.GoesOut) ∧
      Lifts (output.reverse ++ inner) 0 (outer.countP (·.role = .binary) + 1) := by
  obtain ⟨outputSound, waitingSound, lifts⟩ := sound
  have innerSound : ∀ operator ∈ inner, operator ∈ tokens ∧ operator.Waits :=
    (List.forall_mem_append.mp waitingSound).1
  constructor
  · intro token member
    rcases List.mem_append.mp member with sent | earlier
    · have isInner := List.mem_reverse.mp sent
      obtain ⟨taken, waits⟩ := innerSound token isInner
      exact ⟨taken, .inr ⟨waits, noGroup token isInner⟩⟩
    · exact outputSound token earlier
  · have drained := lifts_of_waits (fun operator member =>
      ⟨(innerSound operator member).2, noGroup operator member⟩) (outer.countP (·.role = .binary))
    apply lifts.append
    simpa [height, List.countP_append, Nat.add_assoc] using drained

/-- Every token keeps a pass sound. -/
theorem IsSound.of_proceeds {tokens : List Token} {token : Token} (member : token ∈ tokens)
    {scan after : OperatorScan} (proceeds : Proceeds token scan after)
    (sound : scan.IsSound tokens) : after.IsSound tokens := by
  cases proceeds with
  | @operand output waiting role =>
      constructor
      · exact List.forall_mem_cons.mpr ⟨⟨member, .inl role⟩, sound.output⟩
      · exact sound.waiting
      · rw [List.reverse_cons]
        exact sound.lifts.append (.singleton (Token.arity?_of_role_eq_operand role) _)
  | @opening output waiting role =>
      constructor
      · exact sound.output
      · exact List.forall_mem_cons.mpr ⟨⟨member, .inl role⟩, sound.waiting⟩
      · have sameHeight :
            height ⟨output, token :: waiting, true⟩ = height ⟨output, waiting, true⟩ := by
          simp [height, role]
        exact sameHeight ▸ sound.lifts
  | @closing output inner outer parenthesis opens within =>
      obtain ⟨outputSound, lifts⟩ := sound.send within
      -- The parenthesis is dropped, and it did not count while it waited.
      have notBinary := Token.role_ne_binary_of_opensGroup opens
      constructor
      · exact outputSound
      · intro other isOuter
        exact sound.waiting other (List.mem_append_right _ (List.mem_cons_of_mem _ isOuter))
      · simpa [height, List.countP_cons, notBinary] using lifts
  | @binary output sent kept role goBefore =>
      have noGroup : ∀ operator ∈ sent, operator.opensGroup = false := by
        intro operator isSent
        have before := goBefore operator isSent
        simp only [Token.goesBefore, Bool.and_eq_true, Bool.not_eq_true'] at before
        exact before.1
      obtain ⟨outputSound, lifts⟩ := sound.send noGroup
      constructor
      · exact outputSound
      · have keptSound := (List.forall_mem_append.mp sound.waiting).2
        exact List.forall_mem_cons.mpr ⟨⟨member, .inr role⟩, keptSound⟩
      · simpa [height, List.countP_cons, role] using lifts

/-- What a sound pass sends out in the end is a complete sequence of tokens that go out. -/
theorem IsSound.of_finish {tokens sequence : List Token} {scan : OperatorScan} {following : Token}
    (sound : scan.IsSound tokens) (finishes : scan.finish following = .ok sequence) :
    IsComplete sequence ∧ ∀ token ∈ sequence, token ∈ tokens ∧ token.GoesOut := by
  rcases scan with ⟨output, waiting, needsOperand⟩
  obtain ⟨rfl, noGroup, rfl⟩ := finish_eq_ok_iff.mp finishes
  rw [← List.append_nil waiting] at sound
  obtain ⟨goOut, lifts⟩ := sound.send noGroup
  constructor
  · simpa [IsComplete] using lifts
  · intro token member
    exact goOut token (by simpa [or_comm] using member)

end OperatorScan

/-! ## Expressions -/

namespace Parser

/-- Passes over an expression and yields its tokens in postorder. -/
def postorder : Parser (List Token) := do
  let scan ← scanOperators
  let following ← peek
  MonadExcept.ofExcept (scan.finish following)

/-- An expression is read by putting its tokens in postorder and building their tree. -/
theorem expression_eq_postorder :
    expression = postorder >>= fun sequence => peek >>= fun following =>
      MonadExcept.ofExcept (exprOfPostorder following sequence) := by
  funext cursor
  simp only [expression, postorder, bind_apply, peek_apply, ofExcept_apply]
  cases scanOperators cursor with
  | error error next => rfl
  | ok scan next =>
      dsimp only
      cases scan.finish next.current <;> rfl

theorem exists_scan_of_postorder {cursor next : Cursor} {sequence : List Token}
    (reaches : postorder cursor = .ok sequence next) :
    ∃ scan, OperatorScan.run cursor.endOffset cursor.rest cursor.position .start = .ok scan next ∧
      scan.finish next.current = .ok sequence := by
  obtain ⟨scan, middle, scans, finishes⟩ := bind_eq_ok_iff.mp reaches
  obtain ⟨_, _, peeks, finishes⟩ := bind_eq_ok_iff.mp finishes
  cases peeks
  rw [ofExcept_apply] at finishes
  cases outcome : scan.finish middle.current with
  | error error =>
      rw [outcome] at finishes
      cases finishes
  | ok others =>
      rw [outcome] at finishes
      cases finishes
      exact ⟨scan, scans, outcome⟩

theorem postorder_isSound {cursor next : Cursor} {sequence : List Token}
    (reaches : postorder cursor = .ok sequence next) :
    IsComplete sequence ∧ ∀ token ∈ sequence, token ∈ cursor.rest ∧ token.GoesOut := by
  obtain ⟨scan, runs, finishes⟩ := exists_scan_of_postorder reaches
  have sound : scan.IsSound cursor.rest :=
    OperatorScan.run_preserves
      (fun token member _ _ proceeds sound => sound.of_proceeds member proceeds)
      runs (OperatorScan.isSound_start cursor.rest)
  exact sound.of_finish finishes

end Parser

theorem Token.hasMeaning_of_tokenize {text : String} {tokens : List Token}
    (lexes : Grammar.standard.tokenize text = .ok tokens) :
    ∀ token ∈ tokens, token.HasMeaning := by
  obtain ⟨words, mark, rfl, standard⟩ := Token.isStandard_of_tokenize lexes
  intro token member
  rcases List.mem_append.mp member with isWord | isMark
  · exact (standard token isWord).isRegular.hasMeaning
  · rw [List.mem_singleton.mp isMark]
    exact Token.hasMeaning_endOfInput mark

/-- The postorder sequence of an expression is well formed, whatever tokens the pass was
given.  From it the tree is built.  Every operator finds its operands on the stack and one
tree is left, and no parenthesis stands in it: a name of that spelling is an operand.  So the
tree is built unless the tree of one of the tokens cannot be made, because its number cannot
be read or its sign means no operator.  Tokens of a text are never at fault in this way. -/
theorem Parser.postorder_isWellFormed {cursor next : Cursor} {sequence : List Token}
    (reaches : postorder cursor = .ok sequence next) :
    expression cursor =
        (MonadExcept.ofExcept (exprOfPostorder next.current sequence) : Parser Expr) next ∧
      IsComplete sequence ∧
      (∀ token ∈ sequence, token.category = .reserved →
        token.text? ≠ some "(" ∧ token.text? ≠ some ")") ∧
      ((∃ tree, exprOfPostorder next.current sequence = .ok tree) ∨
        ∃ token ∈ sequence, ∃ error, token.HasNoNode error ∧
          exprOfPostorder next.current sequence = .error error) ∧
      ∀ text tokens, Grammar.standard.tokenize text = .ok tokens →
        (∀ token ∈ cursor.rest, token ∈ tokens) →
          ∃ tree, exprOfPostorder next.current sequence = .ok tree := by
  obtain ⟨complete, goOut⟩ := postorder_isSound reaches
  have built := complete.exprOfPostorder next.current
  constructor
  · rw [expression_eq_postorder, bind_apply, reaches]
    rfl
  constructor
  · exact complete
  constructor
  · exact fun token member => (goOut token member).2.not_parenthesis
  constructor
  · exact built
  · intro text tokens lexes ofText
    rcases built with built | ⟨token, member, error, hasNoNode, _⟩
    · exact built
    · obtain ⟨taken, goesOut⟩ := goOut token member
      have meaning := Token.hasMeaning_of_tokenize lexes token (ofText token taken)
      exact absurd hasNoNode (goesOut.not_hasNoNode meaning)

/-- The tokens `7 ? 2` with a sign that means no operator. -/
def unknownComparison : List Token :=
  [operandToken 7 0, signToken "?" 3 2, operandToken 2 4]

/-- The unknown sign finds both operands, and only then it is rejected. -/
theorem postorder_unknownComparison :
    IsComplete [operandToken 7 0, operandToken 2 4, signToken "?" 3 2] ∧
      Parser.expression (Cursor.ofTokens unknownComparison 5) =
        .error (.invalidOperator (.text "?") ⟨2, 1⟩) ⟨[], 3, 5⟩ := by
  have reaches : Parser.postorder (Cursor.ofTokens unknownComparison 5) =
      .ok [operandToken 7 0, operandToken 2 4, signToken "?" 3 2] ⟨[], 3, 5⟩ := rfl
  obtain ⟨reads, complete, _⟩ := Parser.postorder_isWellFormed reaches
  exact ⟨complete, reads⟩

end WhileLang
