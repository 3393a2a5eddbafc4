import Mathlib
import WhileLang.Parsing.Cursor
import WhileLang.Proofs.Syntax.BinaryOperator

/-!
# Precedence climbing

Precedence climbing reads an expression by recursion.  It reads one operand and
then, while a binary operator follows whose precedence exceeds a floor, it climbs
above the precedence of that operator to read its right operand and combines to
the left.  The floor of a whole expression, and of a group in parentheses, lies
below every precedence.

The precedence of every operator is taken from its token, so nothing is assumed of
it here.  The three judgments below say how climbing ends on a cursor, by a tree or
by an error, and where it leaves the cursor.
-/

namespace WhileLang

namespace Token

/-- The token is the operator of a text. -/
def IsSign (token : Token) (symbol : String) : Prop :=
  token.category = .reserved ∧ token.subcategory = some .operator ∧ token.value = .text symbol

/-- The leaf that an operand token stands for: the number that it holds, or the
variable that it names. -/
def leaf? (token : Token) : Option Expr :=
  match token.category, token.value with
  | .number, .int number => some (.integer number)
  | .number, .float number => some (.float number)
  | .identifier, value => some (.var value.render)
  | _, _ => none

/-- The token can begin an operand. -/
def BeginsOperand (token : Token) : Prop :=
  token.leaf?.isSome ∨ token.IsSign "(" ∨ token.IsSign "not"

/-- The token is a binary operator whose precedence exceeds a floor. -/
def Exceeds (token : Token) (floor : WithBot Nat) : Prop :=
  (∃ op : BinaryOperator, token.IsSign op.symbol) ∧ floor < token.precedence

end Token

/-- How the reading of an expression ends. -/
abbrev ExprOutcome :=
  EStateM.Result SyntaxError Cursor Expr

mutual

/-- Reading one operand: a leaf, a group, or a negation with its operand. -/
inductive ClimbOperand : Cursor → ExprOutcome → Prop
  | leaf {cursor : Cursor} {tree : Expr} (isLeaf : cursor.current.leaf? = some tree) :
      ClimbOperand cursor (.ok tree cursor.advance)
  | group {cursor next : Cursor} {tree : Expr} (opens : cursor.current.IsSign "(")
      (body : Climb ⊥ cursor.advance (.ok tree next)) (closes : next.current.IsSign ")") :
      ClimbOperand cursor (.ok tree next.advance)
  | groupFails {cursor next : Cursor} {error : SyntaxError} (opens : cursor.current.IsSign "(")
      (body : Climb ⊥ cursor.advance (.error error next)) :
      ClimbOperand cursor (.error error next)
  | groupOpen {cursor next : Cursor} {tree : Expr} (opens : cursor.current.IsSign "(")
      (body : Climb ⊥ cursor.advance (.ok tree next)) (notClosed : ¬next.current.IsSign ")") :
      ClimbOperand cursor (.error (.unbalancedParenthesis cursor.current.span) next)
  | negation {cursor next : Cursor} {tree : Expr} (isNot : cursor.current.IsSign "not")
      (operand : Climb cursor.current.precedence cursor.advance (.ok tree next)) :
      ClimbOperand cursor (.ok (.not tree) next)
  | negationFails {cursor next : Cursor} {error : SyntaxError}
      (isNot : cursor.current.IsSign "not")
      (operand : Climb cursor.current.precedence cursor.advance (.error error next)) :
      ClimbOperand cursor (.error error next)
  | missing {cursor : Cursor} (noOperand : ¬cursor.current.BeginsOperand) :
      ClimbOperand cursor (.error (.atToken .expression cursor.current) cursor)

/-- Reading an expression whose operators outside groups exceed a floor. -/
inductive Climb : WithBot Nat → Cursor → ExprOutcome → Prop
  | operandFails {floor : WithBot Nat} {cursor next : Cursor} {error : SyntaxError}
      (operand : ClimbOperand cursor (.error error next)) :
      Climb floor cursor (.error error next)
  | climbs {floor : WithBot Nat} {cursor next : Cursor} {left : Expr} {outcome : ExprOutcome}
      (operand : ClimbOperand cursor (.ok left next))
      (operators : ClimbOn floor left next outcome) :
      Climb floor cursor outcome

/-- Going on behind a left operand. -/
inductive ClimbOn : WithBot Nat → Expr → Cursor → ExprOutcome → Prop
  | stop {floor : WithBot Nat} {left : Expr} {cursor : Cursor}
      (noOperator : ¬cursor.current.Exceeds floor) :
      ClimbOn floor left cursor (.ok left cursor)
  | combine {floor : WithBot Nat} {left right : Expr} {cursor next : Cursor}
      {outcome : ExprOutcome} {op : BinaryOperator}
      (isOperator : cursor.current.IsSign op.symbol)
      (exceeds : floor < cursor.current.precedence)
      (operand : Climb cursor.current.precedence cursor.advance (.ok right next))
      (operators : ClimbOn floor (op.node left right) next outcome) :
      ClimbOn floor left cursor outcome
  | operandFails {floor : WithBot Nat} {left : Expr} {cursor next : Cursor}
      {error : SyntaxError} {op : BinaryOperator}
      (isOperator : cursor.current.IsSign op.symbol)
      (exceeds : floor < cursor.current.precedence)
      (operand : Climb cursor.current.precedence cursor.advance (.error error next)) :
      ClimbOn floor left cursor (.error error next)

end

/-! ## Where a climb stops -/

/-- A tree leaves the cursor before a token that does not exceed the floor. -/
def ExprOutcome.StopsBelow (floor : WithBot Nat) : ExprOutcome → Prop
  | .ok _ next => ¬next.current.Exceeds floor
  | .error _ _ => True

theorem ClimbOn.stopsBelow {floor : WithBot Nat} {left : Expr} {cursor : Cursor}
    {outcome : ExprOutcome} : ClimbOn floor left cursor outcome → outcome.StopsBelow floor
  | .stop noOperator => noOperator
  | .combine _ _ _ operators => operators.stopsBelow
  | .operandFails _ _ _ => trivial

theorem Climb.not_exceeds {floor : WithBot Nat} {tree : Expr} {cursor next : Cursor}
    (climb : Climb floor cursor (.ok tree next)) : ¬next.current.Exceeds floor := by
  cases climb with
  | climbs _ operators => exact operators.stopsBelow

/-! ## Every climb ends -/

theorem Token.leaf?_endOfInput (offset : Nat) : (Token.endOfInput offset).leaf? = none :=
  rfl

theorem Token.not_isSign_endOfInput (offset : Nat) (symbol : String) :
    ¬(Token.endOfInput offset).IsSign symbol := by
  rintro ⟨_, operator, _⟩
  simp [Token.endOfInput] at operator

theorem Cursor.length_advance {cursor : Cursor} {token : Token} (head : cursor.rest.head? = token) :
    cursor.advance.rest.length + 1 = cursor.rest.length := by
  unfold Cursor.advance
  cases rest : cursor.rest with
  | nil => simp [rest] at head
  | cons token tokens => simp

/-- What is no mark of the end stands in the token list. -/
theorem Cursor.head?_eq_current {cursor : Cursor}
    (notEnd : cursor.current ≠ .endOfInput cursor.endOffset) :
    cursor.rest.head? = cursor.current := by
  unfold Cursor.current at *
  cases rest : cursor.rest with
  | nil => simp [rest] at notEnd
  | cons token tokens => rfl

theorem Cursor.length_advance_of_leaf? {cursor : Cursor} {tree : Expr}
    (isLeaf : cursor.current.leaf? = some tree) :
    cursor.advance.rest.length + 1 = cursor.rest.length := by
  refine length_advance (head?_eq_current ?_)
  intro atEnd
  simp [atEnd, Token.leaf?_endOfInput] at isLeaf

theorem Cursor.length_advance_of_isSign {cursor : Cursor} {symbol : String}
    (isSign : cursor.current.IsSign symbol) :
    cursor.advance.rest.length + 1 = cursor.rest.length := by
  refine length_advance (head?_eq_current ?_)
  intro atEnd
  exact Token.not_isSign_endOfInput _ symbol (atEnd ▸ isSign)

/-- A tree leaves fewer than `bound` tokens behind. -/
def ExprOutcome.LeavesFewer (bound : Nat) : ExprOutcome → Prop
  | .ok _ next => next.rest.length < bound
  | .error _ _ => True

mutual

/-- An operand takes at least one token. -/
theorem ClimbOperand.leavesFewer {cursor : Cursor} {outcome : ExprOutcome} :
    ClimbOperand cursor outcome → outcome.LeavesFewer cursor.rest.length
  | .leaf isLeaf => Nat.lt_of_succ_le (Cursor.length_advance_of_leaf? isLeaf).le
  | .group opens body closes => by
      have opening := Cursor.length_advance_of_isSign opens
      have closing := Cursor.length_advance_of_isSign closes
      have inner := body.leavesFewer
      simp only [ExprOutcome.LeavesFewer] at inner ⊢
      omega
  | .groupFails _ _ => trivial
  | .groupOpen _ _ _ => trivial
  | .negation isNot operand => by
      have sign := Cursor.length_advance_of_isSign isNot
      have inner := operand.leavesFewer
      simp only [ExprOutcome.LeavesFewer] at inner ⊢
      omega
  | .negationFails _ _ => trivial
  | .missing _ => trivial

theorem Climb.leavesFewer {floor : WithBot Nat} {cursor : Cursor} {outcome : ExprOutcome} :
    Climb floor cursor outcome → outcome.LeavesFewer cursor.rest.length
  | .operandFails _ => trivial
  | .climbs operand operators =>
      operators.leavesFewer _ operand.leavesFewer

theorem ClimbOn.leavesFewer {floor : WithBot Nat} {left : Expr} {cursor : Cursor}
    {outcome : ExprOutcome} :
    ClimbOn floor left cursor outcome →
      ∀ bound, cursor.rest.length < bound → outcome.LeavesFewer bound
  | .stop _ => fun _ below => below
  | .combine isOperator _ operand operators => by
      intro bound below
      have sign := Cursor.length_advance_of_isSign isOperator
      have right := operand.leavesFewer
      simp only [ExprOutcome.LeavesFewer] at right
      exact operators.leavesFewer bound (by omega)
  | .operandFails _ _ _ => fun _ _ => trivial

end

/-- Going on ends if all climbs on shorter lists do. -/
theorem exists_climbOn {bound : Nat}
    (shorter : ∀ floor (cursor : Cursor), cursor.rest.length < bound →
      ∃ outcome, Climb floor cursor outcome)
    (floor : WithBot Nat) (left : Expr) (cursor : Cursor) (small : cursor.rest.length < bound + 1) :
    ∃ outcome, ClimbOn floor left cursor outcome := by
  induction length : cursor.rest.length using Nat.strongRecOn generalizing left cursor with
  | ind n ih =>
      by_cases exceeds : cursor.current.Exceeds floor
      · rcases exceeds with ⟨⟨op, isOperator⟩, above⟩
        have taken := Cursor.length_advance_of_isSign isOperator
        obtain ⟨outcome, operand⟩ :=
          shorter cursor.current.precedence cursor.advance (by omega)
        cases outcome with
        | error error next => exact ⟨_, .operandFails isOperator above operand⟩
        | ok right next =>
            have fewer : next.rest.length < cursor.advance.rest.length := operand.leavesFewer
            obtain ⟨outcome, operators⟩ :=
              ih next.rest.length (by omega) (op.node left right) next (by omega) rfl
            exact ⟨outcome, .combine isOperator above operand operators⟩
      · exact ⟨_, .stop exceeds⟩

/-- Reading an operand ends if all climbs on shorter lists do. -/
theorem exists_climbOperand {cursor : Cursor}
    (shorter : ∀ floor (next : Cursor), next.rest.length < cursor.rest.length →
      ∃ outcome, Climb floor next outcome) :
    ∃ outcome, ClimbOperand cursor outcome := by
  by_cases begins : cursor.current.BeginsOperand
  · rcases begins with isLeaf | opens | isNot
    · rcases Option.isSome_iff_exists.mp isLeaf with ⟨tree, isLeaf⟩
      exact ⟨_, .leaf isLeaf⟩
    · have taken := Cursor.length_advance_of_isSign opens
      obtain ⟨outcome, body⟩ := shorter ⊥ cursor.advance (by omega)
      cases outcome with
      | error error next => exact ⟨_, .groupFails opens body⟩
      | ok tree next =>
          by_cases closes : next.current.IsSign ")"
          · exact ⟨_, .group opens body closes⟩
          · exact ⟨_, .groupOpen opens body closes⟩
    · have taken := Cursor.length_advance_of_isSign isNot
      obtain ⟨outcome, operand⟩ := shorter cursor.current.precedence cursor.advance (by omega)
      cases outcome with
      | error error next => exact ⟨_, .negationFails isNot operand⟩
      | ok tree next => exact ⟨_, .negation isNot operand⟩
  · exact ⟨_, .missing begins⟩

/-- Climbing ends on every cursor, above every floor. -/
theorem exists_climb (floor : WithBot Nat) (cursor : Cursor) :
    ∃ outcome, Climb floor cursor outcome := by
  induction length : cursor.rest.length using Nat.strongRecOn generalizing floor cursor with
  | ind n ih =>
      have shorter : ∀ floor (next : Cursor), next.rest.length < n →
          ∃ outcome, Climb floor next outcome :=
        fun floor next small => ih next.rest.length small floor next rfl
      obtain ⟨outcome, operand⟩ := exists_climbOperand (length ▸ shorter)
      cases outcome with
      | error error next => exact ⟨_, .operandFails operand⟩
      | ok left next =>
          have fewer : next.rest.length < cursor.rest.length := operand.leavesFewer
          obtain ⟨outcome, operators⟩ := exists_climbOn shorter floor left next (by omega)
          exact ⟨outcome, .climbs operand operators⟩

end WhileLang
