import Mathlib
import WhileLang.Proofs.Semantics.Confinement
import WhileLang.Proofs.Semantics.ExactArithmetic
import WhileLang.Proofs.Syntax.Writing

/-!
# Integer programs compute exactly

A second evaluator works on all integers and truth values, and knows of no floats.  In the
run of a program without floats, every expression has the value that this evaluator gives
it, or fails with the same error, and so neither the environment nor the output ever gets
to see a float.
-/

namespace WhileLang

/-! ## Exact values -/

/-- An integer of any size or a truth value. -/
inductive ExactValue where
  | int (number : Int)
  | bool (truth : Bool)
deriving DecidableEq

namespace ExactValue

/-- The value as a number: a truth value counts as one or zero. -/
def number : ExactValue → Int
  | .int number => number
  | .bool truth => if truth then 1 else 0

/-- Whether a value counts as true: every number but zero does. -/
def isTruthy : ExactValue → Bool
  | .int number => number != 0
  | .bool truth => truth

/-- The text of a value. -/
def render : ExactValue → String
  | .int number => toString number
  | .bool true => "true"
  | .bool false => "false"

end ExactValue

/-- The exact value of a value that is not a float. -/
def Value.exactValue? : Value → Option ExactValue
  | .int number => some (.int number.toInt)
  | .float _ => none
  | .bool truth => some (.bool truth)

namespace Value

variable {value left right : Value} {exact exactLeft exactRight : ExactValue}

theorem isTruthy_of_exactValue? (same : value.exactValue? = some exact) :
    value.isTruthy = exact.isTruthy := by
  cases value with
  | int number =>
      cases same
      simp [isTruthy, ExactValue.isTruthy, bne, beq_eq_decide, ← Int64.toInt_inj]
  | float number => cases same
  | bool truth =>
      cases same
      rfl

theorem render_of_exactValue? (same : value.exactValue? = some exact) :
    value.render = exact.render := by
  cases value with
  | int number =>
      cases same
      rfl
  | float number => cases same
  | bool truth =>
      cases same
      cases truth <;> rfl

/-- A truth value is the same number among the integers of 64 bits. -/
theorem toInt_truthNumber (truth : Bool) :
    (truthNumber truth).toInt = (ExactValue.bool truth).number := by
  cases truth <;> rfl

/-- Two exact values meet as integers. -/
theorem exists_ofValues_eq_ints (sameLeft : left.exactValue? = some exactLeft)
    (sameRight : right.exactValue? = some exactRight) :
    ∃ first second, Operands.ofValues left right = .ints first second ∧
      first.toInt = exactLeft.number ∧ second.toInt = exactRight.number := by
  cases left <;> cases right <;> cases sameLeft <;> cases sameRight <;>
    exact ⟨_, _, rfl, by first | rfl | exact toInt_truthNumber _,
      by first | rfl | exact toInt_truthNumber _⟩

end Value

/-! ## Exact evaluation -/

/-- The value of an expression without floats, computed with integers of any size. -/
def Expr.evaluateExactly (lookup : String → Option ExactValue) :
    (tree : Expr) → tree.IsFloatFree → Except RuntimeError ExactValue
  | .integer number, _ => .ok (.int number.toInt)
  | .float _, impossible => impossible.elim
  | .var name, _ =>
      match lookup name with
      | some value => .ok value
      | none => .error (.undefinedVariable name)
  | .arithmetic op left right, floatFree => do
      let leftValue ← left.evaluateExactly lookup floatFree.1
      let rightValue ← right.evaluateExactly lookup floatFree.2
      (op.onIntegers leftValue.number rightValue.number).map .int
  | .relational op left right, floatFree => do
      let leftValue ← left.evaluateExactly lookup floatFree.1
      let rightValue ← right.evaluateExactly lookup floatFree.2
      return .bool (op.onIntegers leftValue.number rightValue.number)
  | .and left right, floatFree => do
      let leftValue ← left.evaluateExactly lookup floatFree.1
      let rightValue ← right.evaluateExactly lookup floatFree.2
      return if leftValue.isTruthy then rightValue else leftValue
  | .or left right, floatFree => do
      let leftValue ← left.evaluateExactly lookup floatFree.1
      let rightValue ← right.evaluateExactly lookup floatFree.2
      return if leftValue.isTruthy then leftValue else rightValue
  | .not operand, floatFree => do
      let value ← operand.evaluateExactly lookup floatFree
      return .bool (!value.isTruthy)

namespace Environment

/-- No name is bound to a float. -/
def IsFloatFree (environment : Environment) : Prop :=
  ∀ name number, environment.get? name ≠ some (.float number)

/-- The exact value of a name. -/
def exactValue? (environment : Environment) (name : String) : Option ExactValue :=
  (environment.get? name).bind Value.exactValue?

theorem IsFloatFree.assign {environment : Environment} (floatFree : environment.IsFloatFree)
    (name : String) {value : Value} {exact : ExactValue} (same : value.exactValue? = some exact) :
    (environment.assign name value).IsFloatFree := by
  intro other number
  rw [get?_assign]
  split
  · rintro ⟨rfl⟩
    cases same
  · exact floatFree other number

end Environment

/-- A result is the exact one: a value that is not a float and has that exact value, or the
same error. -/
inductive IsExactly : Except RuntimeError Value → Except RuntimeError ExactValue → Prop
  | value {value : Value} {exact : ExactValue} (same : value.exactValue? = some exact) :
      IsExactly (.ok value) (.ok exact)
  | error (error : RuntimeError) : IsExactly (.error error) (.error error)

namespace IsExactly

theorem bind {result : Except RuntimeError Value} {exact : Except RuntimeError ExactValue}
    {next : Value → Except RuntimeError Value}
    {exactNext : ExactValue → Except RuntimeError ExactValue} (exactly : IsExactly result exact)
    (further : ∀ value exact, value.exactValue? = some exact →
      IsExactly (next value) (exactNext exact)) :
    IsExactly (result >>= next) (exact >>= exactNext) := by
  cases exactly with
  | value same => exact further _ _ same
  | error error => exact .error error

theorem exists_exact {value : Value} {result : Except RuntimeError ExactValue}
    (exactly : IsExactly (.ok value) result) : ∃ exact, value.exactValue? = some exact := by
  cases exactly with
  | value same => exact ⟨_, same⟩

theorem eq_ok {value : Value} {exact : ExactValue} {result : Except RuntimeError ExactValue}
    (exactly : IsExactly (.ok value) result) (same : value.exactValue? = some exact) :
    result = .ok exact := by
  cases exactly with
  | value same' => rw [Option.some.inj (same.symm.trans same')]

variable {left right : Value} {exactLeft exactRight : ExactValue}

theorem arithmetic (op : ArithmeticOp) (sameLeft : left.exactValue? = some exactLeft)
    (sameRight : right.exactValue? = some exactRight) :
    IsExactly (op.apply left right)
      ((op.onIntegers exactLeft.number exactRight.number).map .int) := by
  obtain ⟨first, second, operands, firstNumber, secondNumber⟩ :=
    Value.exists_ofValues_eq_ints sameLeft sameRight
  have result : op.apply left right = (op.onInts first second).map .int := by
    rw [ArithmeticOp.apply, operands]
  rw [result, ← firstNumber, ← secondNumber, ← ArithmeticOp.map_toInt_onInts]
  cases op.onInts first second with
  | ok number => exact .value rfl
  | error error => exact .error error

theorem relational (op : RelationalOp) (sameLeft : left.exactValue? = some exactLeft)
    (sameRight : right.exactValue? = some exactRight) :
    IsExactly (.ok (op.apply left right))
      (.ok (.bool (op.onIntegers exactLeft.number exactRight.number))) := by
  obtain ⟨first, second, operands, firstNumber, secondNumber⟩ :=
    Value.exists_ofValues_eq_ints sameLeft sameRight
  rw [RelationalOp.apply, operands, ← firstNumber, ← secondNumber,
    ← RelationalOp.onInts_eq_onIntegers]
  exact .value rfl

/-- One of two exact values is chosen. -/
theorem choice {condition condition' : Bool} (agree : condition = condition')
    (sameLeft : left.exactValue? = some exactLeft)
    (sameRight : right.exactValue? = some exactRight) :
    IsExactly (.ok (if condition then left else right))
      (.ok (if condition' then exactLeft else exactRight)) := by
  subst agree
  cases condition
  · exact .value sameRight
  · exact .value sameLeft

end IsExactly

/-- Expressions without floats are evaluated exactly. -/
theorem Expr.evaluate_isExactly {environment : Environment}
    (floatFreeEnvironment : environment.IsFloatFree) {tree : Expr}
    (floatFree : tree.IsFloatFree) :
    IsExactly (tree.evaluate environment)
      (tree.evaluateExactly environment.exactValue? floatFree) := by
  induction tree with
  | integer number => exact .value rfl
  | float number => exact floatFree.elim
  | var name =>
      simp only [evaluate, evaluateExactly, Environment.exactValue?]
      cases bound : environment.get? name with
      | none => exact .error _
      | some value =>
          cases value with
          | int number => exact .value rfl
          | float number => exact absurd bound (floatFreeEnvironment name number)
          | bool truth => exact .value rfl
  | arithmetic op left right leftIh rightIh =>
      exact (leftIh floatFree.1).bind fun _ _ sameLeft =>
        (rightIh floatFree.2).bind fun _ _ sameRight => .arithmetic op sameLeft sameRight
  | relational op left right leftIh rightIh =>
      exact (leftIh floatFree.1).bind fun _ _ sameLeft =>
        (rightIh floatFree.2).bind fun _ _ sameRight => .relational op sameLeft sameRight
  | and left right leftIh rightIh =>
      exact (leftIh floatFree.1).bind fun _ _ sameLeft =>
        (rightIh floatFree.2).bind fun _ _ sameRight =>
          .choice (Value.isTruthy_of_exactValue? sameLeft) sameRight sameLeft
  | or left right leftIh rightIh =>
      exact (leftIh floatFree.1).bind fun _ _ sameLeft =>
        (rightIh floatFree.2).bind fun _ _ sameRight =>
          .choice (Value.isTruthy_of_exactValue? sameLeft) sameLeft sameRight
  | not operand ih =>
      refine (ih floatFree).bind fun value exact same => ?_
      rw [Value.isTruthy_of_exactValue? same]
      exact .value rfl

/-! ## Whole runs -/

/-- Every part of an expression without floats is without floats. -/
theorem Expr.IsFloatFree.of_mem_parts {tree part : Expr} (floatFree : tree.IsFloatFree)
    (isPart : part ∈ tree.parts) : part.IsFloatFree := by
  induction tree with
  | integer number =>
      obtain rfl := List.mem_singleton.mp isPart
      exact floatFree
  | float number => exact floatFree.elim
  | var name =>
      obtain rfl := List.mem_singleton.mp isPart
      exact floatFree
  | not operand ih =>
      rcases List.mem_append.mp isPart with inside | itself
      · exact ih floatFree inside
      · obtain rfl := List.mem_singleton.mp itself
        exact floatFree
  | arithmetic _ _ _ leftIh rightIh | relational _ _ _ leftIh rightIh | and _ _ leftIh rightIh
    | or _ _ leftIh rightIh =>
      rcases List.mem_append.mp isPart with inside | itself
      · rcases List.mem_append.mp inside with inLeft | inRight
        · exact leftIh floatFree.1 inLeft
        · exact rightIh floatFree.2 inRight
      · obtain rfl := List.mem_singleton.mp itself
        exact floatFree

mutual

/-- A statement without floats evaluates none, and neither do those inside it. -/
theorem Stmt.IsFloatFree.subject_of_mem : {outer : Stmt} → outer.IsFloatFree →
    ∀ {statement : Stmt}, statement ∈ outer.statements → statement.subject.IsFloatFree
  | .assign _ _, floatFree, _, inside => by
      obtain rfl := List.mem_singleton.mp inside
      exact floatFree
  | .ifThen _ _, floatFree, _, inside => by
      rcases List.mem_cons.mp inside with rfl | inBranch
      · exact floatFree.1
      · exact isFloatFree_subject_of_mem floatFree.2 inBranch
  | .ifElse _ _ _, floatFree, _, inside => by
      rcases List.mem_cons.mp inside with rfl | inBranches
      · exact floatFree.1
      · rcases List.mem_append.mp inBranches with inThen | inElse
        · exact isFloatFree_subject_of_mem floatFree.2.1 inThen
        · exact isFloatFree_subject_of_mem floatFree.2.2 inElse
  | .whileDo _ _, floatFree, _, inside => by
      rcases List.mem_cons.mp inside with rfl | inBody
      · exact floatFree.1
      · exact isFloatFree_subject_of_mem floatFree.2 inBody
  | .print _, floatFree, _, inside => by
      obtain rfl := List.mem_singleton.mp inside
      exact floatFree
  | .expression _, floatFree, _, inside => by
      obtain rfl := List.mem_singleton.mp inside
      exact floatFree

/-- The statements in a block without floats evaluate none. -/
theorem isFloatFree_subject_of_mem : {block : List Stmt} → BlockIsFloatFree block →
    ∀ {statement : Stmt}, statement ∈ blockStatements block → statement.subject.IsFloatFree
  | [], _, _, inside => absurd inside List.not_mem_nil
  | _ :: _, floatFree, _, inside => by
      rcases List.mem_append.mp inside with inFirst | inRest
      · exact floatFree.1.subject_of_mem inFirst
      · exact isFloatFree_subject_of_mem floatFree.2 inRest

end

/-- Every line of the text is an exact value. -/
inductive IsExactPrintout : String → Prop
  | empty : IsExactPrintout ""
  | line {printed : String} (before : IsExactPrintout printed) (value : ExactValue) :
      IsExactPrintout (printed ++ (value.render ++ "\n"))

/-- There are no floats in the program to be executed, in the environment or in the text
that has been printed. -/
structure Progress.IsFloatFree (progress : Progress) : Prop where
  pending : ∀ statement ∈ blockStatements progress.pending, statement.subject.IsFloatFree
  environment : progress.environment.IsFloatFree
  output : IsExactPrintout progress.output

namespace Progress.IsFloatFree

variable {statement : Stmt} {rest : Block} {environment : Environment} {printed : String}

/-- Whatever the next statement has to evaluate is evaluated exactly. -/
theorem evaluate_part
    (floatFree : IsFloatFree (.running ⟨statement :: rest, environment, printed⟩)) {part : Expr}
    (isPart : part ∈ statement.subject.parts) :
    ∃ partIsFloatFree : part.IsFloatFree, IsExactly (part.evaluate environment)
      (part.evaluateExactly environment.exactValue? partIsFloatFree) := by
  have subject := floatFree.pending statement (mem_blockStatements_cons statement rest)
  have partIsFloatFree := subject.of_mem_parts isPart
  exact ⟨partIsFloatFree, Expr.evaluate_isExactly floatFree.environment partIsFloatFree⟩

/-- If the next statement has a value, it is an exact one. -/
theorem exists_exact (floatFree : IsFloatFree (.running ⟨statement :: rest, environment, printed⟩))
    {value : Value} (evaluated : statement.subject.evaluate environment = .ok value) :
    ∃ exact, value.exactValue? = some exact := by
  obtain ⟨_, exactly⟩ := floatFree.evaluate_part statement.subject.mem_parts
  rw [evaluated] at exactly
  exact exactly.exists_exact

end Progress.IsFloatFree

/-- A step brings in no float. -/
theorem Step.isFloatFree {first next : Progress} (step : Step first next)
    (floatFree : first.IsFloatFree) : next.IsFloatFree := by
  have pending : ∀ statement ∈ blockStatements next.pending, statement.subject.IsFloatFree :=
    fun statement inside => floatFree.pending statement (step.blockStatements_subset inside)
  cases step with
  | @assign name subject rest environment printed value evaluated =>
      obtain ⟨exact, same⟩ := floatFree.exists_exact evaluated
      exact ⟨pending, floatFree.environment.assign name same, floatFree.output⟩
  | @print subject rest environment printed value evaluated =>
      obtain ⟨exact, same⟩ := floatFree.exists_exact evaluated
      rw [Value.render_of_exactValue? same]
      exact ⟨pending, floatFree.environment, floatFree.output.line exact⟩
  | _ => exact ⟨pending, floatFree.environment, floatFree.output⟩

theorem Reaches.isFloatFree {first last : Progress} (reaches : Reaches first last)
    (floatFree : first.IsFloatFree) : last.IsFloatFree := by
  induction reaches with
  | refl => exact floatFree
  | tail _ step ih => exact step.isFloatFree ih

/-- A program without floats, started in an environment without floats, computes exactly.
At no point of the run there is a float in the environment or in what has been printed.  On
whatever output the program is executed, and however long, it leaves an environment without
floats, and what the output has taken are exact values line by line, of which only the last
may be cut off, where there was no room for more.  Every expression that the run comes to, with all its
parts, is evaluated to what integers of any size and truth values give, and fails exactly
where they do: at a name without a value, at a divisor that is zero, or at a result of more
than 64 bits, which no remainder has, and of all quotients only that of the least integer
by `-1`. -/
theorem runs_exactly {program : Block} {environment : Environment}
    (floatFree : BlockIsFloatFree program) (floatFreeEnvironment : environment.IsFloatFree) :
    (∀ progress, Reaches (.running ⟨program, environment, ""⟩) progress →
      progress.environment.IsFloatFree ∧ IsExactPrintout progress.output) ∧
    (∀ steps output,
      (execute steps program ⟨environment, output⟩).machine.environment.IsFloatFree ∧
        ∃ taken missing,
          (execute steps program ⟨environment, output⟩).machine.output = output.append taken ∧
            IsExactPrintout (taken ++ missing) ∧
              (output.Takes (taken ++ missing) → missing = "")) ∧
    (∀ statement rest current printed,
      Reaches (.running ⟨program, environment, ""⟩)
        (.running ⟨statement :: rest, current, printed⟩) →
      ∀ part ∈ statement.subject.parts, ∃ partIsFloatFree : part.IsFloatFree,
        IsExactly (part.evaluate current)
          (part.evaluateExactly current.exactValue? partIsFloatFree)) ∧
    (∀ left right named,
      ArithmeticOp.rem.apply left right ≠ .error (.integerOverflow named)) ∧
    ∀ left right named,
      ArithmeticOp.div.apply left right = .error (.integerOverflow named) ↔
        named = .div ∧ Operands.ofValues left right = .ints Int64.minValue (-1) := by
  have start : Progress.IsFloatFree (.running ⟨program, environment, ""⟩) :=
    ⟨fun _ inside => isFloatFree_subject_of_mem floatFree inside, floatFreeEnvironment, .empty⟩
  refine ⟨fun progress reaches => ?_, fun steps output => ?_,
    fun statement rest current printed reaches part isPart => ?_,
    ArithmeticOp.apply_rem_ne_integerOverflow, ArithmeticOp.apply_div_eq_integerOverflow_iff⟩
  · have here := reaches.isFloatFree start
    exact ⟨here.environment, here.output⟩
  · obtain ⟨progress, taken, missing, reaches, left, printed, roomy⟩ :=
      exists_reaches_machine steps program environment output
    have here := reaches.isFloatFree start
    rw [left]
    exact ⟨here.environment, taken, missing, rfl, printed ▸ here.output, printed ▸ roomy⟩
  · exact (reaches.isFloatFree start).evaluate_part isPart

/-- A loop that prints remainders and halves a number until it is zero. -/
def halving : Block :=
  [.whileDo (.var "n")
    [.print (.arithmetic .rem (.var "n") (.integer (-1))),
      .assign "n" (.arithmetic .div (.var "n") (.integer (-2)))]]

/-- The loop begins with the least integer. -/
def fromLeast : Environment :=
  Environment.empty.assign "n" (.int Int64.minValue)

/-- An output with room for the first line and half of the second. -/
def threeBytes : Output :=
  { Output.unlimited with limit? := some 3 }

theorem threeBytes_cutOff :
    execute 9 halving ⟨fromLeast, threeBytes⟩ =
      .failed (.output .limitReached)
        ⟨fromLeast.assign "n" (.int 4611686018427387904), threeBytes.append "0\n0"⟩ :=
  rfl

/-- From the least integer on, all that the loop prints is exact, also where its second line is
cut off.  The remainder by `-1` is zero, although the quotient would not fit. -/
theorem halving_runs_exactly :
    BlockIsFloatFree halving ∧ fromLeast.IsFloatFree ∧
      (∀ progress, Reaches (.running ⟨halving, fromLeast, ""⟩) progress →
        progress.environment.IsFloatFree ∧ IsExactPrintout progress.output) ∧
      (execute 9 halving ⟨fromLeast, threeBytes⟩).machine.environment.IsFloatFree ∧
      (∃ missing, (execute 9 halving ⟨fromLeast, threeBytes⟩).machine.output =
        threeBytes.append "0\n0" ∧ IsExactPrintout ("0\n0" ++ missing)) ∧
      ∃ floatFree,
        (Expr.arithmetic .rem (.var "n") (.integer (-1))).evaluate fromLeast = .ok (.int 0) ∧
          (Expr.arithmetic .rem (.var "n") (.integer (-1))).evaluateExactly
            fromLeast.exactValue? floatFree = .ok (.int 0) := by
  have floatFree : BlockIsFloatFree halving := by
    simp [halving, BlockIsFloatFree, Stmt.IsFloatFree, Expr.IsFloatFree]
  have floatFreeEnvironment : fromLeast.IsFloatFree :=
    Environment.IsFloatFree.assign (by simp [Environment.IsFloatFree]) "n" rfl
  obtain ⟨throughout, left, evaluates, _⟩ := runs_exactly floatFree floatFreeEnvironment
  obtain ⟨leftFloatFree, taken, missing, output, printout, _⟩ := left 9 threeBytes
  have atRemainder : Reaches (.running ⟨halving, fromLeast, ""⟩) (.running _) :=
    .single (.enterLoop rfl rfl)
  obtain ⟨partFloatFree, exactly⟩ := evaluates _ _ _ _ atRemainder _ (Expr.mem_parts _)
  refine ⟨floatFree, floatFreeEnvironment, throughout, leftFloatFree, ?_, partFloatFree, rfl, ?_⟩
  · rw [threeBytes_cutOff] at output ⊢
    obtain rfl := Output.append_inj output
    exact ⟨missing, rfl, printout⟩
  · have zero : IsExactly (.ok (.int 0)) _ := exactly
    exact zero.eq_ok rfl

end WhileLang
