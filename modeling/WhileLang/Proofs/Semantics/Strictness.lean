import Mathlib
import WhileLang.Proofs.Semantics.ExactArithmetic
import WhileLang.Proofs.Syntax.Occurrence
import WhileLang.Semantics.Evaluation

/-!
# Evaluation is strict and goes from left to right

The parts of an expression are listed with those of the operands before the expression
itself.  An evaluation goes through this list: it has a value if every part has one, and
otherwise it fails with the error of the first part whose own operation fails on the values
of its operands.

The invariant is one on lists of expressions that are evaluated one after the other, so the
operands of an operator and the operator itself are put together like the parts of a list.
-/

namespace WhileLang

/-! ## Operations that fail -/

/-- An arithmetic operator fails on two operands: its divisor is zero, or the exact result is
an integer of more than 64 bits. -/
inductive ArithmeticOp.Fails (op : ArithmeticOp) : Operands → RuntimeError → Prop
  | zeroInteger {left right : Int64} (divides : op.divides) (zero : right = 0) :
      Fails op (.ints left right) .divisionByZero
  | zeroFloat {left right : Float} (divides : op.divides) (zero : right == 0) :
      Fails op (.floats left right) .divisionByZero
  | overflow {left right : Int64} (defined : op.divides → right ≠ 0)
      (outOfRange : ¬Is64Bit (op.exactResult left.toInt right.toInt)) :
      Fails op (.ints left right) (.integerOverflow op)

namespace ArithmeticOp

variable {op : ArithmeticOp} {error : RuntimeError}

theorem onInts_eq_error_iff {left right : Int64} :
    op.onInts left right = .error error ↔ op.Fails (.ints left right) error := by
  have exact : op.onInts left right = .error error ↔
      op.onIntegers left.toInt right.toInt = .error error := by
    rw [← map_toInt_onInts]
    cases op.onInts left right <;> simp [Except.map]
  have zero_iff : right.toInt = 0 ↔ right = 0 := by
    rw [← Int64.toInt_zero, Int64.toInt_inj]
  rw [exact, onIntegers]
  constructor
  · intro fails
    split_ifs at fails with byZero
    · cases fails
      exact .zeroInteger byZero.1 (zero_iff.mp byZero.2)
    · unfold inRange at fails
      split_ifs at fails with fits
      cases fails
      exact .overflow (fun divides zero => byZero ⟨divides, zero_iff.mpr zero⟩) fits
  · rintro (⟨divides, zero⟩ | _ | ⟨defined, outOfRange⟩)
    · rw [if_pos ⟨divides, zero_iff.mpr zero⟩]
    · rw [if_neg fun byZero => defined byZero.1 (zero_iff.mp byZero.2), inRange,
        if_neg outOfRange]

theorem onFloats_eq_error_iff {left right : Float} :
    op.onFloats left right = .error error ↔ op.Fails (.floats left right) error := by
  constructor
  · intro fails
    cases op with
    | add | sub | mul => cases fails
    | div | rem =>
        simp only [onFloats] at fails
        split_ifs at fails with zero
        cases fails
        exact .zeroFloat rfl zero
  · rintro (_ | ⟨divides, zero⟩ | _)
    cases op with
    | add | sub | mul => cases divides
    | div | rem => simp only [onFloats, if_pos zero]

/-- The operators fail at zero divisors and at results out of range only. -/
theorem apply_eq_error_iff {left right : Value} :
    op.apply left right = .error error ↔ op.Fails (Operands.ofValues left right) error := by
  unfold apply
  cases Operands.ofValues left right with
  | ints first second =>
      rw [← onInts_eq_error_iff]
      dsimp only
      cases op.onInts first second <;> simp [Except.map]
  | floats first second =>
      rw [← onFloats_eq_error_iff]
      dsimp only
      cases op.onFloats first second <;> simp [Except.map]

end ArithmeticOp

namespace Expr

variable {environment : Environment} {error : RuntimeError}

/-- The expression has a value. -/
def HasValue (environment : Environment) (tree : Expr) : Prop :=
  ∃ value, tree.evaluate environment = .ok value

/-- The operation at the root of an expression fails, although its operands have values: a
variable is unbound, or an arithmetic operator fails on the values of its operands. -/
inductive Raises (environment : Environment) : Expr → RuntimeError → Prop
  | unbound {name : String} (missing : environment.get? name = none) :
      Raises environment (.var name) (.undefinedVariable name)
  | arithmetic {op : ArithmeticOp} {left right : Expr} {leftValue rightValue : Value}
      {error : RuntimeError} (evaluatedLeft : left.evaluate environment = .ok leftValue)
      (evaluatedRight : right.evaluate environment = .ok rightValue)
      (fails : op.Fails (Operands.ofValues leftValue rightValue) error) :
      Raises environment (.arithmetic op left right) error

theorem Raises.evaluate_eq {node : Expr} (raises : node.Raises environment error) :
    node.evaluate environment = .error error := by
  cases raises with
  | unbound missing => simp only [evaluate, missing]
  | arithmetic evaluatedLeft evaluatedRight fails =>
      simp only [evaluate, evaluatedLeft, evaluatedRight]
      exact ArithmeticOp.apply_eq_error_iff.mpr fails

theorem Raises.not_hasValue {node : Expr} (raises : node.Raises environment error) :
    ¬node.HasValue environment := by
  rintro ⟨value, evaluated⟩
  rw [raises.evaluate_eq] at evaluated
  cases evaluated

/-! ## The first failure in a list -/

/-- One expression of a list fails by itself with an error, and all before it have values. -/
inductive FirstRaises (environment : Environment) (error : RuntimeError) : List Expr → Prop
  | here {node : Expr} {rest : List Expr} (raises : node.Raises environment error) :
      FirstRaises environment error (node :: rest)
  | later {part : Expr} {rest : List Expr} (hasValue : part.HasValue environment)
      (first : FirstRaises environment error rest) :
      FirstRaises environment error (part :: rest)

namespace FirstRaises

variable {parts others : List Expr}

theorem append_right (first : FirstRaises environment error parts) (others : List Expr) :
    FirstRaises environment error (parts ++ others) := by
  induction first with
  | here raises => exact .here raises
  | later hasValue _ ih => exact .later hasValue ih

theorem behind (first : FirstRaises environment error others)
    (haveValues : ∀ part ∈ parts, part.HasValue environment) :
    FirstRaises environment error (parts ++ others) := by
  induction parts with
  | nil => exact first
  | cons part parts ih =>
      rw [List.forall_mem_cons] at haveValues
      exact .later haveValues.1 (ih haveValues.2)

theorem iff_exists_append :
    FirstRaises environment error parts ↔
      ∃ before node after, parts = before ++ node :: after ∧
        (∀ part ∈ before, part.HasValue environment) ∧ node.Raises environment error := by
  constructor
  · intro first
    induction first with
    | here raises => exact ⟨[], _, _, rfl, by simp, raises⟩
    | later hasValue _ ih =>
        rcases ih with ⟨before, node, after, rfl, haveValues, raises⟩
        exact ⟨_ :: before, node, after, rfl,
          List.forall_mem_cons.mpr ⟨hasValue, haveValues⟩, raises⟩
  · rintro ⟨before, node, after, rfl, haveValues, raises⟩
    exact behind (.here raises) haveValues

theorem unique {other : RuntimeError} (first : FirstRaises environment error parts)
    (second : FirstRaises environment other parts) : error = other := by
  induction first with
  | here raises =>
      cases second with
      | here raises' => exact Except.error.inj (raises.evaluate_eq.symm.trans raises'.evaluate_eq)
      | later hasValue _ => exact absurd hasValue raises.not_hasValue
  | later hasValue _ ih =>
      cases second with
      | here raises => exact absurd hasValue raises.not_hasValue
      | later _ rest => exact ih rest

theorem exists_not_hasValue (first : FirstRaises environment error parts) :
    ∃ part ∈ parts, ¬part.HasValue environment := by
  rcases iff_exists_append.mp first with ⟨before, node, after, rfl, _, raises⟩
  exact ⟨node, by simp, raises.not_hasValue⟩

end FirstRaises

/-! ## Going through the parts -/

/-- The outcome of evaluating a list of expressions one after the other: all have values, or
the error is that of the first one that fails. -/
inductive Follows {α : Type} (environment : Environment) (parts : List Expr) :
    Except RuntimeError α → Prop
  | value (result : α) (haveValues : ∀ part ∈ parts, part.HasValue environment) :
      Follows environment parts (.ok result)
  | error {error : RuntimeError} (first : FirstRaises environment error parts) :
      Follows environment parts (.error error)

theorem Follows.bind {α β : Type} {parts others : List Expr} {outcome : Except RuntimeError α}
    {next : α → Except RuntimeError β} (follows : Follows environment parts outcome)
    (further : ∀ result, outcome = .ok result → Follows environment others (next result)) :
    Follows environment (parts ++ others) (outcome >>= next) := by
  cases follows with
  | error first => exact .error (first.append_right others)
  | value result haveValues =>
      have follows := further result rfl
      change Follows environment (parts ++ others) (next result)
      generalize next result = outcome at follows ⊢
      cases follows with
      | error first => exact .error (first.behind haveValues)
      | value result haveOthers =>
          exact .value result (List.forall_mem_append.mpr ⟨haveValues, haveOthers⟩)

/-- If the operands have values, then it is the operation at the root that decides. -/
theorem follows_root {tree : Expr} {outcome : Except RuntimeError Value}
    (evaluated : tree.evaluate environment = outcome)
    (raises : ∀ error, outcome = .error error → tree.Raises environment error) :
    Follows environment [tree] outcome := by
  cases outcome with
  | ok value =>
      refine .value value fun part isPart => ?_
      rw [List.mem_singleton.mp isPart]
      exact ⟨value, evaluated⟩
  | error error => exact .error (.here (raises error rfl))

/-- An operator that is applied to two operands follows their parts and itself. -/
theorem follows_binary {tree left right : Expr}
    {apply : Value → Value → Except RuntimeError Value}
    (evaluate_eq : tree.evaluate environment = (do
      let leftValue ← left.evaluate environment
      let rightValue ← right.evaluate environment
      apply leftValue rightValue))
    (followsLeft : Follows environment left.parts (left.evaluate environment))
    (followsRight : Follows environment right.parts (right.evaluate environment))
    (raises : ∀ leftValue rightValue error, left.evaluate environment = .ok leftValue →
      right.evaluate environment = .ok rightValue → apply leftValue rightValue = .error error →
        tree.Raises environment error) :
    Follows environment (left.parts ++ right.parts ++ [tree]) (tree.evaluate environment) := by
  rw [List.append_assoc, evaluate_eq]
  apply followsLeft.bind
  intro leftValue evaluatedLeft
  apply followsRight.bind
  intro rightValue evaluatedRight
  apply follows_root
  · rw [evaluate_eq, evaluatedLeft, evaluatedRight]
    rfl
  · intro error
    exact raises leftValue rightValue error evaluatedLeft evaluatedRight

/-- The evaluation of an expression goes through its parts. -/
theorem follows_parts (environment : Environment) (tree : Expr) :
    Follows environment tree.parts (tree.evaluate environment) := by
  induction tree with
  | integer number => exact follows_root rfl (by simp [evaluate])
  | float number => exact follows_root rfl (by simp [evaluate])
  | var name =>
      apply follows_root rfl
      intro error fails
      cases bound : environment.get? name with
      | some value => simp [evaluate, bound] at fails
      | none =>
          obtain rfl : RuntimeError.undefinedVariable name = error := by
            simpa [evaluate, bound] using fails
          exact .unbound bound
  | not operand ih =>
      apply ih.bind
      intro value evaluated
      apply follows_root
      · rw [evaluate, evaluated]
        rfl
      · intro error fails
        cases fails
  | arithmetic op left right leftIh rightIh =>
      apply follows_binary rfl leftIh rightIh
      intro leftValue rightValue error evaluatedLeft evaluatedRight fails
      exact .arithmetic evaluatedLeft evaluatedRight (ArithmeticOp.apply_eq_error_iff.mp fails)
  | relational _ _ _ leftIh rightIh | and _ _ leftIh rightIh | or _ _ leftIh rightIh =>
      apply follows_binary rfl leftIh rightIh
      intro leftValue rightValue error _ _ fails
      cases fails

theorem evaluate_eq_error_iff_firstRaises {tree : Expr} :
    tree.evaluate environment = .error error ↔ FirstRaises environment error tree.parts := by
  have follows := follows_parts environment tree
  constructor
  · intro fails
    rw [fails] at follows
    cases follows with
    | error first => exact first
  · intro first
    cases outcome : tree.evaluate environment with
    | error other =>
        rw [outcome] at follows
        cases follows with
        | error second => rw [second.unique first]
    | ok value =>
        rw [outcome] at follows
        cases follows with
        | value _ haveValues =>
            obtain ⟨part, isPart, noValue⟩ := first.exists_not_hasValue
            exact absurd (haveValues part isPart) noValue

theorem hasValue_iff_forall_parts {tree : Expr} :
    tree.HasValue environment ↔ ∀ part ∈ tree.parts, part.HasValue environment := by
  constructor
  · rintro ⟨value, evaluated⟩
    have follows := follows_parts environment tree
    rw [evaluated] at follows
    cases follows with
    | value _ haveValues => exact haveValues
  · intro haveValues
    exact haveValues tree tree.mem_parts

/-! ## Variables -/

/-- The names of the variables in an expression, from left to right. -/
def names : Expr → List String
  | .integer _ => []
  | .float _ => []
  | .var name => [name]
  | .arithmetic _ left right => left.names ++ right.names
  | .relational _ left right => left.names ++ right.names
  | .and left right => left.names ++ right.names
  | .or left right => left.names ++ right.names
  | .not operand => operand.names

/-- The name of an expression that is a variable. -/
def name? : Expr → Option String
  | .var name => some name
  | .integer _ | .float _ | .arithmetic _ _ _ | .relational _ _ _ | .and _ _ | .or _ _ | .not _ =>
      none

/-- The variables stand among the parts in the same order. -/
theorem filterMap_name?_parts (tree : Expr) : tree.parts.filterMap name? = tree.names := by
  induction tree with
  | integer number => rfl
  | float number => rfl
  | var name => rfl
  | not operand ih => simp [parts, names, name?, ih]
  | arithmetic _ _ _ leftIh rightIh | relational _ _ _ leftIh rightIh | and _ _ leftIh rightIh
    | or _ _ leftIh rightIh => simp [parts, names, name?, leftIh, rightIh]

theorem var_mem_parts_iff {tree : Expr} {name : String} :
    .var name ∈ tree.parts ↔ name ∈ tree.names := by
  rw [← filterMap_name?_parts, List.mem_filterMap]
  constructor
  · intro isPart
    exact ⟨_, isPart, rfl⟩
  · rintro ⟨part, isPart, named⟩
    cases part <;> cases named
    exact isPart

/-- A variable has a value exactly if it is bound. -/
theorem hasValue_var_iff {name : String} :
    (var name).HasValue environment ↔ environment.contains name := by
  unfold HasValue Environment.contains
  cases bound : environment.get? name <;> simp [evaluate, bound]

/-- The variable at which an evaluation fails is the first one that is unbound. -/
theorem FirstRaises.exists_names {tree : Expr} {name : String}
    (first : FirstRaises environment (.undefinedVariable name) tree.parts) :
    ∃ before after, tree.names = before ++ name :: after ∧
      (∀ other ∈ before, environment.contains other) ∧ environment.get? name = none := by
  rcases iff_exists_append.mp first with ⟨before, node, after, parts, haveValues, raises⟩
  cases raises with
  | @arithmetic op _ _ leftValue rightValue _ _ _ fails =>
      generalize Operands.ofValues leftValue rightValue = operands at fails
      cases fails
  | unbound missing =>
      refine ⟨before.filterMap name?, after.filterMap name?, ?_, ?_, missing⟩
      · rw [← filterMap_name?_parts, parts, List.filterMap_append]
        rfl
      · intro other isBefore
        rcases List.mem_filterMap.mp isBefore with ⟨part, inBefore, named⟩
        cases part <;> cases named
        exact hasValue_var_iff.mp (haveValues _ inBefore)

/-- Evaluation is strict, goes from left to right and reports the first failure.  An
expression has a value exactly if all its parts have one, those on both sides of `and` and
`or` included.  It fails with an error exactly if, of the parts in the order in which they are
listed, the first one without a value is one whose own operation fails with this error: an
unbound variable, a zero divisor, or a result of more than 64 bits.  So an unbound name that
is reported is the leftmost one, and in an expression that has a value all names are bound. -/
theorem evaluates_strictly (environment : Environment) (tree : Expr) :
    (tree.HasValue environment ↔ ∀ part ∈ tree.parts, part.HasValue environment) ∧
    (∀ error, tree.evaluate environment = .error error ↔
      ∃ before node after, tree.parts = before ++ node :: after ∧
        (∀ part ∈ before, part.HasValue environment) ∧ node.Raises environment error) ∧
    (∀ name, tree.evaluate environment = .error (.undefinedVariable name) →
      ∃ before after, tree.names = before ++ name :: after ∧
        (∀ other ∈ before, environment.contains other) ∧ environment.get? name = none) ∧
    (tree.HasValue environment → ∀ name ∈ tree.names, environment.contains name) := by
  refine ⟨hasValue_iff_forall_parts, ?_, ?_, ?_⟩
  · intro error
    rw [evaluate_eq_error_iff_firstRaises, FirstRaises.iff_exists_append]
  · intro name fails
    exact (evaluate_eq_error_iff_firstRaises.mp fails).exists_names
  · intro hasValue name isName
    exact hasValue_var_iff.mp
      (hasValue_iff_forall_parts.mp hasValue _ (var_mem_parts_iff.mpr isName))

/-- A conjunction whose left side is false and whose right side fails in three places. -/
def falseAnd : Expr :=
  .and (.integer 0)
    (.arithmetic .add (.var "first") (.arithmetic .div (.var "second") (.integer 0)))

/-- The right side is evaluated all the same, and the leftmost unbound name is reported. -/
theorem falseAnd_evaluates_strictly :
    falseAnd.evaluate .empty = .error (.undefinedVariable "first") ∧
      ¬falseAnd.HasValue .empty ∧
      ∃ before after, falseAnd.names = before ++ "first" :: after ∧
        ∀ other ∈ before, Environment.empty.contains other := by
  obtain ⟨hasValue_iff, fails_iff, names, _⟩ := evaluates_strictly .empty falseAnd
  have unbound : Raises .empty (.var "first") (.undefinedVariable "first") :=
    .unbound (Environment.get?_empty _)
  have fails : falseAnd.evaluate .empty = .error (.undefinedVariable "first") := by
    apply (fails_iff _).mpr
    refine ⟨[.integer 0], .var "first", _, rfl, ?_, unbound⟩
    intro part isPart
    rw [List.mem_singleton.mp isPart]
    exact ⟨_, rfl⟩
  obtain ⟨before, after, names, bound, _⟩ := names _ fails
  refine ⟨fails, ?_, before, after, names, bound⟩
  rw [hasValue_iff]
  intro haveValues
  exact unbound.not_hasValue (haveValues (.var "first") (by simp [falseAnd, parts]))

end Expr

end WhileLang
