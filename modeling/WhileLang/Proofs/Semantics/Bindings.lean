import Mathlib
import WhileLang.Proofs.Semantics.Confinement

/-!
# Bindings only grow

A run binds names and never unbinds them, and the only names that it binds or changes are
those to which its program assigns.  Since what is bound stays bound, a name that is found
unbound has never had a value in the run: such an error cannot be caused by anything that
the run has done before.

The frame of an environment is followed through the stepping machine, which gets to the
place where a run ends on every output, also on one that cuts the run off.
-/

namespace WhileLang

/-! ## The frame of a program -/

/-- What a program may do to an environment: it keeps what is bound, and it touches only the
names to which it assigns. -/
structure Block.Frames (program : Block) (before after : Environment) : Prop where
  /-- What is bound stays bound. -/
  keeps : ∀ name, before.contains name → after.contains name
  /-- What is bound only afterwards has been assigned. -/
  adds : ∀ name, ¬before.contains name → after.contains name → program.Assigns name
  /-- All other names have the value that they had, or none as before. -/
  leaves : ∀ name, ¬program.Assigns name → after.get? name = before.get? name

/-- An assignment unbinds no name. -/
theorem Environment.contains_assign {environment : Environment} {name : String}
    (bound : environment.contains name) (other : String) (value : Value) :
    (environment.assign other value).contains name := by
  unfold contains at bound ⊢
  rw [get?_assign]
  split
  · rfl
  · exact bound

/-- No step unbinds a name. -/
theorem Step.contains_environment {first next : Progress} (step : Step first next)
    {name : String} (bound : first.environment.contains name) :
    next.environment.contains name := by
  cases step with
  | assign _ => exact Environment.contains_assign bound _ _
  | _ => exact bound

theorem Reaches.contains_environment {first last : Progress} (reaches : Reaches first last)
    {name : String} (bound : first.environment.contains name) :
    last.environment.contains name := by
  induction reaches with
  | refl => exact bound
  | tail _ step ih => exact step.contains_environment ih

/-- Wherever the machine gets to, it has stayed in the frame of what was pending. -/
theorem Reaches.frames {first last : Progress} (reaches : Reaches first last) :
    first.pending.Frames first.environment last.environment where
  keeps _ bound := Reaches.contains_environment reaches bound
  adds name unbound bound := by
    by_contra unassigned
    apply unbound
    unfold Environment.contains at bound ⊢
    rwa [← Reaches.get?_environment reaches unassigned]
  leaves _ unassigned := Reaches.get?_environment reaches unassigned

/-! ## Names that are found unbound -/

/-- If a result is the error of an unbound name, it is one of these names, and it is unbound
in the environment. -/
def NamesUnbound {α : Type} (names : String → Prop) (environment : Environment)
    (result : Except RuntimeError α) : Prop :=
  ∀ name, result = .error (.undefinedVariable name) → names name ∧ environment.get? name = none

namespace NamesUnbound

variable {α β : Type} {names : String → Prop} {environment : Environment}

theorem ok (value : α) : NamesUnbound names environment (.ok value) := by
  rintro name ⟨⟩

theorem bind {result : Except RuntimeError α} {next : α → Except RuntimeError β}
    (first : NamesUnbound names environment result)
    (further : ∀ value, NamesUnbound names environment (next value)) :
    NamesUnbound names environment (result >>= next) := by
  cases result with
  | ok value => exact further value
  | error error =>
      rintro name ⟨⟩
      exact first name rfl

theorem mono {others : String → Prop} {result : Except RuntimeError α}
    (unbound : NamesUnbound names environment result)
    (subset : ∀ name, names name → others name) : NamesUnbound others environment result :=
  fun name fails => ⟨subset name (unbound name fails).1, (unbound name fails).2⟩

end NamesUnbound

/-- An operator does not look at names. -/
theorem ArithmeticOp.apply_ne_undefinedVariable (op : ArithmeticOp) (left right : Value)
    (name : String) : op.apply left right ≠ .error (.undefinedVariable name) := by
  have mapped : ∀ {α : Type} {result : Except RuntimeError α} (make : α → Value),
      result ≠ .error (.undefinedVariable name) →
        result.map make ≠ .error (.undefinedVariable name) := by
    rintro α (error | value) make differs ⟨⟩
    exact differs rfl
  unfold apply
  cases Operands.ofValues left right with
  | ints first second =>
      refine mapped _ ?_
      cases op <;> simp only [onInts] <;> split_ifs <;> simp
  | floats first second =>
      refine mapped _ ?_
      cases op <;> simp only [onFloats, ne_eq, reduceCtorEq, not_false_eq_true] <;> split_ifs <;>
        simp

/-- The unbound name that an evaluation reports is a variable of the expression. -/
theorem Expr.namesUnbound_evaluate (environment : Environment) (tree : Expr) :
    NamesUnbound tree.Reads environment (tree.evaluate environment) := by
  induction tree with
  | integer number => exact .ok _
  | float number => exact .ok _
  | var other =>
      intro name fails
      unfold evaluate at fails
      cases bound : environment.get? other with
      | some value => simp [bound] at fails
      | none =>
          obtain rfl : other = name := by simpa [bound] using fails
          exact ⟨(reads_var other other).mpr rfl, bound⟩
  | not operand ih =>
      exact (ih.mono fun name reads => (reads_not name operand).mpr reads).bind fun _ => .ok _
  | arithmetic op left right leftIh rightIh =>
      refine (leftIh.mono fun name reads => ?_).bind fun leftValue =>
        (rightIh.mono fun name reads => ?_).bind fun rightValue => ?_
      · exact (reads_arithmetic name left right op).mpr (.inl reads)
      · exact (reads_arithmetic name left right op).mpr (.inr reads)
      · exact fun name fails => absurd fails (op.apply_ne_undefinedVariable _ _ name)
  | relational _ _ _ leftIh rightIh | and _ _ leftIh rightIh | or _ _ leftIh rightIh =>
      refine (leftIh.mono fun name reads => ?_).bind fun leftValue =>
        (rightIh.mono fun name reads => ?_).bind fun rightValue => .ok _
      · simp [reads]
      · simp [reads]

/-- The machine halts with an error of the statement that it comes to, which is one of those
that were pending. -/
theorem Reaches.exists_failing {start : Configuration} {error : RuntimeError}
    {after : Environment} {printed : String}
    (reaches : Reaches (.running start) (.halted (.error error) after printed)) :
    ∃ statement ∈ blockStatements start.pending, statement.subject.evaluate after = .error error := by
  cases reaches with
  | tail before step =>
      cases step with
      | @fail statement rest _ _ _ evaluated =>
          exact ⟨statement, Reaches.blockStatements_subset before
            (mem_blockStatements_cons statement rest), evaluated⟩

/-- Where the machine has halted at an unbound name, it has nowhere had a value. -/
theorem Reaches.get?_eq_none_of_undefined {first last : Progress} {name : String}
    {after : Environment} {printed : String}
    (halts : Reaches first (.halted (.error (.undefinedVariable name)) after printed))
    (unbound : after.get? name = none) (reaches : Reaches first last) :
    last.environment.get? name = none := by
  have unique : Relator.RightUnique Step := fun _ _ _ => Step.unique
  by_contra bound
  have boundHere : last.environment.contains name := Option.isSome_iff_ne_none.mpr bound
  rcases Relation.ReflTransGen.total_of_right_unique unique reaches halts with further | back
  · -- What is bound here would be bound at the end.
    have boundAfter : after.contains name := Reaches.contains_environment further boundHere
    simp [Environment.contains, unbound] at boundAfter
  · -- Nothing follows a halt.
    cases back using Relation.ReflTransGen.head_induction_on with
    | refl => exact bound unbound
    | head step _ => cases step

/-! ## Whole runs -/

variable {program : Block} {environment : Environment} {output : Output}

/-- Completing the output leaves the environment alone. -/
theorem environment_runProgram (steps : Nat) (program : Block) (machine : Machine) :
    (runProgram steps program machine).machine.environment =
      (execute steps program machine).machine.environment := by
  unfold runProgram
  cases execute steps program machine with
  | finished after =>
      simp only [Ending.andThen, Machine.flush]
      split <;> rfl
  | failed error after => rfl
  | outOfSteps after => rfl

/-- On every output, a run ends in an environment that the stepping machine comes by. -/
theorem RunsTo.exists_reaches_environment {ending : Ending}
    (runs : RunsTo program ⟨environment, output⟩ ending) :
    ∃ progress, Reaches (.running ⟨program, environment, ""⟩) progress ∧
      ending.machine.environment = progress.environment := by
  obtain ⟨_, steps, rfl⟩ := runs
  obtain ⟨progress, _, _, reaches, left, _⟩ :=
    exists_reaches_machine steps program environment output
  exact ⟨progress, reaches, by rw [environment_runProgram, left]⟩

/-- On every output, a run that fails, but not for its output, fails where the stepping
machine halts. -/
theorem RunsTo.reaches_of_failed {error : RuntimeError} {machine : Machine}
    (runs : RunsTo program ⟨environment, output⟩ (.failed error machine))
    (ownError : ∀ cause, error ≠ .output cause) :
    ∃ printed, machine.output = output.append printed ∧
      Reaches (.running ⟨program, environment, ""⟩)
        (.halted (.error error) machine.environment printed) := by
  obtain ⟨_, steps, executed⟩ := runs
  obtain ⟨progress, reaches, stands⟩ := execute_traces output steps program [] environment ""
  rw [List.append_nil] at reaches
  rw [Output.append_empty] at stands
  unfold runProgram at executed
  generalize execute steps program ⟨environment, output⟩ = ending at stands executed
  cases stands with
  | finished after printed =>
      simp only [Ending.andThen, Machine.flush] at executed
      split at executed
      · cases executed
      · cases executed
        exact absurd rfl (ownError _)
  | failed error after printed =>
      cases executed
      exact ⟨printed, rfl, reaches⟩
  | cutOff place _ _ _ =>
      cases executed
      exact absurd rfl (ownError _)
  | outOfSteps place => cases executed

/-- A run that ends at an unbound name reads it, and no environment that the stepping machine
comes by binds it. -/
theorem RunsTo.get?_eq_none_of_undefined {name : String} {machine : Machine}
    (runs : RunsTo program ⟨environment, output⟩ (.failed (.undefinedVariable name) machine)) :
    program.Reads name ∧ environment.get? name = none ∧ machine.environment.get? name = none ∧
      (∃ printed, machine.output = output.append printed ∧
        Reaches (.running ⟨program, environment, ""⟩)
          (.halted (.error (.undefinedVariable name)) machine.environment printed)) ∧
      ∀ progress, Reaches (.running ⟨program, environment, ""⟩) progress →
        progress.environment.get? name = none := by
  obtain ⟨printed, written, halts⟩ := runs.reaches_of_failed (by simp)
  obtain ⟨statement, inside, fails⟩ := Reaches.exists_failing halts
  obtain ⟨reads, unbound⟩ := Expr.namesUnbound_evaluate _ _ name fails
  have nowhere := fun progress (reaches : Reaches _ progress) =>
    Reaches.get?_eq_none_of_undefined halts unbound reaches
  exact ⟨⟨statement, inside, reads⟩, nowhere _ .refl, unbound, ⟨printed, written, halts⟩, nowhere⟩

/-- Bindings only grow, and what is found unbound was never bound.  However a run ends, and
whatever its output is, every name that was bound before is bound after it, a name that is
bound only after it is one to which the program assigns, and every other name has the value
that it had, or none.  If a run ends at an unbound name, the program reads that name, the
stepping machine halts there with the same environment and text, and the name is unbound in
every environment that the machine comes by, from the first one to the last.  So no run of a
program whose variables are all bound before ends in this way. -/
theorem runs_within_frame (program : Block) (environment : Environment) (output : Output) :
    (∀ ending, RunsTo program ⟨environment, output⟩ ending →
      program.Frames environment ending.machine.environment) ∧
    (∀ name machine,
      RunsTo program ⟨environment, output⟩ (.failed (.undefinedVariable name) machine) →
      program.Reads name ∧ environment.get? name = none ∧ machine.environment.get? name = none ∧
        (∃ printed, machine.output = output.append printed ∧
          Reaches (.running ⟨program, environment, ""⟩)
            (.halted (.error (.undefinedVariable name)) machine.environment printed)) ∧
        ∀ progress, Reaches (.running ⟨program, environment, ""⟩) progress →
          progress.environment.get? name = none) ∧
    ((∀ name, program.Reads name → environment.contains name) → ∀ name machine,
      ¬RunsTo program ⟨environment, output⟩ (.failed (.undefinedVariable name) machine)) := by
  refine ⟨fun ending runs => ?_, fun name machine runs => runs.get?_eq_none_of_undefined,
    fun allBound name machine runs => ?_⟩
  · obtain ⟨progress, reaches, same⟩ := runs.exists_reaches_environment
    rw [same]
    exact Reaches.frames reaches
  · obtain ⟨reads, unbound, _⟩ := runs.get?_eq_none_of_undefined
    have bound := allBound name reads
    simp [Environment.contains, unbound] at bound

/-- An output with room for four bytes that cannot be completed. -/
def narrowOutput : Output where
  limit? := some 4
  flushFails := true
  written := ""

/-- On an output that the lines of the countdown fill, it ends at a name to which no round of
its loop has given a value. -/
theorem countThenFail_runs_within_frame :
    ∃ machine,
      RunsTo countThenFail ⟨Environment.empty.assign "n" (.int 2), narrowOutput⟩
        (.failed (.undefinedVariable "missing") machine) ∧
      countThenFail.Frames (Environment.empty.assign "n" (.int 2)) machine.environment ∧
      countThenFail.Reads "missing" ∧
      ∀ progress,
        Reaches (.running ⟨countThenFail, Environment.empty.assign "n" (.int 2), ""⟩) progress →
          progress.environment.get? "missing" = none := by
  have runs : RunsTo countThenFail ⟨Environment.empty.assign "n" (.int 2), narrowOutput⟩
      (.failed (.undefinedVariable "missing")
        ⟨((Environment.empty.assign "n" (.int 2)).assign "n" (.int 1)).assign "n" (.int 0),
          narrowOutput.append "2\n1\n"⟩) := ⟨rfl, 9, rfl⟩
  obtain ⟨frames, atUnbound, _⟩ :=
    runs_within_frame countThenFail (Environment.empty.assign "n" (.int 2)) narrowOutput
  obtain ⟨reads, _, _, _, nowhere⟩ := atUnbound _ _ runs
  exact ⟨_, runs, frames _ runs, reads, nowhere⟩

end WhileLang
