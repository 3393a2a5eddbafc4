import WhileLang.Semantics.Execution

/-!
# Executing a sequence in two parts

A block that is made of two parts is executed by executing the first part and, if that
finishes, the second.  The two parts need no more steps than the whole, and the whole no
more than the parts together, so for an execution that comes to an end of its own it
makes no difference in which way it is done.
-/

namespace WhileLang

namespace Ending

theorem andThen_assoc (ending : Ending) (next last : Machine → Ending) :
    (ending.andThen next).andThen last =
      ending.andThen fun machine => (next machine).andThen last := by
  cases ending <;> rfl

theorem andThen_ite (condition : Prop) [Decidable condition] (first second : Ending)
    (next : Machine → Ending) :
    (if condition then first else second).andThen next =
      if condition then first.andThen next else second.andThen next := by
  split <;> rfl

/-- Choices agree where the first is done if their branches do. -/
theorem ite_congr {condition : Prop} [Decidable condition] {first second first' second' : Ending}
    (agree : first.isDone → first' = first) (agree' : second.isDone → second' = second)
    (done : (if condition then first else second).isDone) :
    (if condition then first' else second') = if condition then first else second := by
  split
  case isTrue holds => exact agree (by simpa [holds] using done)
  case isFalse fails => exact agree' (by simpa [fails] using done)

end Ending

theorem Machine.withValue_andThen (machine : Machine) (expr : Expr) (next : Value → Ending)
    (last : Machine → Ending) :
    (machine.withValue expr next).andThen last =
      machine.withValue expr fun value => (next value).andThen last := by
  unfold withValue
  cases expr.evaluate machine.environment <;> rfl

/-! ## The first statement of a block -/

/-- Executes a statement and what stands behind it, given how a block that the statement
enters is executed and how the execution goes on. -/
def Stmt.executeWith (enter goOn : Block → Machine → Ending) (rest : Block) (machine : Machine) :
    Stmt → Ending
  | .assign name value =>
      machine.withValue value fun value => goOn rest (machine.assign name value)
  | .ifThen condition thenBranch =>
      machine.withValue condition fun value =>
        if value.isTruthy then (enter thenBranch machine).andThen (goOn rest)
        else goOn rest machine
  | .ifElse condition thenBranch elseBranch =>
      machine.withValue condition fun value =>
        if value.isTruthy then (enter thenBranch machine).andThen (goOn rest)
        else (enter elseBranch machine).andThen (goOn rest)
  | .whileDo condition body =>
      machine.withValue condition fun value =>
        if value.isTruthy then
          (enter body machine).andThen (goOn (.whileDo condition body :: rest))
        else goOn rest machine
  | .print value =>
      machine.withValue value fun value => (machine.print value).andThen (goOn rest)
  | .expression value => machine.withValue value fun _ => goOn rest machine

theorem execute_cons (steps : Nat) (statement : Stmt) (rest : Block) (machine : Machine) :
    execute (steps + 1) (statement :: rest) machine =
      statement.executeWith (execute steps) (execute steps) rest machine := by
  cases statement <;> rfl

namespace Stmt

variable {enter goOn enter' goOn' : Block → Machine → Ending}

/-- What is done after a statement and what stands behind it belongs to how the execution
goes on. -/
theorem executeWith_andThen (statement : Stmt) (rest : Block) (machine : Machine)
    (last : Machine → Ending) :
    (statement.executeWith enter goOn rest machine).andThen last =
      statement.executeWith enter (fun block machine => (goOn block machine).andThen last) rest
        machine := by
  cases statement <;>
    simp only [executeWith, Machine.withValue_andThen, Ending.andThen_ite, Ending.andThen_assoc]

/-- So does a block that stands at the end. -/
theorem executeWith_append (statement : Stmt) (rest last : Block) (machine : Machine) :
    statement.executeWith enter goOn (rest ++ last) machine =
      statement.executeWith enter (fun block => goOn (block ++ last)) rest machine := by
  cases statement <;> rfl

/-- Executions that agree where they are done also agree from one statement earlier. -/
theorem executeWith_congr {statement : Stmt} {rest : Block} {machine : Machine}
    (agreeEnter : ∀ {block machine}, (enter block machine).isDone →
      enter' block machine = enter block machine)
    (agreeGoOn : ∀ {block machine}, (goOn block machine).isDone →
      goOn' block machine = goOn block machine)
    (done : (statement.executeWith enter goOn rest machine).isDone) :
    statement.executeWith enter' goOn' rest machine =
      statement.executeWith enter goOn rest machine := by
  have entered : ∀ {block rest machine}, ((enter block machine).andThen (goOn rest)).isDone →
      (enter' block machine).andThen (goOn' rest) = (enter block machine).andThen (goOn rest) :=
    Ending.andThen_congr agreeEnter (fun _ => agreeGoOn)
  cases statement with
  | assign name value => exact Machine.withValue_congr (fun _ => agreeGoOn) done
  | ifThen condition thenBranch =>
      exact Machine.withValue_congr (fun _ => Ending.ite_congr entered agreeGoOn) done
  | ifElse condition thenBranch elseBranch =>
      exact Machine.withValue_congr (fun _ => Ending.ite_congr entered entered) done
  | whileDo condition body =>
      exact Machine.withValue_congr (fun _ => Ending.ite_congr entered agreeGoOn) done
  | print value =>
      exact Machine.withValue_congr
        (fun _ => Ending.andThen_congr (fun _ => rfl) (fun _ => agreeGoOn)) done
  | expression value => exact Machine.withValue_congr (fun _ => agreeGoOn) done

end Stmt

/-! ## Two parts -/

/-- A sequence that comes to an end of its own is executed in two parts. -/
theorem execute_append_of_isDone {steps : Nat} {first second : Block} {machine : Machine}
    (done : (execute steps (first ++ second) machine).isDone) :
    (execute steps first machine).andThen (execute steps second) =
      execute steps (first ++ second) machine := by
  induction steps generalizing first machine with
  | zero => simp [execute, Ending.isDone] at done
  | succ steps ih =>
      cases first with
      | nil => rfl
      | cons statement rest =>
          have whole : execute (steps + 1) (statement :: rest ++ second) machine =
              statement.executeWith (execute steps) (fun block => execute steps (block ++ second))
                rest machine := by
            rw [List.cons_append, execute_cons, Stmt.executeWith_append]
          rw [whole] at done ⊢
          rw [execute_cons, Stmt.executeWith_andThen]
          refine Stmt.executeWith_congr (fun _ => rfl) (fun {block machine} blockDone => ?_) done
          -- The second part has one step more than it has in the execution of the whole.
          have same := ih blockDone
          rw [← same] at blockDone ⊢
          exact Ending.andThen_congr (fun _ => rfl) (fun _ => execute_succ) blockDone

/-- Two executions that follow one another and come to an end of their own execute the
sequence. -/
theorem execute_add_append {steps more : Nat} {first second : Block} {machine : Machine}
    (done : ((execute steps first machine).andThen (execute more second)).isDone) :
    execute (steps + more) (first ++ second) machine =
      (execute steps first machine).andThen (execute more second) := by
  induction steps generalizing first machine with
  | zero => simp [execute, Ending.andThen, Ending.isDone] at done
  | succ steps ih =>
      rw [Nat.succ_add]
      cases first with
      | nil => exact execute_eq_of_le (by omega) done
      | cons statement rest =>
          rw [execute_cons, Stmt.executeWith_andThen] at done ⊢
          rw [List.cons_append, execute_cons, Stmt.executeWith_append]
          exact Stmt.executeWith_congr (execute_eq_of_le (Nat.le_add_right _ _)) ih done

end WhileLang
