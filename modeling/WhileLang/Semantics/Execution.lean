import WhileLang.Semantics.Evaluation
import WhileLang.Semantics.Output
import WhileLang.Syntax.Stmt

/-!
# Execution of programs

A program runs on a machine: an environment and an output.  A loop may go on
forever, so execution is given a number of steps, and it may end for want of
steps.  An ending for any other reason is the same with any larger number.
-/

namespace WhileLang

/-- What a program acts on. -/
structure Machine where
  environment : Environment
  output : Output

/-- How an execution ends, and the state of the machine then. -/
inductive Ending where
  | finished (machine : Machine)
  | failed (error : RuntimeError) (machine : Machine)
  | outOfSteps (machine : Machine)

namespace Ending

/-- The machine at the end. -/
def machine : Ending → Machine
  | .finished machine => machine
  | .failed _ machine => machine
  | .outOfSteps machine => machine

/-- Whether the execution came to an end of its own. -/
def isDone : Ending → Bool
  | .finished _ => true
  | .failed _ _ => true
  | .outOfSteps _ => false

/-- Goes on after an execution that has finished. -/
@[inline]
def andThen (ending : Ending) (next : Machine → Ending) : Ending :=
  match ending with
  | .finished machine => next machine
  | .failed error machine => .failed error machine
  | .outOfSteps machine => .outOfSteps machine

end Ending

namespace Machine

/-- Goes on with the value of an expression. -/
@[inline]
def withValue (machine : Machine) (expr : Expr) (next : Value → Ending) : Ending :=
  match expr.evaluate machine.environment with
  | .ok value => next value
  | .error error => .failed error machine

/-- Binds a name. -/
def assign (machine : Machine) (name : String) (value : Value) : Machine :=
  { machine with environment := machine.environment.assign name value }

/-- Prints a value on a line of its own. -/
def print (machine : Machine) (value : Value) : Ending :=
  match machine.output.write (value.render ++ "\n") with
  | (.ok (), output) => .finished { machine with output }
  | (.error cause, output) => .failed (.output cause) { machine with output }

/-- Completes the output of a program that has finished. -/
def flush (machine : Machine) : Ending :=
  match machine.output.flush with
  | .ok () => .finished machine
  | .error cause => .failed (.output cause) machine

end Machine

/-- Executes a block within a number of steps.  Entering a branch or a body and
going on to the next statement each take a step. -/
def execute : Nat → Block → Machine → Ending
  | 0, _, machine => .outOfSteps machine
  | _ + 1, [], machine => .finished machine
  | steps + 1, .assign name value :: rest, machine =>
      machine.withValue value fun value => execute steps rest (machine.assign name value)
  | steps + 1, .ifThen condition thenBranch :: rest, machine =>
      machine.withValue condition fun value =>
        if value.isTruthy then
          (execute steps thenBranch machine).andThen (execute steps rest)
        else
          execute steps rest machine
  | steps + 1, .ifElse condition thenBranch elseBranch :: rest, machine =>
      machine.withValue condition fun value =>
        if value.isTruthy then
          (execute steps thenBranch machine).andThen (execute steps rest)
        else
          (execute steps elseBranch machine).andThen (execute steps rest)
  | steps + 1, .whileDo condition body :: rest, machine =>
      machine.withValue condition fun value =>
        if value.isTruthy then
          (execute steps body machine).andThen (execute steps (.whileDo condition body :: rest))
        else
          execute steps rest machine
  | steps + 1, .print value :: rest, machine =>
      machine.withValue value fun value => (machine.print value).andThen (execute steps rest)
  | steps + 1, .expression value :: rest, machine =>
      machine.withValue value fun _ => execute steps rest machine

/-- Executes a program and completes its output.  A program that has failed keeps
its own error. -/
def runProgram (steps : Nat) (program : Block) (machine : Machine) : Ending :=
  (execute steps program machine).andThen Machine.flush

/-! ## Independence of the number of steps -/

theorem Ending.isDone_of_andThen {ending : Ending} {next : Machine → Ending}
    (done : (ending.andThen next).isDone) : ending.isDone := by
  cases ending with
  | finished machine => rfl
  | failed error machine => rfl
  | outOfSteps machine => exact done

/-- Executions that agree where the first is done also agree when they go on in ways
that agree where the first is done. -/
theorem Ending.andThen_congr {first second : Ending} {next next' : Machine → Ending}
    (agree : first.isDone → second = first)
    (nextAgree : ∀ machine, (next machine).isDone → next' machine = next machine)
    (done : (first.andThen next).isDone) : second.andThen next' = first.andThen next := by
  rw [agree (isDone_of_andThen done)]
  cases first with
  | finished machine => exact nextAgree machine done
  | failed error machine => rfl
  | outOfSteps machine => rfl

theorem Machine.withValue_congr {machine : Machine} {expr : Expr} {next next' : Value → Ending}
    (agree : ∀ value, (next value).isDone → next' value = next value)
    (done : (machine.withValue expr next).isDone) :
    machine.withValue expr next' = machine.withValue expr next := by
  unfold withValue at done ⊢
  cases evaluated : expr.evaluate machine.environment with
  | ok value =>
      rw [evaluated] at done
      exact agree value done
  | error error => rfl

/-- One more step does not change an execution that came to an end of its own. -/
theorem execute_succ {steps : Nat} {program : Block} {machine : Machine}
    (done : (execute steps program machine).isDone) :
    execute (steps + 1) program machine = execute steps program machine := by
  induction steps generalizing program machine with
  | zero => simp [execute, Ending.isDone] at done
  | succ steps ih =>
      cases program with
      | nil => rfl
      | cons statement rest =>
          cases statement with
          | assign name value => exact Machine.withValue_congr (fun _ => ih) done
          | ifThen condition thenBranch =>
              refine Machine.withValue_congr (fun value valueDone => ?_) done
              by_cases truthy : value.isTruthy
              · simp only [if_pos truthy] at valueDone ⊢
                exact Ending.andThen_congr ih (fun _ => ih) valueDone
              · simp only [if_neg truthy] at valueDone ⊢
                exact ih valueDone
          | ifElse condition thenBranch elseBranch =>
              refine Machine.withValue_congr (fun value valueDone => ?_) done
              by_cases truthy : value.isTruthy
              · simp only [if_pos truthy] at valueDone ⊢
                exact Ending.andThen_congr ih (fun _ => ih) valueDone
              · simp only [if_neg truthy] at valueDone ⊢
                exact Ending.andThen_congr ih (fun _ => ih) valueDone
          | whileDo condition body =>
              refine Machine.withValue_congr (fun value valueDone => ?_) done
              by_cases truthy : value.isTruthy
              · simp only [if_pos truthy] at valueDone ⊢
                exact Ending.andThen_congr ih (fun _ => ih) valueDone
              · simp only [if_neg truthy] at valueDone ⊢
                exact ih valueDone
          | print value =>
              exact Machine.withValue_congr
                (fun _ => Ending.andThen_congr (fun _ => rfl) (fun _ => ih)) done
          | expression value => exact Machine.withValue_congr (fun _ => ih) done

/-- No larger number of steps changes an execution that came to an end of its own. -/
theorem execute_eq_of_le {fewer more : Nat} (le : fewer ≤ more) {program : Block}
    {machine : Machine} (done : (execute fewer program machine).isDone) :
    execute more program machine = execute fewer program machine := by
  induction le with
  | refl => rfl
  | step _ ih => rw [execute_succ (ih ▸ done), ih]

end WhileLang
