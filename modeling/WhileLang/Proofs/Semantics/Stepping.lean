import Mathlib.Logic.Relation
import WhileLang.Proofs.Semantics.Sequence
import WhileLang.Proofs.Syntax.Occurrence

/-!
# Stepping through a program

A program can also be executed by a machine that knows of no nesting.  It keeps a list of
the statements that are still to come, and a branch or a body that is entered is put in
front of them, a loop behind its own body.  Here it is shown that the machine and the
nested execution end in the same way: an error in the depth of a program halts the machine
at once, and the nested execution hands it up through all levels without doing anything
more.

The machine has no output that could fail.  Whatever the output of the nested execution is,
the machine gets to the place where that execution ends, and as far as the output has room
the steps of the machine are executed in the same way.
-/

namespace WhileLang

/-! ## The stepping machine -/

/-- A program in progress: the statements that are still to be executed, the environment
and the text that has been printed. -/
structure Configuration where
  pending : Block
  environment : Environment
  output : String

/-- What the stepping machine has come to. -/
inductive Progress where
  | running (configuration : Configuration)
  | halted (result : Except RuntimeError Unit) (environment : Environment) (output : String)

namespace Progress

/-- The environment that the machine has made. -/
def environment : Progress → Environment
  | .running configuration => configuration.environment
  | .halted _ environment _ => environment

/-- The text that the machine has printed. -/
def output : Progress → String
  | .running configuration => configuration.output
  | .halted _ _ output => output

end Progress

/-- One step: the first of the pending statements evaluates its expression and acts on the
value.  An error halts the machine, and so does the end of the program. -/
inductive Step : Progress → Progress → Prop
  | finish {environment : Environment} {output : String} :
      Step (.running ⟨[], environment, output⟩) (.halted (.ok ()) environment output)
  | fail {statement : Stmt} {rest : Block} {environment : Environment} {output : String}
      {error : RuntimeError} (evaluated : statement.subject.evaluate environment = .error error) :
      Step (.running ⟨statement :: rest, environment, output⟩)
        (.halted (.error error) environment output)
  | assign {name : String} {subject : Expr} {rest : Block} {environment : Environment}
      {output : String} {value : Value} (evaluated : subject.evaluate environment = .ok value) :
      Step (.running ⟨.assign name subject :: rest, environment, output⟩)
        (.running ⟨rest, environment.assign name value, output⟩)
  | print {subject : Expr} {rest : Block} {environment : Environment} {output : String}
      {value : Value} (evaluated : subject.evaluate environment = .ok value) :
      Step (.running ⟨.print subject :: rest, environment, output⟩)
        (.running ⟨rest, environment, output ++ (value.render ++ "\n")⟩)
  | expression {subject : Expr} {rest : Block} {environment : Environment} {output : String}
      {value : Value} (evaluated : subject.evaluate environment = .ok value) :
      Step (.running ⟨.expression subject :: rest, environment, output⟩)
        (.running ⟨rest, environment, output⟩)
  | enterThen {condition : Expr} {thenBranch rest : Block} {environment : Environment}
      {output : String} {value : Value} (evaluated : condition.evaluate environment = .ok value)
      (truthy : value.isTruthy = true) :
      Step (.running ⟨.ifThen condition thenBranch :: rest, environment, output⟩)
        (.running ⟨thenBranch ++ rest, environment, output⟩)
  | passThen {condition : Expr} {thenBranch rest : Block} {environment : Environment}
      {output : String} {value : Value} (evaluated : condition.evaluate environment = .ok value)
      (falsy : value.isTruthy = false) :
      Step (.running ⟨.ifThen condition thenBranch :: rest, environment, output⟩)
        (.running ⟨rest, environment, output⟩)
  | enterFirst {condition : Expr} {thenBranch elseBranch rest : Block}
      {environment : Environment} {output : String} {value : Value}
      (evaluated : condition.evaluate environment = .ok value) (truthy : value.isTruthy = true) :
      Step (.running ⟨.ifElse condition thenBranch elseBranch :: rest, environment, output⟩)
        (.running ⟨thenBranch ++ rest, environment, output⟩)
  | enterElse {condition : Expr} {thenBranch elseBranch rest : Block} {environment : Environment}
      {output : String} {value : Value} (evaluated : condition.evaluate environment = .ok value)
      (falsy : value.isTruthy = false) :
      Step (.running ⟨.ifElse condition thenBranch elseBranch :: rest, environment, output⟩)
        (.running ⟨elseBranch ++ rest, environment, output⟩)
  | enterLoop {condition : Expr} {body rest : Block} {environment : Environment}
      {output : String} {value : Value} (evaluated : condition.evaluate environment = .ok value)
      (truthy : value.isTruthy = true) :
      Step (.running ⟨.whileDo condition body :: rest, environment, output⟩)
        (.running ⟨body ++ .whileDo condition body :: rest, environment, output⟩)
  | leaveLoop {condition : Expr} {body rest : Block} {environment : Environment}
      {output : String} {value : Value} (evaluated : condition.evaluate environment = .ok value)
      (falsy : value.isTruthy = false) :
      Step (.running ⟨.whileDo condition body :: rest, environment, output⟩)
        (.running ⟨rest, environment, output⟩)

/-- Any number of steps lead from one place to another. -/
abbrev Reaches : Progress → Progress → Prop :=
  Relation.ReflTransGen Step

/-- The machine knows what to do next. -/
theorem Step.unique {first next next' : Progress} (step : Step first next)
    (step' : Step first next') : next = next' := by
  cases step <;> cases step' <;> simp_all [Stmt.subject]

/-- A step prints a text behind what has been printed, or nothing. -/
theorem Step.exists_output_eq {first next : Progress} (step : Step first next) :
    ∃ printed, next.output = first.output ++ printed := by
  cases step with
  | print _ => exact ⟨_, rfl⟩
  | _ => exact ⟨"", String.append_empty.symm⟩

/-- What has been printed stays where it is. -/
theorem Reaches.exists_output_eq {first last : Progress} (reaches : Reaches first last) :
    ∃ printed, last.output = first.output ++ printed := by
  induction reaches with
  | refl => exact ⟨"", String.append_empty.symm⟩
  | tail _ step ih =>
      obtain ⟨before, same⟩ := ih
      obtain ⟨printed, longer⟩ := step.exists_output_eq
      exact ⟨before ++ printed, by rw [longer, same, String.append_assoc]⟩

/-! ## Outputs that do not fail -/

namespace Output

/-- The output takes every text and can be completed. -/
structure NeverFails (output : Output) : Prop where
  unlimited : output.limit? = none
  flushes : output.flushFails = false

/-- The output has room for a text. -/
def Takes (output : Output) (text : String) : Prop :=
  ∀ limit ∈ output.limit?, output.written.utf8ByteSize + text.utf8ByteSize ≤ limit

theorem takes_of_limit?_eq_none (output : Output) (unlimited : output.limit? = none)
    (text : String) : output.Takes text := by
  intro limit limited
  rw [unlimited] at limited
  cases limited

theorem NeverFails.takes {output : Output} (neverFails : output.NeverFails) (text : String) :
    output.Takes text :=
  output.takes_of_limit?_eq_none neverFails.unlimited text

/-- Where there is room for a text there is room for its beginning. -/
theorem Takes.of_append {output : Output} {text more : String}
    (takes : output.Takes (text ++ more)) : output.Takes text := by
  intro limit limited
  have room := takes limit limited
  rw [String.utf8ByteSize_append] at room
  omega

@[simp]
theorem append_empty (output : Output) : output.append "" = output := by
  simp [append]

@[simp]
theorem append_append (output : Output) (first second : String) :
    (output.append first).append second = output.append (first ++ second) := by
  simp [append, String.append_assoc]

/-- An output tells the text that was added to it. -/
theorem append_inj {output : Output} {first second : String}
    (same : output.append first = output.append second) : first = second := by
  have written : output.written ++ first = output.written ++ second := congrArg Output.written same
  exact (String.append_right_inj _).mp written

/-- There is room for one text behind another if it fits into what the other leaves. -/
theorem takes_append_iff {output : Output} {limit : Nat} (limited : output.limit? = some limit)
    {printed text : String} (positive : 0 < text.utf8ByteSize) :
    output.Takes (printed ++ text) ↔
      text.utf8ByteSize ≤ limit - (output.append printed).written.utf8ByteSize := by
  simp only [Takes, limited, Option.mem_some_iff, forall_eq', append, String.utf8ByteSize_append]
  omega

/-- What has been taken does not make an output fail. -/
theorem NeverFails.append {output : Output} (neverFails : output.NeverFails) (text : String) :
    (output.append text).NeverFails :=
  ⟨neverFails.unlimited, neverFails.flushes⟩

end Output

namespace Machine

theorem line_utf8ByteSize_pos (value : Value) : 0 < (value.render ++ "\n").utf8ByteSize := by
  rw [String.utf8ByteSize_append]
  exact Nat.add_pos_right _ (by decide)

/-- A line for which there is room is printed, behind what has been printed before it. -/
theorem print_of_takes {environment : Environment} {output : Output} {printed : String}
    {value : Value} (takes : output.Takes (printed ++ (value.render ++ "\n"))) :
    print ⟨environment, output.append printed⟩ value =
      .finished ⟨environment, output.append (printed ++ (value.render ++ "\n"))⟩ := by
  have same : (output.append printed).limit? = output.limit? := rfl
  unfold print Output.write
  cases limited : output.limit? with
  | none => simp [same, limited]
  | some limit =>
      have fits := (Output.takes_append_iff limited (line_utf8ByteSize_pos value)).mp takes
      simp only [same, limited, if_pos fits, Output.append_append]

/-- A line for which there is no room makes the output fail, which keeps what it has written of
the line. -/
theorem print_of_not_takes (environment : Environment) {output : Output} {printed : String}
    {value : Value} (full : ¬output.Takes (printed ++ (value.render ++ "\n"))) :
    print ⟨environment, output.append printed⟩ value =
      .failed (.output .limitReached)
        ⟨environment, ((output.append printed).write (value.render ++ "\n")).2⟩ := by
  have same : (output.append printed).limit? = output.limit? := rfl
  unfold print Output.write
  cases limited : output.limit? with
  | none => exact absurd (output.takes_of_limit?_eq_none limited _) full
  | some limit =>
      have exceeds := mt (Output.takes_append_iff limited (line_utf8ByteSize_pos value)).mpr full
      simp only [same, limited, if_neg exceeds]

theorem flush_of_neverFails {machine : Machine} (neverFails : machine.output.NeverFails) :
    machine.flush = .finished machine := by
  simp [flush, Output.flush, neverFails.flushes]

end Machine

/-! ## Nested execution is stepped through -/

/-- The place in the run of the stepping machine at which a nested execution on some output
has come to an end.  After a block that has finished, the rest is pending.  On an output
that is full the execution fails at a print statement, where the machine would go on.  The
output has taken what the machine has printed up to the place, and then as much of the line
as it writes. -/
inductive Ending.StandsAt (base : Output) (rest : Block) : Ending → Progress → Prop
  | finished (environment : Environment) (printed : String) :
      StandsAt base rest (.finished ⟨environment, base.append printed⟩)
        (.running ⟨rest, environment, printed⟩)
  | failed (error : RuntimeError) (environment : Environment) (printed : String) :
      StandsAt base rest (.failed error ⟨environment, base.append printed⟩)
        (.halted (.error error) environment printed)
  | cutOff (place : Configuration) {subject : Expr} {others : Block} {value : Value}
      (pending : place.pending = .print subject :: others)
      (evaluated : subject.evaluate place.environment = .ok value)
      (full : ¬base.Takes (place.output ++ (value.render ++ "\n"))) :
      StandsAt base rest
        (.failed (.output .limitReached) ⟨place.environment,
          ((base.append place.output).write (value.render ++ "\n")).2⟩)
        (.running place)
  | outOfSteps (place : Configuration) :
      StandsAt base rest (.outOfSteps ⟨place.environment, base.append place.output⟩)
        (.running place)

/-- The stepping machine, started on a configuration, gets to the place where an execution
has come to this end. -/
def Configuration.Traces (start : Configuration) (base : Output) (rest : Block)
    (ending : Ending) : Prop :=
  ∃ progress, Reaches (.running start) progress ∧ ending.StandsAt base rest progress

namespace Configuration.Traces

variable {start middle : Configuration} {base : Output} {rest last : Block}

theorem of_reaches {ending : Ending} (reaches : Reaches (.running start) (.running middle))
    (traces : middle.Traces base rest ending) : start.Traces base rest ending := by
  obtain ⟨progress, further, stands⟩ := traces
  exact ⟨progress, reaches.trans further, stands⟩

theorem of_step {ending : Ending} (step : Step (.running start) (.running middle))
    (traces : middle.Traces base rest ending) : start.Traces base rest ending :=
  of_reaches (.single step) traces

/-- When the statements that follow are stepped through in turn, both executions are. -/
theorem andThen {ending : Ending} {next : Machine → Ending}
    (traces : start.Traces base rest ending)
    (further : ∀ environment printed,
      Traces ⟨rest, environment, printed⟩ base last (next ⟨environment, base.append printed⟩)) :
    start.Traces base last (ending.andThen next) := by
  obtain ⟨progress, reaches, stands⟩ := traces
  cases stands with
  | finished environment printed => exact of_reaches reaches (further environment printed)
  | failed error environment printed => exact ⟨_, reaches, .failed error environment printed⟩
  | cutOff place pending evaluated full =>
      exact ⟨_, reaches, .cutOff place pending evaluated full⟩
  | outOfSteps place => exact ⟨_, reaches, .outOfSteps place⟩

/-- The expression of a statement is evaluated first, and an error halts the machine. -/
theorem withValue (statement : Stmt) {environment : Environment} {printed : String}
    {next : Value → Ending}
    (further : ∀ value, statement.subject.evaluate environment = .ok value →
      Traces ⟨statement :: rest, environment, printed⟩ base last (next value)) :
    Traces ⟨statement :: rest, environment, printed⟩ base last
      (Machine.withValue ⟨environment, base.append printed⟩ statement.subject next) := by
  unfold Machine.withValue
  cases evaluated : statement.subject.evaluate environment with
  | ok value => exact further value evaluated
  | error error => exact ⟨_, .single (.fail evaluated), .failed error environment printed⟩

/-- A line is printed and the execution goes on, or the output is full. -/
theorem print {subject : Expr} {environment : Environment} {printed : String} {value : Value}
    {next : Machine → Ending} (evaluated : subject.evaluate environment = .ok value)
    (further : Traces ⟨rest, environment, printed ++ (value.render ++ "\n")⟩ base last
      (next ⟨environment, base.append (printed ++ (value.render ++ "\n"))⟩)) :
    Traces ⟨.print subject :: rest, environment, printed⟩ base last
      ((Machine.print ⟨environment, base.append printed⟩ value).andThen next) := by
  by_cases takes : base.Takes (printed ++ (value.render ++ "\n"))
  · rw [Machine.print_of_takes takes]
    exact of_step (.print evaluated) further
  · rw [Machine.print_of_not_takes environment takes]
    exact ⟨_, .refl, .cutOff ⟨_, environment, printed⟩ rfl evaluated takes⟩

end Configuration.Traces

/-- However many steps the nested execution of a block is given, and whatever the output is,
the machine steps through what it does, whatever statements stand behind the block. -/
theorem execute_traces (base : Output) (steps : Nat) (block rest : Block)
    (environment : Environment) (printed : String) :
    Configuration.Traces ⟨block ++ rest, environment, printed⟩ base rest
      (execute steps block ⟨environment, base.append printed⟩) := by
  induction steps generalizing block rest environment printed with
  | zero => exact ⟨_, .refl, .outOfSteps ⟨block ++ rest, environment, printed⟩⟩
  | succ steps ih =>
      cases block with
      | nil => exact ⟨_, .refl, .finished environment printed⟩
      | cons statement others =>
          -- A block that is entered is followed by what the machine has behind it.
          have entered : ∀ inner behind : Block,
              Configuration.Traces ⟨inner ++ (behind ++ rest), environment, printed⟩ base rest
                ((execute steps inner ⟨environment, base.append printed⟩).andThen
                  (execute steps behind)) :=
            fun inner behind =>
              (ih inner (behind ++ rest) environment printed).andThen (ih behind rest)
          cases statement with
          | assign name subject =>
              refine .withValue (.assign name subject) fun value evaluated => ?_
              exact .of_step (.assign evaluated) (ih others rest _ printed)
          | ifThen condition thenBranch =>
              refine .withValue (.ifThen condition thenBranch) fun value evaluated => ?_
              cases truth : value.isTruthy with
              | true => exact .of_step (.enterThen evaluated truth) (entered thenBranch others)
              | false => exact .of_step (.passThen evaluated truth) (ih others rest _ printed)
          | ifElse condition thenBranch elseBranch =>
              refine .withValue (.ifElse condition thenBranch elseBranch)
                fun value evaluated => ?_
              cases truth : value.isTruthy with
              | true => exact .of_step (.enterFirst evaluated truth) (entered thenBranch others)
              | false => exact .of_step (.enterElse evaluated truth) (entered elseBranch others)
          | whileDo condition body =>
              refine .withValue (.whileDo condition body) fun value evaluated => ?_
              cases truth : value.isTruthy with
              | true =>
                  exact .of_step (.enterLoop evaluated truth)
                    (entered body (.whileDo condition body :: others))
              | false => exact .of_step (.leaveLoop evaluated truth) (ih others rest _ printed)
          | print subject =>
              refine .withValue (.print subject) fun value evaluated => ?_
              exact .print evaluated (ih others rest environment _)
          | expression subject =>
              refine .withValue (.expression subject) fun value evaluated => ?_
              exact .of_step (.expression evaluated) (ih others rest environment printed)

/-- However long a program has been executed, and on whatever output, its environment is one
that the stepping machine comes by.  Of the text that the machine has printed up to there,
the output has taken a beginning, and all of it if there is room. -/
theorem exists_reaches_machine (steps : Nat) (program : Block) (environment : Environment)
    (output : Output) :
    ∃ progress taken missing, Reaches (.running ⟨program, environment, ""⟩) progress ∧
      (execute steps program ⟨environment, output⟩).machine =
        ⟨progress.environment, output.append taken⟩ ∧
      progress.output = taken ++ missing ∧ (output.Takes progress.output → missing = "") := by
  obtain ⟨place, reaches, stands⟩ := execute_traces output steps program [] environment ""
  rw [List.append_nil] at reaches
  rw [Output.append_empty] at stands
  generalize execute steps program ⟨environment, output⟩ = ending at stands ⊢
  cases stands with
  | finished after printed =>
      exact ⟨_, printed, "", reaches, rfl, String.append_empty.symm, fun _ => rfl⟩
  | failed error after printed =>
      exact ⟨_, printed, "", reaches, rfl, String.append_empty.symm, fun _ => rfl⟩
  | outOfSteps place =>
      exact ⟨_, place.output, "", reaches, rfl, String.append_empty.symm, fun _ => rfl⟩
  | @cutOff place subject others value pending evaluated full =>
      -- The machine goes on and prints the line, which changes no environment.
      rcases place with ⟨_, after, printed⟩
      cases pending
      obtain ⟨kept, missing, parts, written⟩ :=
        (output.append printed).exists_write_eq (value.render ++ "\n")
      refine ⟨_, printed ++ kept, missing, reaches.tail (.print evaluated), ?_, ?_,
        fun takes => absurd takes full⟩
      · simp only [Ending.machine, written, Output.append_append, Progress.environment]
      · simp only [Progress.output, parts, String.append_assoc]

/-- The stepping machine, started on a configuration, does what an execution has done that
came to this end: it gets to the statements that follow, or it halts with the error. -/
def Configuration.Follows (start : Configuration) (base : Output) (rest : Block) : Ending → Prop
  | .finished machine => ∃ environment output,
      machine = ⟨environment, base.append output⟩ ∧
        Reaches (.running start) (.running ⟨rest, environment, output⟩)
  | .failed error machine => ∃ environment output,
      machine = ⟨environment, base.append output⟩ ∧
        Reaches (.running start) (.halted (.error error) environment output)
  | .outOfSteps _ => True

/-- On an output that never fails, nothing is cut off. -/
theorem execute_follows {base : Output} (neverFails : base.NeverFails) (steps : Nat)
    (block rest : Block) (environment : Environment) (output : String) :
    Configuration.Follows ⟨block ++ rest, environment, output⟩ base rest
      (execute steps block ⟨environment, base.append output⟩) := by
  obtain ⟨progress, reaches, stands⟩ := execute_traces base steps block rest environment output
  generalize execute steps block ⟨environment, base.append output⟩ = ending at stands ⊢
  cases stands with
  | finished after printed => exact ⟨after, printed, rfl, reaches⟩
  | failed error after printed => exact ⟨after, printed, rfl, reaches⟩
  | cutOff _ _ _ full => exact absurd (neverFails.takes _) full
  | outOfSteps _ => trivial

/-! ## Steps are executed in a nested way -/

/-- The ending with a result. -/
def Ending.ofResult : Except RuntimeError Unit → Machine → Ending
  | .ok (), machine => .finished machine
  | .error error, machine => .failed error machine

theorem Ending.isDone_ofResult (result : Except RuntimeError Unit) (machine : Machine) :
    (ofResult result machine).isDone := by
  cases result <;> rfl

/-- The ending tells the result, the environment and the text that an output has taken. -/
theorem Ending.ofResult_append_inj {result result' : Except RuntimeError Unit}
    {environment environment' : Environment} {base : Output} {text text' : String}
    (same : ofResult result ⟨environment, base.append text⟩ =
      ofResult result' ⟨environment', base.append text'⟩) :
    result = result' ∧ environment = environment' ∧ text = text' := by
  rcases result with error | ⟨⟩ <;> rcases result' with error' | ⟨⟩ <;>
    simp only [ofResult, failed.injEq, finished.injEq, Machine.mk.injEq, reduceCtorEq] at same
  · exact ⟨congrArg _ same.1, same.2.1, Output.append_inj same.2.2⟩
  · exact ⟨rfl, same.1, Output.append_inj same.2⟩

theorem execute_cons_of_error {statement : Stmt} {machine : Machine} {error : RuntimeError}
    (evaluated : statement.subject.evaluate machine.environment = .error error) (steps : Nat)
    (rest : Block) : execute (steps + 1) (statement :: rest) machine = .failed error machine := by
  have halts : ∀ next, machine.withValue statement.subject next = .failed error machine := by
    intro next
    rw [Machine.withValue, evaluated]
  cases statement <;> exact halts _

/-- From here on nested execution comes to the ending: with the pending statements, or
because it has the result that the machine has halted with. -/
def Progress.ComesTo (base : Output) (ending : Ending) : Progress → Prop
  | .running start => ∃ steps,
      execute steps start.pending ⟨start.environment, base.append start.output⟩ = ending
  | .halted result environment output =>
      ending = .ofResult result ⟨environment, base.append output⟩

/-- One step backwards, on an output that has room for what has been printed after it: the
nested execution that goes on after the step is the end of one that begins before it. -/
theorem Step.comesTo {base : Output} {ending : Ending} {first next : Progress}
    (step : Step first next) (takes : base.Takes next.output) (done : ending.isDone)
    (comes : next.ComesTo base ending) : first.ComesTo base ending := by
  -- A block in front of others is the first part of a sequence.
  have inParts : ∀ {steps : Nat} {block others : Block} {machine : Machine},
      execute steps (block ++ others) machine = ending →
        (execute steps block machine).andThen (execute steps others) = ending := by
    rintro steps block others machine rfl
    exact execute_append_of_isDone done
  cases step with
  | finish =>
      cases comes
      exact ⟨1, rfl⟩
  | fail evaluated =>
      cases comes
      exact ⟨1, execute_cons_of_error evaluated 0 _⟩
  | assign evaluated =>
      rcases comes with ⟨steps, executed⟩
      refine ⟨steps + 1, ?_⟩
      simpa [execute, Machine.withValue, Machine.assign, evaluated] using executed
  | print evaluated =>
      rcases comes with ⟨steps, executed⟩
      refine ⟨steps + 1, ?_⟩
      simp only [execute, Machine.withValue, evaluated]
      rw [Machine.print_of_takes takes]
      exact executed
  | expression evaluated =>
      rcases comes with ⟨steps, executed⟩
      exact ⟨steps + 1, by simpa [execute, Machine.withValue, evaluated] using executed⟩
  | enterThen evaluated truthy =>
      rcases comes with ⟨steps, executed⟩
      refine ⟨steps + 1, ?_⟩
      simpa [execute, Machine.withValue, evaluated, truthy] using inParts executed
  | passThen evaluated falsy =>
      rcases comes with ⟨steps, executed⟩
      exact ⟨steps + 1, by simpa [execute, Machine.withValue, evaluated, falsy] using executed⟩
  | enterFirst evaluated truthy =>
      rcases comes with ⟨steps, executed⟩
      refine ⟨steps + 1, ?_⟩
      simpa [execute, Machine.withValue, evaluated, truthy] using inParts executed
  | enterElse evaluated falsy =>
      rcases comes with ⟨steps, executed⟩
      refine ⟨steps + 1, ?_⟩
      simpa [execute, Machine.withValue, evaluated, falsy] using inParts executed
  | enterLoop evaluated truthy =>
      rcases comes with ⟨steps, executed⟩
      refine ⟨steps + 1, ?_⟩
      simpa [execute, Machine.withValue, evaluated, truthy] using inParts executed
  | leaveLoop evaluated falsy =>
      rcases comes with ⟨steps, executed⟩
      exact ⟨steps + 1, by simpa [execute, Machine.withValue, evaluated, falsy] using executed⟩

/-- A run of the machine, on an output that has room for all that it prints, is the first
part of a nested execution. -/
theorem Reaches.comesTo {base : Output} {ending : Ending} {first last : Progress}
    (reaches : Reaches first last) (takes : base.Takes last.output) (done : ending.isDone)
    (comes : last.ComesTo base ending) : first.ComesTo base ending := by
  induction reaches using Relation.ReflTransGen.head_induction_on with
  | refl => exact comes
  | head step further ih =>
      obtain ⟨printed, same⟩ := Reaches.exists_output_eq further
      exact step.comesTo (Output.Takes.of_append (same ▸ takes)) done ih

/-- What the machine halts with is what the nested execution comes to on every output that
has room for the text. -/
theorem Reaches.exists_execute {program : Block} {environment after : Environment}
    {result : Except RuntimeError Unit} {printed : String} {output : Output}
    (reaches : Reaches (.running ⟨program, environment, ""⟩) (.halted result after printed))
    (takes : output.Takes printed) :
    ∃ steps, execute steps program ⟨environment, output⟩ =
      .ofResult result ⟨after, output.append printed⟩ := by
  obtain ⟨steps, executed⟩ := reaches.comesTo takes (Ending.isDone_ofResult _ _) rfl
  exact ⟨steps, by simpa using executed⟩

/-! ## Whole programs -/

/-- No larger number of steps changes a run that came to an end of its own. -/
theorem runProgram_eq_of_le {fewer more : Nat} (le : fewer ≤ more) {program : Block}
    {machine : Machine} (done : (runProgram fewer program machine).isDone) :
    runProgram more program machine = runProgram fewer program machine :=
  Ending.andThen_congr (execute_eq_of_le le) (fun _ _ => rfl) done

/-- The program comes to an end of its own on the machine. -/
def RunsTo (program : Block) (machine : Machine) (ending : Ending) : Prop :=
  ending.isDone ∧ ∃ steps, runProgram steps program machine = ending

/-- A program comes to one end at most. -/
theorem RunsTo.unique {program : Block} {machine : Machine} {ending ending' : Ending}
    (runs : RunsTo program machine ending) (runs' : RunsTo program machine ending') :
    ending = ending' := by
  obtain ⟨done, steps, rfl⟩ := runs
  obtain ⟨done', steps', rfl⟩ := runs'
  rcases Nat.le_total steps steps' with le | le
  · exact (runProgram_eq_of_le le done).symm
  · exact runProgram_eq_of_le le done'

/-- An execution does not make an output fail. -/
theorem neverFails_of_finished {steps : Nat} {program : Block} {machine after : Machine}
    (neverFails : machine.output.NeverFails)
    (executed : execute steps program machine = .finished after) : after.output.NeverFails := by
  have follows := execute_follows neverFails steps program [] machine.environment ""
  rw [Output.append_empty, executed] at follows
  rcases follows with ⟨environment, printed, rfl, _⟩
  exact neverFails.append printed

/-- On an output that never fails there is nothing to complete. -/
theorem runProgram_eq_execute {machine : Machine} (neverFails : machine.output.NeverFails)
    (steps : Nat) (program : Block) :
    runProgram steps program machine = execute steps program machine := by
  rw [runProgram]
  cases executed : execute steps program machine with
  | finished after =>
      exact Machine.flush_of_neverFails (neverFails_of_finished neverFails executed)
  | failed error after => rfl
  | outOfSteps after => rfl

theorem runsTo_iff_execute {program : Block} {machine : Machine} {ending : Ending}
    (neverFails : machine.output.NeverFails) :
    RunsTo program machine ending ↔
      ending.isDone ∧ ∃ steps, execute steps program machine = ending := by
  simp only [RunsTo, runProgram_eq_execute neverFails]

/-- An end of its own is reached by stepping as well. -/
theorem RunsTo.reaches {program : Block} {environment : Environment} {output : Output}
    {ending : Ending} (neverFails : output.NeverFails)
    (runs : RunsTo program ⟨environment, output⟩ ending) :
    ∃ result after printed, ending = .ofResult result ⟨after, output.append printed⟩ ∧
      Reaches (.running ⟨program, environment, ""⟩) (.halted result after printed) := by
  rcases (runsTo_iff_execute neverFails).mp runs with ⟨done, steps, rfl⟩
  have follows := execute_follows neverFails steps program [] environment ""
  rw [List.append_nil, Output.append_empty] at follows
  cases executed : execute steps program ⟨environment, output⟩ with
  | finished machine =>
      rw [executed] at follows
      rcases follows with ⟨after, printed, rfl, reaches⟩
      exact ⟨.ok (), after, printed, rfl, reaches.tail .finish⟩
  | failed error machine =>
      rw [executed] at follows
      rcases follows with ⟨after, printed, rfl, reaches⟩
      exact ⟨.error error, after, printed, rfl, reaches⟩
  | outOfSteps machine => simp [executed, Ending.isDone] at done

theorem RunsTo.reaches_halted {program : Block} {environment after : Environment}
    {output : Output} (neverFails : output.NeverFails) {result : Except RuntimeError Unit}
    {printed : String} (runs : RunsTo program ⟨environment, output⟩
      (.ofResult result ⟨after, output.append printed⟩)) :
    Reaches (.running ⟨program, environment, ""⟩) (.halted result after printed) := by
  obtain ⟨result', after', printed', same, reaches⟩ := runs.reaches neverFails
  obtain ⟨rfl, rfl, rfl⟩ := Ending.ofResult_append_inj same
  exact reaches

/-- An end that is reached by stepping is an end of the program. -/
theorem Reaches.runsTo {program : Block} {environment after : Environment} {output : Output}
    (neverFails : output.NeverFails) {result : Except RuntimeError Unit} {printed : String}
    (reaches : Reaches (.running ⟨program, environment, ""⟩) (.halted result after printed)) :
    RunsTo program ⟨environment, output⟩ (.ofResult result ⟨after, output.append printed⟩) :=
  (runsTo_iff_execute neverFails).mpr
    ⟨Ending.isDone_ofResult _ _, reaches.exists_execute (neverFails.takes printed)⟩

/-- Nested execution and the stepping machine agree.  On an output that never fails, a
program that comes to an end does so with a result, an environment and a printed text, and
with these it ends if and only if the machine, started on the program with nothing printed,
halts with them. -/
theorem runsTo_iff_reaches_halted {output : Output} (neverFails : output.NeverFails)
    (program : Block) (environment : Environment) :
    (∀ ending, RunsTo program ⟨environment, output⟩ ending →
        ∃ result after printed, ending = .ofResult result ⟨after, output.append printed⟩) ∧
      ∀ result after printed,
        RunsTo program ⟨environment, output⟩ (.ofResult result ⟨after, output.append printed⟩) ↔
          Reaches (.running ⟨program, environment, ""⟩) (.halted result after printed) := by
  constructor
  · intro ending runs
    obtain ⟨result, after, printed, same, _⟩ := runs.reaches neverFails
    exact ⟨result, after, printed, same⟩
  · intro result after printed
    exact ⟨fun runs => runs.reaches_halted neverFails, fun reaches => reaches.runsTo neverFails⟩

/-- A loop that prints a number and counts it down, and then reads a name without a value
inside a branch. -/
def countThenFail : Block :=
  [.whileDo (.var "n")
      [.print (.var "n"), .assign "n" (.arithmetic .sub (.var "n") (.integer 1)),
        .ifThen (.not (.var "n")) [.print (.var "missing"), .print (.var "n")]],
    .print (.var "n")]

theorem countThenFail_runsTo :
    RunsTo countThenFail ⟨Environment.empty.assign "n" (.int 2), .unlimited⟩
      (.ofResult (.error (.undefinedVariable "missing"))
        ⟨((Environment.empty.assign "n" (.int 2)).assign "n" (.int 1)).assign "n" (.int 0),
          Output.unlimited.append "2\n1\n"⟩) :=
  ⟨rfl, 9, rfl⟩

/-- The error in the branch inside the loop halts the machine, and what was printed and
assigned before it stays. -/
theorem countThenFail_reaches_halted :
    Output.unlimited.NeverFails ∧
      Reaches (.running ⟨countThenFail, Environment.empty.assign "n" (.int 2), ""⟩)
        (.halted (.error (.undefinedVariable "missing"))
          (((Environment.empty.assign "n" (.int 2)).assign "n" (.int 1)).assign "n" (.int 0))
          "2\n1\n") := by
  have neverFails : Output.unlimited.NeverFails := ⟨rfl, rfl⟩
  exact ⟨neverFails,
    ((runsTo_iff_reaches_halted neverFails countThenFail _).2 _ _ _).mp countThenFail_runsTo⟩

end WhileLang
