import Mathlib
import WhileLang.Proofs.Semantics.Confinement

/-!
# A program depends on the names in it only

Two runs of a program that start with the same values of all names that the program reads
go on side by side: the stepping machine takes the same steps in both, prints the same
text, and halts in both or in neither.
-/

namespace WhileLang

/-- Two environments bind these names to the same values, or leave them unbound alike. -/
def Environment.AgreesOn (names : String → Prop) (first second : Environment) : Prop :=
  ∀ name, names name → first.get? name = second.get? name

namespace Environment.AgreesOn

variable {names : String → Prop} {first second : Environment}

theorem symm (agree : first.AgreesOn names second) : second.AgreesOn names first :=
  fun name isOne => (agree name isOne).symm

theorem assign (agree : first.AgreesOn names second) (name : String) (value : Value) :
    (first.assign name value).AgreesOn names (second.assign name value) := by
  intro other isOne
  rw [get?_assign, get?_assign, agree other isOne]

end Environment.AgreesOn

/-- The value of an expression depends on the variables in it only. -/
theorem Expr.evaluate_congr {first second : Environment} {tree : Expr}
    (agree : first.AgreesOn tree.Reads second) :
    tree.evaluate first = tree.evaluate second := by
  induction tree with
  | integer number => rfl
  | float number => rfl
  | var name =>
      simp only [evaluate]
      rw [agree name ((reads_var name name).mpr rfl)]
  | not operand ih => simp only [evaluate, ih fun name reads => agree name (by simp [reads])]
  | arithmetic _ _ _ leftIh rightIh | relational _ _ _ leftIh rightIh | and _ _ leftIh rightIh
    | or _ _ leftIh rightIh =>
      simp only [evaluate, leftIh fun name reads => agree name (by simp [reads]),
        rightIh fun name reads => agree name (by simp [reads])]

/-! ## Steps side by side -/

/-- Two machines stand at the same place of a program, have printed the same text, and have
environments that agree on these names. -/
inductive Progress.Matches (names : String → Prop) : Progress → Progress → Prop
  | running (pending : Block) (printed : String) {first second : Environment}
      (agree : first.AgreesOn names second) :
      Matches names (.running ⟨pending, first, printed⟩) (.running ⟨pending, second, printed⟩)
  | halted (result : Except RuntimeError Unit) (printed : String) {first second : Environment}
      (agree : first.AgreesOn names second) :
      Matches names (.halted result first printed) (.halted result second printed)

/-- A step is also a step of the other machine, if the names are known that are read. -/
theorem Step.exists_matching {names : String → Prop} {first next first' : Progress}
    (step : Step first next) (matching : first.Matches names first')
    (known : ∀ name, first.pending.Reads name → names name) :
    ∃ next', Step first' next' ∧ next.Matches names next' := by
  cases matching with
  | halted result printed agree => cases step
  | @running pending printed environment environment' agree =>
      -- The expression of the next statement has the same value.
      have same : ∀ {statement : Stmt} {rest : Block}, pending = statement :: rest →
          ∀ {result}, statement.subject.evaluate environment = result →
            statement.subject.evaluate environment' = result := by
        rintro statement rest rfl result rfl
        exact (Expr.evaluate_congr fun name reads => agree name
          (known name ⟨statement, mem_blockStatements_cons statement rest, reads⟩)).symm
      cases step with
      | finish => exact ⟨_, .finish, .halted _ _ agree⟩
      | fail evaluated => exact ⟨_, .fail (same rfl evaluated), .halted _ _ agree⟩
      | @assign name subject rest _ _ value evaluated =>
          exact ⟨_, .assign (same rfl evaluated), .running _ _ (agree.assign name value)⟩
      | print evaluated => exact ⟨_, .print (same rfl evaluated), .running _ _ agree⟩
      | expression evaluated => exact ⟨_, .expression (same rfl evaluated), .running _ _ agree⟩
      | enterThen evaluated truthy =>
          exact ⟨_, .enterThen (same rfl evaluated) truthy, .running _ _ agree⟩
      | passThen evaluated falsy =>
          exact ⟨_, .passThen (same rfl evaluated) falsy, .running _ _ agree⟩
      | enterFirst evaluated truthy =>
          exact ⟨_, .enterFirst (same rfl evaluated) truthy, .running _ _ agree⟩
      | enterElse evaluated falsy =>
          exact ⟨_, .enterElse (same rfl evaluated) falsy, .running _ _ agree⟩
      | enterLoop evaluated truthy =>
          exact ⟨_, .enterLoop (same rfl evaluated) truthy, .running _ _ agree⟩
      | leaveLoop evaluated falsy =>
          exact ⟨_, .leaveLoop (same rfl evaluated) falsy, .running _ _ agree⟩

theorem Reaches.exists_matching {names : String → Prop} {first last first' : Progress}
    (reaches : Reaches first last) (matching : first.Matches names first')
    (known : ∀ name, first.pending.Reads name → names name) :
    ∃ last', Reaches first' last' ∧ last.Matches names last' := by
  induction reaches with
  | refl => exact ⟨first', .refl, matching⟩
  | @tail middle last before step ih =>
      obtain ⟨middle', before', matching⟩ := ih
      have stillKnown : ∀ name, middle.pending.Reads name → names name :=
        fun name ⟨statement, inside, reads⟩ =>
          known name ⟨statement, Reaches.blockStatements_subset before inside, reads⟩
      obtain ⟨last', step', matching⟩ := step.exists_matching matching stillKnown
      exact ⟨last', before'.tail step', matching⟩

/-! ## Whole programs -/

variable {program : Block} {first second : Environment} {output output' : Output}

/-- A name that does not occur in the program keeps its value in every run. -/
theorem Reaches.get?_of_not_mentions {environment after : Environment}
    {result : Except RuntimeError Unit} {printed : String}
    (reaches : Reaches (.running ⟨program, environment, ""⟩) (.halted result after printed))
    {name : String} (foreign : ¬program.Mentions name) : after.get? name = environment.get? name :=
  reaches.get?_environment fun assigned => foreign (.inr assigned)

/-- What one run comes to, the other does as well. -/
theorem RunsTo.exists_matching (agree : first.AgreesOn program.Mentions second)
    (neverFails : output.NeverFails) (neverFails' : output'.NeverFails) {ending : Ending}
    (runs : RunsTo program ⟨first, output⟩ ending) :
    ∃ result printed after after',
      ending = .ofResult result ⟨after, output.append printed⟩ ∧
      RunsTo program ⟨second, output'⟩ (.ofResult result ⟨after', output'.append printed⟩) ∧
      after.AgreesOn program.Mentions after' ∧
      ∀ name, ¬program.Mentions name →
        after.get? name = first.get? name ∧ after'.get? name = second.get? name := by
  obtain ⟨result, after, printed, same, reaches⟩ := runs.reaches neverFails
  obtain ⟨last, reaches', matching⟩ :=
    reaches.exists_matching (.running program "" agree) fun name reads => .inl reads
  cases matching with
  | @halted _ _ _ after' agree =>
      exact ⟨result, printed, after, after', same, reaches'.runsTo neverFails', agree,
        fun name foreign =>
          ⟨reaches.get?_of_not_mentions foreign, reaches'.get?_of_not_mentions foreign⟩⟩

/-- A program depends only on the names that it reads or assigns to, and changes no others.
Take two environments that agree on these names, and outputs that never fail.  The program
comes to an end in both or in neither.  If it does, both runs have the same result and have
printed the same text, the environments still agree on the names in the program, and every
other name has in each of them the value that it had before. -/
theorem runsTo_of_agreesOn_mentions (agree : first.AgreesOn program.Mentions second)
    (neverFails : output.NeverFails) (neverFails' : output'.NeverFails) :
    ((∃ ending, RunsTo program ⟨first, output⟩ ending) ↔
      ∃ ending, RunsTo program ⟨second, output'⟩ ending) ∧
    ∀ ending ending', RunsTo program ⟨first, output⟩ ending →
      RunsTo program ⟨second, output'⟩ ending' →
      ∃ result printed after after',
        ending = .ofResult result ⟨after, output.append printed⟩ ∧
        ending' = .ofResult result ⟨after', output'.append printed⟩ ∧
        after.AgreesOn program.Mentions after' ∧
        ∀ name, ¬program.Mentions name →
          after.get? name = first.get? name ∧ after'.get? name = second.get? name := by
  refine ⟨⟨fun ⟨ending, runs⟩ => ?_, fun ⟨ending, runs⟩ => ?_⟩, fun ending ending' runs runs' => ?_⟩
  · obtain ⟨_, _, _, _, _, other, _⟩ := runs.exists_matching agree neverFails neverFails'
    exact ⟨_, other⟩
  · obtain ⟨_, _, _, _, _, other, _⟩ := runs.exists_matching agree.symm neverFails' neverFails
    exact ⟨_, other⟩
  · obtain ⟨result, printed, after, after', same, other, agreeAfter, kept⟩ :=
      runs.exists_matching agree neverFails neverFails'
    exact ⟨result, printed, after, after', same, runs'.unique other, agreeAfter, kept⟩

/-- A name that the countdown does not know makes no difference to it. -/
theorem countThenFail_runsTo_of_agreesOn :
    (Environment.empty.assign "n" (.int 2)).AgreesOn countThenFail.Mentions
        ((Environment.empty.assign "k" (.bool true)).assign "n" (.int 2)) ∧
      Output.unlimited.NeverFails ∧
      ∃ after, RunsTo countThenFail
          ⟨(Environment.empty.assign "k" (.bool true)).assign "n" (.int 2), .unlimited⟩
          (.failed (.undefinedVariable "missing") ⟨after, Output.unlimited.append "2\n1\n"⟩) ∧
        after.get? "k" = some (.bool true) := by
  have foreign : ¬countThenFail.Mentions "k" := by
    simp [Block.Mentions, Block.Reads, Block.Assigns, countThenFail, blockStatements,
      Stmt.statements, Stmt.subject]
  have agree : (Environment.empty.assign "n" (.int 2)).AgreesOn countThenFail.Mentions
      ((Environment.empty.assign "k" (.bool true)).assign "n" (.int 2)) := by
    intro name mentioned
    have other : "k" ≠ name := by
      rintro rfl
      exact foreign mentioned
    simp [other]
  have neverFails : Output.unlimited.NeverFails := ⟨rfl, rfl⟩
  obtain ⟨together, same⟩ := runsTo_of_agreesOn_mentions agree neverFails neverFails
  obtain ⟨ending', runs'⟩ := together.mp ⟨_, countThenFail_runsTo⟩
  obtain ⟨result, printed, after, after', equal, rfl, _, kept⟩ :=
    same _ _ countThenFail_runsTo runs'
  obtain ⟨rfl, rfl, rfl⟩ := Ending.ofResult_append_inj equal
  exact ⟨agree, neverFails, after', runs', (kept "k" foreign).2⟩

end WhileLang
