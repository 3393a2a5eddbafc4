import Mathlib
import WhileLang.Proofs.Semantics.Stepping

/-!
# A run stays inside its program

Whatever the stepping machine has still to do is part of the program that it was started
on, so every expression that is evaluated in a run, and every assignment that is made, is
one of the program.
-/

namespace WhileLang

/-- The statements that are still to be executed: none after a halt. -/
def Progress.pending : Progress → Block
  | .running configuration => configuration.pending
  | .halted _ _ _ => []

/-- A step puts nothing in front of the machine that was not there before. -/
theorem Step.blockStatements_subset {first next : Progress} (step : Step first next) :
    blockStatements next.pending ⊆ blockStatements first.pending := by
  intro statement
  cases step <;>
    simp only [Progress.pending, blockStatements, blockStatements_append, Stmt.statements,
      List.mem_append, List.mem_cons, List.not_mem_nil] <;>
    tauto

theorem Reaches.blockStatements_subset {first last : Progress} (reaches : Reaches first last) :
    blockStatements last.pending ⊆ blockStatements first.pending := by
  induction reaches with
  | refl => exact List.Subset.refl _
  | tail _ step ih => exact List.Subset.trans step.blockStatements_subset ih

/-- A step changes the value of a name only by an assignment to it. -/
theorem Step.get?_environment {first next : Progress} (step : Step first next) {name : String}
    (unassigned : ¬first.pending.Assigns name) :
    next.environment.get? name = first.environment.get? name := by
  cases step with
  | @assign other subject rest environment printed value evaluated =>
      have differs : other ≠ name := by
        rintro rfl
        exact unassigned ⟨subject, mem_blockStatements_cons _ rest⟩
      simp [Progress.environment, differs]
  | _ => rfl

/-- A name to which a program does not assign keeps its value, or remains unbound. -/
theorem Reaches.get?_environment {first last : Progress} (reaches : Reaches first last)
    {name : String} (unassigned : ¬first.pending.Assigns name) :
    last.environment.get? name = first.environment.get? name := by
  induction reaches with
  | refl => rfl
  | @tail middle last before step ih =>
      have stillUnassigned : ¬middle.pending.Assigns name := fun ⟨value, assigned⟩ =>
        unassigned ⟨value, Reaches.blockStatements_subset before assigned⟩
      exact (step.get?_environment stillUnassigned).trans ih

end WhileLang
