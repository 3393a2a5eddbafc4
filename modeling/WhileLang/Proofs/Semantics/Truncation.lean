import Mathlib
import WhileLang.Proofs.Decimal.Ascii
import WhileLang.Proofs.Semantics.Stepping

/-!
# Running on an output that fails

An output that takes only so many bytes cuts a run off, and does nothing else to it.  As
long as there is room, the run is that on an output without a limit.  The first line that
does not fit is taken as far as there is room, and the run fails there, in the environment
in which the line would have been printed.

The run without a limit is followed through the stepping machine.  Up to the line that does
not fit, what the machine steps through is executed on the limited output in the same way,
whatever blocks and loops the line stands in.
-/

namespace WhileLang

namespace Output

/-- An output that takes so many bytes. -/
def limitedTo (limit : Nat) : Output :=
  { unlimited with limit? := some limit }

/-- An output that takes everything and cannot be completed. -/
def withoutFlush : Output :=
  { unlimited with flushFails := true }

theorem takes_limitedTo_iff {limit : Nat} {text : String} :
    (limitedTo limit).Takes text ↔ text.utf8ByteSize ≤ limit := by
  simp [Takes, limitedTo, unlimited]

theorem takes_withoutFlush (text : String) : withoutFlush.Takes text := by
  simp [Takes, withoutFlush, unlimited]

/-- A text of single bytes that does not fit is taken up to the limit. -/
theorem write_limitedTo {limit : Nat} {printed text : String} (isAscii : IsAscii text.toList)
    (fits : printed.utf8ByteSize ≤ limit) (exceeds : limit < (printed ++ text).utf8ByteSize) :
    ∃ kept missing, text = kept ++ missing ∧ (printed ++ kept).utf8ByteSize = limit ∧
      ((limitedTo limit).append printed).write text =
        (.error .limitReached, (limitedTo limit).append (printed ++ kept)) := by
  rw [String.utf8ByteSize_append] at exceeds
  obtain ⟨room, rfl⟩ := Nat.exists_eq_add_of_le fits
  have size : text.utf8ByteSize = text.toList.length := by
    rw [← utf8Length_toList, isAscii.utf8Length_eq]
  have keptSize : (String.ofList (text.toList.take room)).utf8ByteSize = room := by
    rw [← utf8Length_eq_utf8ByteSize_ofList,
      (isAscii.of_sublist (List.take_sublist room _)).utf8Length_eq, List.length_take]
    omega
  refine ⟨String.ofList (text.toList.take room), String.ofList (text.toList.drop room), ?_, ?_, ?_⟩
  · rw [← String.ofList_append, List.take_append_drop, String.ofList_toList]
  · rw [String.utf8ByteSize_append, keptSize]
  · have full : ¬text.utf8ByteSize ≤ room := by omega
    simp [write, append, limitedTo, unlimited, full, isAscii.takeBytes_eq_take]

end Output

/-- A line that does not fit is printed up to the limit, and the output fails. -/
theorem Machine.print_limitedTo {limit : Nat} (environment : Environment) {printed : String}
    {value : Value} (fits : printed.utf8ByteSize ≤ limit)
    (exceeds : limit < (printed ++ (value.render ++ "\n")).utf8ByteSize) :
    ∃ kept missing, value.render ++ "\n" = kept ++ missing ∧
      (printed ++ kept).utf8ByteSize = limit ∧
      print ⟨environment, (Output.limitedTo limit).append printed⟩ value =
        .failed (.output .limitReached)
          ⟨environment, (Output.limitedTo limit).append (printed ++ kept)⟩ := by
  have isAscii : IsAscii (value.render ++ "\n").toList := by
    rw [String.toList_append]
    exact value.isAscii_render.append (by decide)
  obtain ⟨kept, missing, parts, size, written⟩ := Output.write_limitedTo isAscii fits exceeds
  exact ⟨kept, missing, parts, size, by rw [print, written]⟩

/-! ## The line that does not fit -/

/-- In the run of a program on an output without a limit, this is the place where it prints
the first line that ends behind so many bytes: what has been printed before does not. -/
def PrintsPast (program : Block) (environment : Environment) (limit : Nat)
    (place : Configuration) : Prop :=
  Reaches (.running ⟨program, environment, ""⟩) (.running place) ∧
    place.output.utf8ByteSize ≤ limit ∧
    ∃ subject rest value, place.pending = .print subject :: rest ∧
      subject.evaluate place.environment = .ok value ∧
      limit < (place.output ++ (value.render ++ "\n")).utf8ByteSize

/-- A run that prints more than so many bytes prints some line across them. -/
theorem Reaches.exists_print {limit : Nat} {first last : Progress} (reaches : Reaches first last)
    (fits : first.output.utf8ByteSize ≤ limit) (exceeds : limit < last.output.utf8ByteSize) :
    ∃ subject rest environment printed value,
      Reaches first (.running ⟨.print subject :: rest, environment, printed⟩) ∧
        subject.evaluate environment = .ok value ∧ printed.utf8ByteSize ≤ limit ∧
          limit < (printed ++ (value.render ++ "\n")).utf8ByteSize ∧
            Reaches (.running ⟨rest, environment, printed ++ (value.render ++ "\n")⟩) last := by
  induction reaches using Relation.ReflTransGen.head_induction_on with
  | refl => exact absurd fits (Nat.not_le.mpr exceeds)
  | @head first middle step further ih =>
      rcases Nat.lt_or_ge limit middle.output.utf8ByteSize with crosses | stays
      · -- Only a print statement makes the text longer.
        cases step with
        | print evaluated =>
            exact ⟨_, _, _, _, _, .refl, evaluated, fits, crosses, further⟩
        | _ => exact absurd fits (Nat.not_le.mpr crosses)
      · obtain ⟨subject, rest, environment, printed, value, before, others⟩ := ih stays
        exact ⟨subject, rest, environment, printed, value, before.head step, others⟩

/-- Once the line is printed, more than so many bytes have been printed for good. -/
theorem PrintsPast.eq_of_reaches {program : Block} {environment : Environment} {limit : Nat}
    {place other : Configuration} (crosses : PrintsPast program environment limit place)
    (fits : other.output.utf8ByteSize ≤ limit)
    (reaches : Reaches (.running place) (.running other)) : other = place := by
  obtain ⟨_, _, subject, rest, value, pending, evaluated, exceeds⟩ := crosses
  rcases place with ⟨_, current, printed⟩
  cases pending
  cases reaches using Relation.ReflTransGen.head_induction_on with
  | refl => rfl
  | head step further =>
      obtain rfl := step.unique (.print evaluated)
      obtain ⟨more, same⟩ := Reaches.exists_output_eq further
      have longer : (printed ++ (value.render ++ "\n")).utf8ByteSize ≤
          other.output.utf8ByteSize := by
        have size := congrArg String.utf8ByteSize same
        rw [String.utf8ByteSize_append] at size
        exact Nat.le.intro size.symm
      exact absurd (Nat.lt_of_lt_of_le exceeds longer) (Nat.not_lt.mpr fits)

/-- There is only one such place. -/
theorem PrintsPast.unique {program : Block} {environment : Environment} {limit : Nat}
    {place other : Configuration} (crosses : PrintsPast program environment limit place)
    (crosses' : PrintsPast program environment limit other) : other = place := by
  have unique : Relator.RightUnique Step := fun _ _ _ => Step.unique
  rcases Relation.ReflTransGen.total_of_right_unique unique crosses.1 crosses'.1 with
    later | earlier
  · exact crosses.eq_of_reaches crosses'.2.1 later
  · exact (crosses'.eq_of_reaches crosses.2.1 earlier).symm

/-! ## Both runs -/

/-- A limited output that has no room for the text fails at the line that does not fit. -/
theorem Reaches.exists_execute_limitedTo {program : Block} {environment after : Environment}
    {result : Except RuntimeError Unit} {printed : String} {limit : Nat}
    (reaches : Reaches (.running ⟨program, environment, ""⟩) (.halted result after printed))
    (exceeds : limit < printed.utf8ByteSize) :
    ∃ place kept missing, PrintsPast program environment limit place ∧
      printed = kept ++ missing ∧ kept.utf8ByteSize = limit ∧
        ∃ steps, execute steps program ⟨environment, .limitedTo limit⟩ =
          .failed (.output .limitReached)
            ⟨place.environment, (Output.limitedTo limit).append kept⟩ := by
  obtain ⟨subject, rest, current, before, value, toPlace, evaluated, fits, crosses, further⟩ :=
    reaches.exists_print (Nat.zero_le limit) exceeds
  obtain ⟨kept, missing, parts, size, failed⟩ :=
    Machine.print_limitedTo current fits crosses
  obtain ⟨others, whole⟩ := further.exists_output_eq
  have place : PrintsPast program environment limit ⟨.print subject :: rest, current, before⟩ :=
    ⟨toPlace, fits, subject, rest, value, rfl, evaluated, crosses⟩
  have split : printed = (before ++ kept) ++ (missing ++ others) := by
    calc
      printed = before ++ (value.render ++ "\n") ++ others := whole
      _ = before ++ (kept ++ missing) ++ others := by rw [parts]
      _ = (before ++ kept) ++ (missing ++ others) := by simp only [String.append_assoc]
  -- At the place itself nested execution fails, and up to the place there is room.
  have comes : Progress.ComesTo (.limitedTo limit)
      (.failed (.output .limitReached) ⟨current, (Output.limitedTo limit).append (before ++ kept)⟩)
      (.running ⟨.print subject :: rest, current, before⟩) := by
    refine ⟨1, ?_⟩
    simp only [execute, Machine.withValue, evaluated, failed]
    rfl
  obtain ⟨steps, executed⟩ := toPlace.comesTo (Output.takes_limitedTo_iff.mpr fits) rfl comes
  exact ⟨_, before ++ kept, missing ++ others, place, split, size, steps, by simpa using executed⟩

/-! ## Whole programs -/

/-- A program is executed before its output is completed. -/
theorem RunsTo.of_execute {program : Block} {machine : Machine} {ending : Ending}
    (done : ending.isDone) (executed : ∃ steps, execute steps program machine = ending) :
    RunsTo program machine (ending.andThen Machine.flush) := by
  obtain ⟨steps, rfl⟩ := executed
  refine ⟨?_, steps, rfl⟩
  cases execution : execute steps program machine with
  | finished after =>
      simp only [Ending.andThen, Machine.flush]
      split <;> rfl
  | failed error after => rfl
  | outOfSteps after => simp [execution, Ending.isDone] at done

/-- An output that fails changes nothing of a run but its end.  Take a run on an output
without a limit.  If all that it prints fits into a limit, the run on the limited output has
the same result, the same text and the same environment.  If not, there is a first line that
does not fit; the limited output has taken the text up to the limit, and the run has failed
in the environment in which that line would have been printed.  An output that cannot be
completed only makes a run fail that would have succeeded, and nothing is lost of the text
or of the environment. -/
theorem runsTo_failing_output {program : Block} {environment after : Environment}
    {result : Except RuntimeError Unit} {printed : String}
    (runs : RunsTo program ⟨environment, .unlimited⟩
      (.ofResult result ⟨after, Output.unlimited.append printed⟩)) :
    (∀ limit, printed.utf8ByteSize ≤ limit →
      RunsTo program ⟨environment, .limitedTo limit⟩
        (.ofResult result ⟨after, (Output.limitedTo limit).append printed⟩)) ∧
    (∀ limit, limit < printed.utf8ByteSize →
      ∃ place, PrintsPast program environment limit place ∧
        (∀ other, PrintsPast program environment limit other → other = place) ∧
        ∃ kept missing, printed = kept ++ missing ∧ kept.utf8ByteSize = limit ∧
          RunsTo program ⟨environment, .limitedTo limit⟩
            (.failed (.output .limitReached)
              ⟨place.environment, (Output.limitedTo limit).append kept⟩)) ∧
    (result = .ok () →
      RunsTo program ⟨environment, .withoutFlush⟩
        (.failed (.output .flushFailed) ⟨after, Output.withoutFlush.append printed⟩)) ∧
    ∀ error, result = .error error →
      RunsTo program ⟨environment, .withoutFlush⟩
        (.failed error ⟨after, Output.withoutFlush.append printed⟩) := by
  have reaches := runs.reaches_halted ⟨rfl, rfl⟩
  have completed := RunsTo.of_execute (Ending.isDone_ofResult _ _)
    (reaches.exists_execute (Output.takes_withoutFlush printed))
  refine ⟨fun limit fits => ?_, fun limit exceeds => ?_, ?_, ?_⟩
  · have executed := RunsTo.of_execute (Ending.isDone_ofResult _ _)
      (reaches.exists_execute (Output.takes_limitedTo_iff.mpr fits))
    rcases result with error | ⟨⟩ <;> exact executed
  · obtain ⟨place, kept, missing, crosses, split, size, executed⟩ :=
      reaches.exists_execute_limitedTo exceeds
    exact ⟨place, crosses, fun other => crosses.unique, kept, missing, split, size,
      .of_execute rfl executed⟩
  · rintro rfl
    exact completed
  · rintro error rfl
    exact completed

/-- The countdown is cut off in the middle of its second line, before it comes to the
error, in the environment of the second round; without a flush it has that error of its
own. -/
theorem runsTo_countThenFail_failing_output :
    RunsTo countThenFail ⟨Environment.empty.assign "n" (.int 2), .unlimited⟩
        (.failed (.undefinedVariable "missing")
          ⟨((Environment.empty.assign "n" (.int 2)).assign "n" (.int 1)).assign "n" (.int 0),
            Output.unlimited.append "2\n1\n"⟩) ∧
      (∃ kept missing, "2\n1\n" = kept ++ missing ∧ kept.utf8ByteSize = 3 ∧
        RunsTo countThenFail ⟨Environment.empty.assign "n" (.int 2), .limitedTo 3⟩
          (.failed (.output .limitReached)
            ⟨(Environment.empty.assign "n" (.int 2)).assign "n" (.int 1),
              (Output.limitedTo 3).append kept⟩)) ∧
      RunsTo countThenFail ⟨Environment.empty.assign "n" (.int 2), .withoutFlush⟩
        (.failed (.undefinedVariable "missing")
          ⟨((Environment.empty.assign "n" (.int 2)).assign "n" (.int 1)).assign "n" (.int 0),
            Output.withoutFlush.append "2\n1\n"⟩) := by
  obtain ⟨_, cutOff, _, ownError⟩ := runsTo_failing_output countThenFail_runsTo
  obtain ⟨place, crosses, only, kept, missing, split, size, failed⟩ := cutOff 3 (by decide)
  obtain ⟨rest, toSecondRound⟩ : ∃ rest,
      Reaches (.running ⟨countThenFail, Environment.empty.assign "n" (.int 2), ""⟩)
        (.running ⟨.print (.var "n") :: rest,
          (Environment.empty.assign "n" (.int 2)).assign "n" (.int 1), "2\n"⟩) :=
    ⟨_, .head (.enterLoop rfl rfl) (.head (.print rfl) (.head (.assign rfl)
      (.head (.passThen rfl rfl) (.single (.enterLoop rfl rfl)))))⟩
  have secondRound := congrArg Configuration.environment (only _ ⟨toSecondRound,
    by simp only; decide, .var "n", rest, .int 1, rfl, rfl, by simp only; decide⟩)
  rw [← secondRound] at failed
  exact ⟨countThenFail_runsTo, ⟨kept, missing, split, size, failed⟩, ownError _ rfl⟩

end WhileLang
