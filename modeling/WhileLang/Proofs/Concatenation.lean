import Mathlib
import WhileLang.Proofs.Lexical.Relocation
import WhileLang.Proofs.RoundTrip
import WhileLang.Proofs.Semantics.Sequence
import WhileLang.Proofs.Semantics.Stepping

/-!
# One source behind another

A source that is a program can be continued with another source on the next line.  The
tokens of both are cut as they are alone, also when the first text ends inside of a comment,
the first block is read up to the place where it would have ended, and the second one
behind it.  So the whole is the two programs one after the other, or it has the fault of
the second source, moved by the first, and it runs as the two programs do in turn.
-/

namespace WhileLang

/-- Two sources on separate lines. -/
def Source.followedBy (first second : Source) : Source :=
  { first with text := first.text ++ "\n" ++ second.text }

/-! ## Tokens -/

namespace Source

variable (first second : Source)

theorem toList_followedBy :
    (first.followedBy second).text.toList = first.text.toList ++ '\n' :: second.text.toList := by
  simp [followedBy]

theorem size_followedBy :
    (first.followedBy second).size = second.size + (first.size + 1) := by
  have newline : '\n'.utf8Size = 1 := rfl
  rw [size, toList_followedBy, utf8Length_append, utf8Length_cons, newline, size, size]
  omega

end Source

/-- The tokens of two sources are those of the first, without the end of the input, and
those of the second, moved. -/
theorem tokenize_followedBy {first : Source} {words : List Token} {mark : Nat}
    (lexes : Grammar.standard.tokenize first.text = .ok (words ++ [.endOfInput mark]))
    (second : Source) :
    Grammar.standard.tokenize (first.followedBy second).text =
      (relocateTokens (· + (first.size + 1)) (Grammar.standard.tokenize second.text)).map
        (words ++ ·) := by
  rcases Grammar.tokenize_eq_ok_iff.mp lexes with ⟨covered, words', read, same⟩
  obtain ⟨rfl, _⟩ := List.append_inj' same rfl
  obtain ⟨segments, cut⟩ : ∃ segments,
      Grammar.standard.segmentation first.text.toList = ⟨segments, []⟩ := ⟨_, by rw [← covered]⟩
  simp only [cut] at read
  have text : first.text.toList = segments.flatMap Segment.lexeme := by
    have spelling := Grammar.standard.spelling_segmentation first.text.toList
    rw [cut, Segmentation.spelling, List.append_nil] at spelling
    exact spelling.symm
  have size : segmentsSize segments = first.size := by
    rw [segmentsSize_eq_utf8Length, ← text, Source.size]
  have cutParts : Grammar.standard.segmentation (segments.flatMap Segment.lexeme ++ []) =
      ⟨segments ++ [], []⟩ := by
    rw [List.append_nil, List.append_nil, ← text, cut]
  have moved : Grammar.standard.rawTokensFrom second.text.toList (first.size + 1) =
      relocateTokens (· + (first.size + 1)) (Grammar.standard.rawTokens second.text) := by
    rw [Grammar.rawTokens_eq_rawTokensFrom]
    exact Grammar.standard.rawTokensFrom_relocate _ fun distance => by omega
  have newline : Grammar.standard.rawTokensFrom ('\n' :: second.text.toList) first.size =
      Grammar.standard.rawTokensFrom second.text.toList (first.size + 1) :=
    isSkipped_blank (c := '\n') rfl second.text.toList first.size
  have raw := (replaces_newline second.text.toList).rawTokensFrom cutParts 0
  rw [← text, ← Source.toList_followedBy, size, Nat.zero_add, newline, moved,
    ← Grammar.rawTokens_eq_rawTokensFrom] at raw
  rw [Grammar.tokenize, raw, Grammar.tokenize, ← relocateTokens_bind_readNumeral]
  cases relocateTokens (· + (first.size + 1)) (Grammar.standard.rawTokens second.text) with
  | error error => rfl
  | ok tokens =>
      simp only [Except.map, Except.bind, List.mapM_append, mapM_eq_ok_iff_forall₂.mpr read]
      cases tokens.mapM Token.readNumeral <;> rfl

/-! ## Blocks -/

/-- A block is read up to the place where it would have ended, and the rest behind it. -/
theorem SpellsBlock.block_append {tokens : List Token} {statements : Block}
    (isBlock : SpellsBlock tokens statements) {cursor next : Cursor} (regular : cursor.IsRegular)
    (passes : cursor.Passes tokens next) :
    Parser.block cursor = ((statements ++ ·) <$> Parser.block) next := by
  cases isBlock with
  | nil =>
      cases passes.eq_of_nil
      exact (congrFun (id_map Parser.block) cursor).symm
  | cons isStatement isRest =>
      obtain ⟨middle, passesFirst, passesRest⟩ := passes.split _
      have first := isStatement.statement?_eq _ _ regular passesFirst
      have rest := isRest.block_append (regular.of_passes passesFirst) passesRest
      conv => lhs; rw [Parser.block_eq, Parser.bind_apply, first]
      simp only [Parser.blockRest, Parser.bind_apply, rest, Parser.map_apply, Parser.pure_apply]
      cases Parser.block next <;> rfl

/-- A program behind a block is the rest of one program. -/
theorem SpellsBlock.program_append {tokens : List Token} {statements : Block}
    (isBlock : SpellsBlock tokens statements) {cursor next : Cursor} (regular : cursor.IsRegular)
    (passes : cursor.Passes tokens next) :
    Parser.program cursor = ((statements ++ ·) <$> Parser.program) next := by
  simp only [Parser.program, Parser.bind_apply, Parser.map_apply,
    isBlock.block_append regular passes]
  cases Parser.block next with
  | error error last => rfl
  | ok more last =>
      simp only [Parser.peek_apply, Parser.ite_apply, Parser.pure_apply, Parser.throw_apply]
      split <;> rfl

/-- Tokens behind a block are parsed as they are alone, moved. -/
theorem SpellsBlock.parseTokens_append {words tokens : List Token} {statements : Block}
    (isBlock : SpellsBlock words statements) (move : Nat → Nat) (endOffset : Nat)
    (regular : ∀ token ∈ words ++ tokens.map (Token.relocate move), token.IsRegular) :
    parseTokens (words ++ tokens.map (Token.relocate move)) (move endOffset) =
      ((parseTokens tokens endOffset).map (statements ++ ·)).mapError
        (SyntaxError.relocate move) := by
  have passes : (Cursor.ofTokens (words ++ tokens.map (Token.relocate move))
      (move endOffset)).Passes words
        ((Cursor.ofTokens tokens endOffset).relocate move words.length) :=
    ⟨rfl, by simp [Cursor.ofTokens, Cursor.relocate], rfl⟩
  have startRegular : (Cursor.ofTokens (words ++ tokens.map (Token.relocate move))
      (move endOffset)).IsRegular := regular
  have relocates : Parser.Relocates move words.length id Parser.program Parser.program :=
    Parser.relocates_program
  unfold parseTokens
  rw [isBlock.program_append startRegular passes, Parser.map_apply, relocates]
  cases Parser.program (Cursor.ofTokens tokens endOffset) <;> rfl

theorem Token.IsStandard.relocate {token : Token} (isStandard : token.IsStandard)
    (move : Nat → Nat) : (token.relocate move).IsStandard := by
  cases isStandard with
  | fixed value listed => exact .fixed value listed
  | name value isName isClass => exact .name value isName isClass
  | integer value nonnegative isClass => exact .integer value nonnegative isClass
  | float value isClass => exact .float value isClass

/-- Behind a program, a source has the outcome that it has alone, behind the statements of
the program, and moved. -/
theorem Source.parse_followedBy {first : Source} {program : Block}
    (parses : first.parse = .ok program) (second : Source) :
    (first.followedBy second).parse =
      (second.parse.map (program ++ ·)).mapError (Fault.relocate (· + (first.size + 1))) := by
  rcases Source.parse_eq_ok_iff.mp parses with ⟨_, lexes, parsesTokens⟩
  obtain ⟨words, mark, rfl, standard⟩ := Token.isStandard_of_tokenize lexes
  have isBlock := spellsBlock_of_parseTokens parsesTokens
    (fun token member => (standard token member).isRegular)
    (fun token member => (standard token member).isEnd_eq_false)
  unfold parse parseWith
  rw [tokenize_followedBy lexes, size_followedBy]
  cases lexesSecond : Grammar.standard.tokenize second.text with
  | error error => rfl
  | ok tokens =>
      have regular : ∀ token ∈ words ++ tokens.map (Token.relocate (· + (first.size + 1))),
          token.IsRegular := by
        obtain ⟨others, otherMark, rfl, otherStandard⟩ := Token.isStandard_of_tokenize lexesSecond
        intro token member
        simp only [List.map_append, List.mem_append, List.mem_map, List.mem_singleton] at member
        rcases member with inFirst | ⟨other, inSecond, rfl⟩ | ⟨_, rfl, rfl⟩
        · exact (standard token inFirst).isRegular
        · exact ((otherStandard other inSecond).relocate _).isRegular
        · exact .endOfInput _
      have together := isBlock.parseTokens_append (· + (first.size + 1)) second.size regular
      simp only [relocateTokens, Except.map, Except.mapError, together]
      cases parseTokens tokens second.size <;> rfl

/-! ## Faults -/

theorem newlinesBefore_append (before text : List Char) (offset : Nat) :
    newlinesBefore (offset + utf8Length before) (before ++ text) =
      before.count '\n' + newlinesBefore offset text := by
  induction before with
  | nil => simp
  | cons c before ih =>
      obtain ⟨size, total⟩ := Nat.exists_eq_succ_of_ne_zero
        (utf8Length_pos (List.cons_ne_nil c before)).ne'
      have behind : offset + size + 1 - c.utf8Size = offset + utf8Length before := by
        rw [utf8Length_cons] at total
        omega
      rw [total, List.cons_append, Nat.succ_eq_add_one, ← Nat.add_assoc, newlinesBefore, behind,
        ih, List.count_cons]
      by_cases isNewline : c = '\n'
      · simp only [isNewline, if_true, beq_self_eq_true]
        omega
      · simp [isNewline]

/-- The lines of the second source are counted on behind those of the first. -/
theorem Source.lineAt_followedBy (first second : Source) (offset : Nat) :
    (first.followedBy second).lineAt (offset + (first.size + 1)) =
      second.lineAt offset + (first.text.toList.count '\n' + 1) := by
  have front : first.size + 1 = utf8Length (first.text.toList ++ ['\n']) := by
    rw [utf8Length_append]
    rfl
  have parts : (first.followedBy second).text.toList =
      (first.text.toList ++ ['\n']) ++ second.text.toList := by
    rw [toList_followedBy, List.append_assoc, List.singleton_append]
  rw [lineAt, lineAt, parts, front, newlinesBefore_append, List.count_append,
    List.count_singleton_self]
  omega

/-- A fault of the second source as it is reported behind the first one: the same but for
its label and its line, which are as far behind as the first source reaches. -/
structure Fault.MovesBehind (first second : Source) (fault moved : Fault) : Prop where
  title : moved.title = fault.title
  code : moved.diagnostic.code = fault.diagnostic.code
  message : moved.diagnostic.message = fault.diagnostic.message
  help : moved.diagnostic.help? = fault.diagnostic.help?
  place : ∃ text span line,
    fault.diagnostic.labels = [⟨text, span⟩] ∧
      moved.diagnostic.labels = [⟨text, ⟨span.offset + (first.size + 1), span.length⟩⟩] ∧
      fault.line? second = some line ∧
      moved.line? (first.followedBy second) = some (line + (first.text.toList.count '\n' + 1))

/-- A fault that keeps a source from being a program has one label, at its place. -/
theorem Source.label_of_parse {source : Source} {fault : Fault}
    (fails : source.parse = .error fault) :
    ∃ text span, fault.diagnostic.labels = [⟨text, span⟩] ∧ fault.span? = some span := by
  unfold parse parseWith at fails
  split at fails
  next error _ =>
    cases fails
    cases error <;> exact ⟨_, _, rfl, rfl⟩
  next tokens _ =>
    split at fails
    next error _ =>
      cases fails
      cases error <;> exact ⟨_, _, rfl, rfl⟩
    next => cases fails

theorem Fault.movesBehind_relocate {first second : Source} {fault : Fault}
    (fails : second.parse = .error fault) :
    fault.MovesBehind first second (fault.relocate (· + (first.size + 1))) := by
  have report := fault.diagnostic_relocate (· + (first.size + 1))
  obtain ⟨text, span, label, place⟩ := Source.label_of_parse fails
  constructor
  case title => exact fault.title_relocate _
  case code => rw [report, Diagnostic.relocate]
  case message => rw [report, Diagnostic.relocate]
  case help => rw [report, Diagnostic.relocate]
  case place =>
    refine ⟨text, span, second.lineAt span.offset, label, ?_, ?_, ?_⟩
    · rw [report, Diagnostic.relocate, label]
      rfl
    · rw [line?, place, Option.map_some]
    · rw [line?, span?_relocate, place, Option.map_some, Option.map_some, Span.relocate,
        Source.lineAt_followedBy]

/-! ## Runs -/

/-- Two programs in one run in turn: the second on the machine that the first leaves, unless
the first fails. -/
theorem runsTo_append_iff {first second : Block} {machine : Machine} {ending : Ending}
    (neverFails : machine.output.NeverFails) :
    RunsTo (first ++ second) machine ending ↔
      (∃ middle, RunsTo first machine (.finished middle) ∧ RunsTo second middle ending) ∨
        ∃ error middle, RunsTo first machine (.failed error middle) ∧
          ending = .failed error middle := by
  simp only [runsTo_iff_execute neverFails]
  constructor
  · rintro ⟨done, steps, rfl⟩
    have parts := execute_append_of_isDone done
    cases executed : execute steps first machine with
    | finished middle =>
        rw [executed] at parts
        have stays := neverFails_of_finished neverFails executed
        exact .inl ⟨middle, ⟨rfl, steps, executed⟩,
          (runsTo_iff_execute stays).mpr ⟨done, steps, parts⟩⟩
    | failed error middle =>
        rw [executed] at parts
        exact .inr ⟨error, middle, ⟨rfl, steps, executed⟩, parts.symm⟩
    | outOfSteps middle =>
        rw [← parts, executed] at done
        cases done
  · rintro (⟨middle, ⟨_, steps, executed⟩, runs⟩ | ⟨error, middle, ⟨_, steps, executed⟩, rfl⟩)
    · have stays := neverFails_of_finished neverFails executed
      obtain ⟨done, more, further⟩ := (runsTo_iff_execute stays).mp runs
      have parts : (execute steps first machine).andThen (execute more second) = ending := by
        rw [executed]
        exact further
      exact ⟨done, steps + more, by rw [execute_add_append (by rwa [parts]), parts]⟩
    · have parts : (execute steps first machine).andThen (execute 0 second) =
          .failed error middle := by
        rw [executed]
        rfl
      exact ⟨rfl, steps + 0, by rw [execute_add_append (by rw [parts]; rfl), parts]⟩

/-- The source is a program that comes to an end of its own on the machine. -/
def Source.RunsTo (source : Source) (machine : Machine) (ending : Ending) : Prop :=
  ending.isDone ∧ ∃ steps, source.interpret steps machine = .ok ending

theorem Source.runsTo_iff {source : Source} {program : Block} {machine : Machine}
    {ending : Ending} (parses : source.parse = .ok program) :
    source.RunsTo machine ending ↔ WhileLang.RunsTo program machine ending := by
  simp only [RunsTo, WhileLang.RunsTo, interpret, parses, Except.map, Except.ok.injEq]

/-! ## Both together -/

/-- Sources can be concatenated.  Behind a program and a new line, a second program makes
the statements of both one program, which on an output that never fails runs as the two do
in turn.  A second source that is no program gives its fault to the whole, where only its
label and its line have moved, by the bytes and the lines before it. -/
theorem Source.parse_and_runsTo_followedBy {first : Source} {program : Block}
    (parses : first.parse = .ok program) (second : Source) :
    (∀ more, second.parse = .ok more →
      (first.followedBy second).parse = .ok (program ++ more) ∧
        ∀ machine ending, machine.output.NeverFails →
          ((first.followedBy second).RunsTo machine ending ↔
            (∃ middle, first.RunsTo machine (.finished middle) ∧ second.RunsTo middle ending) ∨
              ∃ error middle, first.RunsTo machine (.failed error middle) ∧
                ending = .failed error middle)) ∧
      ∀ fault, second.parse = .error fault → ∃ moved,
        (first.followedBy second).parse = .error moved ∧ fault.MovesBehind first second moved := by
  have together := parse_followedBy parses second
  constructor
  · intro more parsesSecond
    rw [parsesSecond] at together
    refine ⟨together, ?_⟩
    intro machine ending neverFails
    simp only [runsTo_iff together, runsTo_iff parses, runsTo_iff parsesSecond]
    exact runsTo_append_iff neverFails
  · intro fault fails
    rw [fails] at together
    exact ⟨_, together, Fault.movesBehind_relocate fails⟩

/-- A program that ends inside of a comment. -/
def openComment : Source where
  name := "first"
  text := "n := 1; # one"

/-- A program that reads what the program with the open comment has assigned. -/
def printing : Source where
  name := "second"
  text := "print n;"

/-- The same program without its end. -/
def unended : Source where
  name := "third"
  text := "print n"

/-- What follows the open comment is not lost in it. -/
theorem openComment_followedBy :
    openComment.parse = .ok [.assign "n" (.integer 1)] ∧
      (openComment.followedBy printing).parse =
        .ok [.assign "n" (.integer 1), .print (.var "n")] ∧
      (openComment.followedBy printing).RunsTo ⟨.empty, .unlimited⟩
        (.finished ⟨Environment.empty.assign "n" (.int 1), Output.unlimited.append "1\n"⟩) ∧
      ∃ fault moved, unended.parse = .error fault ∧
        (openComment.followedBy unended).parse = .error moved ∧
          fault.MovesBehind openComment unended moved := by
  have parses : openComment.parse = .ok [.assign "n" (.integer 1)] := by
    have lexes : Grammar.standard.tokenize openComment.text =
        .ok [nameToken "n" 0, signToken ":=" 0 2, ⟨integerClass, .int 1, ⟨5, 1⟩⟩,
          symbolToken ";" 6, .endOfInput 13] := by decide +kernel
    exact Source.parse_eq_ok_iff.mpr ⟨_, lexes, rfl⟩
  have parsesPrinting : printing.parse = .ok [.print (.var "n")] := by
    have lexes : Grammar.standard.tokenize printing.text =
        .ok [wordToken "print" 0, nameToken "n" 6, symbolToken ";" 7, .endOfInput 8] := by
      decide +kernel
    exact Source.parse_eq_ok_iff.mpr ⟨_, lexes, rfl⟩
  have fails : unended.parse =
      .error (.syntactic (.expected (.terminal (.reserved ";")) (.text "EOF") ⟨7, 0⟩)) := by
    have lexes : Grammar.standard.tokenize unended.text =
        .ok [wordToken "print" 0, nameToken "n" 6, .endOfInput 7] := by decide +kernel
    rw [Source.parse, Source.parseWith, lexes]
    rfl
  obtain ⟨whole, runs⟩ :=
    (Source.parse_and_runsTo_followedBy parses printing).1 _ parsesPrinting
  obtain ⟨moved, failsMoved, moves⟩ :=
    (Source.parse_and_runsTo_followedBy parses unended).2 _ fails
  have runsFirst : openComment.RunsTo ⟨.empty, .unlimited⟩
      (.finished ⟨Environment.empty.assign "n" (.int 1), .unlimited⟩) :=
    (Source.runsTo_iff parses).mpr ⟨rfl, 2, rfl⟩
  have runsSecond : printing.RunsTo ⟨Environment.empty.assign "n" (.int 1), .unlimited⟩
      (.finished ⟨Environment.empty.assign "n" (.int 1), Output.unlimited.append "1\n"⟩) :=
    (Source.runsTo_iff parsesPrinting).mpr ⟨rfl, 2, rfl⟩
  exact ⟨parses, whole, (runs _ _ ⟨rfl, rfl⟩).mpr (.inl ⟨_, runsFirst, runsSecond⟩), _, moved,
    fails, failsMoved, moves⟩

end WhileLang
