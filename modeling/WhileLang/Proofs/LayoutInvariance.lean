import Mathlib
import WhileLang.Proofs.Lexical.Relocation
import WhileLang.Proofs.Parsing.Acceptance

/-!
# Layout does not change a program

White space and comments can be put in wherever a lexeme begins or ends, and the source
stays the same program, or keeps its fault, which then says the same of the same piece of
text in another place.  Neither glued lexemes nor open comments are an exception: a boundary
is any place at which the lexer tries its rules, also inside of a word such as `1abc`, and
the end of the text is one although a comment can reach it.
-/

namespace WhileLang

/-! ## Putting text in -/

/-- A text with another one put in at a byte offset. -/
def insertAt (inset : List Char) : Nat → List Char → List Char
  | 0, text => inset ++ text
  | _ + 1, [] => inset
  | offset + 1, c :: rest => c :: insertAt inset (offset + 1 - c.utf8Size) rest

theorem insertAt_utf8Length (inset before after : List Char) :
    insertAt inset (utf8Length before) (before ++ after) = before ++ (inset ++ after) := by
  induction before with
  | nil => cases after <;> rfl
  | cons c before ih =>
      obtain ⟨size, total⟩ := Nat.exists_eq_succ_of_ne_zero
        (utf8Length_pos (List.cons_ne_nil c before)).ne'
      have behind : size + 1 - c.utf8Size = utf8Length before := by
        rw [← Nat.succ_eq_add_one, ← total, utf8Length_cons, Nat.add_sub_cancel_left]
      rw [total, List.cons_append, insertAt, behind, ih, List.cons_append]

/-- A source with a text put in at a byte offset. -/
def Source.insert (source : Source) (offset : Nat) (inset : List Char) : Source :=
  { source with text := String.ofList (insertAt inset offset source.text.toList) }

/-- Where a place is when so many bytes have been put in at an offset. -/
def makeRoom (offset size : Nat) (place : Nat) : Nat :=
  if place < offset then place else place + size

theorem makeRoom_of_lt {offset place : Nat} (before : place < offset) (size : Nat) :
    makeRoom offset size place = place :=
  if_pos before

theorem makeRoom_of_le {offset place : Nat} (behind : offset ≤ place) (size : Nat) :
    makeRoom offset size place = place + size :=
  if_neg (Nat.not_lt.mpr behind)

/-! ## Boundaries of lexemes -/

/-- A byte offset at which a text begins or ends or at which the lexer looks for a lexeme,
behind some of the segments of the text. -/
inductive Grammar.IsBoundary (grammar : Grammar) (text : String) : Nat → Prop
  | start : IsBoundary grammar text 0
  | finish : IsBoundary grammar text text.utf8ByteSize
  | attempt {segments others : List Segment}
      (cut : (grammar.segmentation text.toList).segments = segments ++ others) :
      IsBoundary grammar text (segmentsSize segments)

/-- The lexer is stuck where no rule matches. -/
theorem Grammar.segment?_stuck (grammar : Grammar) (input : List Char) :
    grammar.segment? (grammar.segmentation input).stuck = none := by
  induction input using grammar.segmentation_induction with
  | stuck input noMatch => rwa [segmentation_of_segment?_eq_none noMatch]
  | cut input segment found ih => rwa [segmentation_of_segment?_eq_some found]

/-- Some of the segments of a text spell its beginning. -/
theorem Grammar.exists_append_of_segments {grammar : Grammar} {text : List Char}
    {segments others : List Segment}
    (cut : (grammar.segmentation text).segments = segments ++ others) :
    ∃ after, text = segments.flatMap Segment.lexeme ++ after := by
  have spelling := grammar.spelling_segmentation text
  rw [Segmentation.spelling, cut, List.flatMap_append, List.append_assoc] at spelling
  exact ⟨_, spelling.symm⟩

/-- A boundary lies between two segments, or at the end of the part where the lexer is
stuck. -/
theorem Grammar.IsBoundary.cases_segments {grammar : Grammar} {text : String} {offset : Nat}
    (isBoundary : grammar.IsBoundary text offset) :
    (∃ segments others, (grammar.segmentation text.toList).segments = segments ++ others ∧
      offset = segmentsSize segments) ∨
    (grammar.segmentation text.toList).stuck ≠ [] ∧ offset = text.utf8ByteSize := by
  cases isBoundary with
  | start => exact .inl ⟨[], _, rfl, rfl⟩
  | attempt cut => exact .inl ⟨_, _, cut, rfl⟩
  | finish =>
      by_cases covered : (grammar.segmentation text.toList).stuck = []
      · have spelling := grammar.spelling_segmentation text.toList
        rw [Segmentation.spelling, covered, List.append_nil] at spelling
        refine .inl ⟨_, [], (List.append_nil _).symm, ?_⟩
        rw [segmentsSize_eq_utf8Length, spelling, utf8Length_toList]
      · exact .inr ⟨covered, rfl⟩

/-! ## Tokens around an inset -/

theorem relocateTokens_map_append (move : Nat → Nat) (front : List Token)
    (outcome : Except LexError (List Token)) :
    relocateTokens move (outcome.map (front ++ ·)) =
      (relocateTokens move outcome).map (front.map (Token.relocate move) ++ ·) := by
  cases outcome with
  | error error => rfl
  | ok tokens => simp [relocateTokens, Except.map, Except.mapError]

/-- Tokens before an inset stay in their places. -/
theorem placeTokens_makeRoom {segments : List Segment}
    (notEmpty : ∀ segment ∈ segments, segment.lexeme ≠ []) {offset : Nat}
    (within : segmentsSize segments ≤ offset) (size : Nat) :
    (placeTokens segments 0).map (Token.relocate (makeRoom offset size)) =
      placeTokens segments 0 := by
  refine placeTokens_relocate notEmpty ?_
  intro distance bounded
  rw [Nat.zero_add]
  exact makeRoom_of_lt (Nat.lt_of_lt_of_le bounded within) size

variable {text : List Char} {trivia : List Char}

/-- Trivia between two segments. -/
theorem rawTokensFrom_insertAt_attempt {segments others : List Segment}
    (isTrivia : IsTrivia trivia)
    (cut : (Grammar.standard.segmentation text).segments = segments ++ others) :
    Grammar.standard.rawTokensFrom (insertAt trivia (segmentsSize segments) text) 0 =
      relocateTokens (makeRoom (segmentsSize segments) (utf8Length trivia))
        (Grammar.standard.rawTokensFrom text 0) := by
  obtain ⟨after, parts⟩ := Grammar.exists_append_of_segments cut
  have cutParts : Grammar.standard.segmentation (segments.flatMap Segment.lexeme ++ after) =
      ⟨segments ++ others, (Grammar.standard.segmentation text).stuck⟩ := by
    rw [← parts, ← cut]
  have notEmpty : ∀ segment ∈ segments, segment.lexeme ≠ [] := by
    intro segment member
    exact Grammar.lexeme_ne_nil_of_mem segment (cut ▸ List.mem_append_left others member)
  have moves : ∀ distance,
      makeRoom (segmentsSize segments) (utf8Length trivia) (segmentsSize segments + distance) =
        segmentsSize segments + utf8Length trivia + distance := by
    intro distance
    rw [makeRoom_of_le (Nat.le_add_right _ _), Nat.add_right_comm]
  have inserted : insertAt trivia (segmentsSize segments) text =
      segments.flatMap Segment.lexeme ++ (trivia ++ after) := by
    rw [parts, segmentsSize_eq_utf8Length, insertAt_utf8Length]
  have plain := (replaces_self after).rawTokensFrom cutParts 0
  have spaced := (isTrivia.replaces after).rawTokensFrom cutParts 0
  rw [inserted, spaced, isTrivia.isSkipped, parts, plain, relocateTokens_map_append,
    placeTokens_makeRoom notEmpty (Nat.le_refl _), Nat.zero_add,
    Grammar.rawTokensFrom_relocate Grammar.standard after moves]

/-- Trivia at the end of a text in which the lexer is stuck. -/
theorem rawTokensFrom_insertAt_finish (isTrivia : IsTrivia trivia)
    (notCovered : (Grammar.standard.segmentation text).stuck ≠ []) :
    Grammar.standard.rawTokensFrom (insertAt trivia (utf8Length text) text) 0 =
      relocateTokens (makeRoom (utf8Length text) (utf8Length trivia))
        (Grammar.standard.rawTokensFrom text 0) := by
  have noMatch := Grammar.standard.segment?_stuck text
  obtain ⟨segments, stuck, cut⟩ :
      ∃ segments stuck, Grammar.standard.segmentation text = ⟨segments, stuck⟩ := ⟨_, _, rfl⟩
  simp only [cut] at notCovered noMatch
  have parts : text = segments.flatMap Segment.lexeme ++ stuck := by
    have spelling := Grammar.standard.spelling_segmentation text
    rw [cut] at spelling
    exact spelling.symm
  have cutParts : Grammar.standard.segmentation (segments.flatMap Segment.lexeme ++ stuck) =
      ⟨segments ++ [], stuck⟩ := by
    rw [← parts, cut, List.append_nil]
  have inserted : insertAt trivia (utf8Length text) text =
      segments.flatMap Segment.lexeme ++ (stuck ++ trivia) := by
    have atEnd := insertAt_utf8Length trivia text []
    rw [List.append_nil, List.append_nil] at atEnd
    rw [atEnd, ← List.append_assoc, ← parts]
  have plain := (replaces_self stuck).rawTokensFrom cutParts 0
  have spaced := (isTrivia.replaces_stuck noMatch notCovered).rawTokensFrom cutParts 0
  rw [Grammar.rawTokensFrom_of_segment?_eq_none noMatch, ← parts] at plain
  rw [Grammar.rawTokensFrom_of_segment?_eq_none
    (isTrivia.segment?_stuck_append noMatch notCovered)] at spaced
  have stays : makeRoom (utf8Length text) (utf8Length trivia) (segmentsSize segments) =
      segmentsSize segments := by
    refine makeRoom_of_lt ?_ _
    rw [parts, utf8Length_append, segmentsSize_eq_utf8Length]
    exact Nat.lt_add_of_pos_right (utf8Length_pos notCovered)
  rw [inserted, spaced, plain]
  -- The error is at the same character, before the trivia.
  obtain ⟨c, rest, rfl⟩ := List.exists_cons_of_ne_nil notCovered
  simp [lastItem, relocateTokens, Except.map, Except.mapError, LexError.relocate,
    Span.relocate, stays]

/-- Trivia at a boundary moves the tokens behind it, and nothing else. -/
theorem rawTokens_insert {source : Source} {offset : Nat}
    (isBoundary : Grammar.standard.IsBoundary source.text offset) (isTrivia : IsTrivia trivia) :
    Grammar.standard.rawTokens (source.insert offset trivia).text =
      relocateTokens (makeRoom offset (utf8Length trivia))
        (Grammar.standard.rawTokens source.text) := by
  rw [Grammar.rawTokens_eq_rawTokensFrom, Grammar.rawTokens_eq_rawTokensFrom, Source.insert,
    String.toList_ofList]
  rcases isBoundary.cases_segments with ⟨segments, others, cut, rfl⟩ | ⟨notCovered, rfl⟩
  · exact rawTokensFrom_insertAt_attempt isTrivia cut
  · rw [← utf8Length_toList]
    exact rawTokensFrom_insertAt_finish isTrivia notCovered

/-! ## Programs -/

/-- A boundary is a place between two characters. -/
theorem Grammar.IsBoundary.exists_continuesAt {grammar : Grammar} {text : String} {offset : Nat}
    (isBoundary : grammar.IsBoundary text offset) : ∃ rest, ContinuesAt text offset rest := by
  rcases isBoundary.cases_segments with ⟨segments, others, cut, rfl⟩ | ⟨_, rfl⟩
  · obtain ⟨after, parts⟩ := exists_append_of_segments cut
    exact ⟨after, _, parts, (segmentsSize_eq_utf8Length segments).symm⟩
  · exact ⟨[], text.toList, (List.append_nil _).symm, utf8Length_toList text⟩

theorem utf8Length_insertAt (inset : List Char) (offset : Nat) (text : List Char) :
    utf8Length (insertAt inset offset text) = utf8Length text + utf8Length inset := by
  induction text generalizing offset with
  | nil => cases offset <;> simp [insertAt]
  | cons c rest ih =>
      cases offset with
      | zero => simp [insertAt, Nat.add_comm]
      | succ offset => simp [insertAt, ih, Nat.add_assoc]

theorem Source.size_insert {source : Source} {offset : Nat}
    (isBoundary : Grammar.standard.IsBoundary source.text offset) (inset : List Char) :
    (source.insert offset inset).size = makeRoom offset (utf8Length inset) source.size := by
  obtain ⟨rest, continues⟩ := isBoundary.exists_continuesAt
  have within : offset ≤ source.size := by
    rw [size, utf8Length_toList, ← continues.add_eq_size]
    exact Nat.le_add_right _ _
  rw [makeRoom_of_le within, size, insert, String.toList_ofList, utf8Length_insertAt, size]

/-- With trivia put in at a boundary a source has the outcome that it had, but for places. -/
theorem Source.parse_insert {source : Source} {offset : Nat}
    (isBoundary : Grammar.standard.IsBoundary source.text offset) (isTrivia : IsTrivia trivia) :
    (source.insert offset trivia).parse =
      source.parse.mapError (Fault.relocate (makeRoom offset (utf8Length trivia))) := by
  refine parseWith_relocate ?_ (source.size_insert isBoundary trivia)
  rw [Grammar.tokenize, rawTokens_insert isBoundary isTrivia, Grammar.tokenize]
  exact relocateTokens_bind_readNumeral _

/-- Layout does not change a program.  When white space and comments are put in at any
boundary of lexemes, the source is a program exactly if it was one, and the same one.  A
source that is no program keeps its fault: it is of the same sort, about the same character
if it was about one, and its report differs only in places, which move with the text behind
the boundary. -/
theorem Source.parse_insert_trivia {source : Source} {offset : Nat}
    (isBoundary : Grammar.standard.IsBoundary source.text offset) (isTrivia : IsTrivia trivia) :
    (∀ program, (source.insert offset trivia).parse = .ok program ↔
        source.parse = .ok program) ∧
      ∀ fault, source.parse = .error fault → ∃ moved,
        (source.insert offset trivia).parse = .error moved ∧
          moved.title = fault.title ∧
          moved.diagnostic.code = fault.diagnostic.code ∧
          moved.diagnostic.message = fault.diagnostic.message ∧
          moved.diagnostic =
            fault.diagnostic.relocate (makeRoom offset (utf8Length trivia)) ∧
          ∀ character span, fault = .lexical (.invalidCharacter character span) →
            ∃ newSpan, moved = .lexical (.invalidCharacter character newSpan) := by
  rw [parse_insert isBoundary isTrivia]
  constructor
  · intro program
    cases source.parse <;> simp [Except.mapError]
  · intro fault fails
    have report := Fault.diagnostic_relocate (makeRoom offset (utf8Length trivia)) fault
    refine ⟨fault.relocate _, by rw [fails]; rfl, Fault.title_relocate _ fault, ?_, ?_, report, ?_⟩
    · rw [report, Diagnostic.relocate]
    · rw [report, Diagnostic.relocate]
    · rintro character span rfl
      exact ⟨_, rfl⟩

/-- A name that is glued to a numeral, where no operator is. -/
def gluedName : Source where
  name := "glued"
  text := "print 1abc;"

/-- Taking the name and the numeral apart does not mend the error. -/
theorem gluedName_insert_comment :
    Grammar.standard.IsBoundary gluedName.text 7 ∧ IsTrivia ('\t' :: ('#' :: ['!'] ++ ['\n'])) ∧
      ∃ moved, (gluedName.insert 7 ('\t' :: ('#' :: ['!'] ++ ['\n']))).parse = .error moved ∧
        moved.title = "SyntaxError" ∧ moved.diagnostic.message = "expecting ; found abc" ∧
          moved.diagnostic.labels = [⟨"here", ⟨11, 3⟩⟩] := by
  have size : segmentsSize
      ((Grammar.standard.segmentation gluedName.text.toList).segments.take 3) = 7 := by
    decide +kernel
  have isBoundary : Grammar.standard.IsBoundary gluedName.text 7 :=
    size ▸ .attempt (List.take_append_drop 3 _).symm
  have isTrivia : IsTrivia ('\t' :: ('#' :: ['!'] ++ ['\n'])) :=
    .blank rfl (.comment (by decide) .nil)
  have lexes : Grammar.standard.tokenize gluedName.text =
      .ok [wordToken "print" 0, ⟨integerClass, .int 1, ⟨6, 1⟩⟩, nameToken "abc" 7,
        symbolToken ";" 10, .endOfInput 11] := by decide +kernel
  have fails : gluedName.parse =
      .error (.syntactic (.expected (.terminal (.reserved ";")) (.text "abc") ⟨7, 3⟩)) := by
    rw [Source.parse, Source.parseWith, lexes]
    rfl
  obtain ⟨moved, parses, title, _, message, report, _⟩ :=
    (Source.parse_insert_trivia isBoundary isTrivia).2 _ fails
  exact ⟨isBoundary, isTrivia, moved, parses, title, message, congrArg Diagnostic.labels report⟩

end WhileLang
