import Mathlib
import WhileLang.Proofs.Lexical.Lookahead
import WhileLang.Proofs.Lexical.Stream

/-!
# White space and comments between lexemes

White space and comments leave no token, and a lexeme ends before them at the latest.  So
where one lexeme ends and the next begins, any amount of them can be put in or left out:
what stands before the place is cut as before, and what stands behind it too.

The place can lie inside of a run of white space, or behind a comment that the end of the
text cuts off.  Then the segment before it grows, but whatever it takes in is skipped in any
case.
-/

namespace WhileLang

/-! ## Tokens from an offset on -/

namespace Grammar

/-- The tokens of a text that begins at a byte offset, the end of the input last. -/
def rawTokensFrom (grammar : Grammar) (input : List Char) (offset : Nat) :
    Except LexError (List Token) :=
  let cut := grammar.segmentation input
  (lastItem cut.stuck (offset + segmentsSize cut.segments)).map fun last =>
    placeTokens cut.segments offset ++ [last]

theorem rawTokens_eq_rawTokensFrom (grammar : Grammar) (text : String) :
    grammar.rawTokens text = grammar.rawTokensFrom text.toList 0 := by
  simp only [rawTokens, rawTokensFrom, Nat.zero_add]

theorem rawTokensFrom_of_segment?_eq_none {grammar : Grammar} {input : List Char}
    (stuck : grammar.segment? input = none) (offset : Nat) :
    grammar.rawTokensFrom input offset = (lastItem input offset).map fun last => [last] := by
  simp [rawTokensFrom, segmentation_of_segment?_eq_none stuck, placeTokens]

theorem rawTokensFrom_of_segment?_eq_some {grammar : Grammar} {segment : Segment}
    {input rest : List Char} (found : grammar.segment? input = some segment)
    (parts : input = segment.lexeme ++ rest) (offset : Nat) :
    grammar.rawTokensFrom input offset =
      (grammar.rawTokensFrom rest (offset + segment.size)).map
        ((segment.token? offset).toList ++ ·) := by
  have cut := segmentation_of_segment?_eq_some found
  rw [parts, List.drop_left] at cut
  rw [parts]
  simp only [rawTokensFrom, cut, Segmentation.cons, segmentsSize_cons, placeTokens, Nat.add_assoc]
  cases lastItem (grammar.segmentation rest).stuck
      (offset + (segment.size + segmentsSize (grammar.segmentation rest).segments)) with
  | error error => rfl
  | ok last => simp [Except.map]

end Grammar

/-! ## What is skipped -/

/-- Before `rest`, the text `gap` does nothing but take up room. -/
def IsSkipped (gap rest : List Char) : Prop :=
  ∀ offset, Grammar.standard.rawTokensFrom (gap ++ rest) offset =
    Grammar.standard.rawTokensFrom rest (offset + utf8Length gap)

theorem isSkipped_nil (rest : List Char) : IsSkipped [] rest :=
  fun _ => rfl

theorem IsSkipped.append {first second rest : List Char}
    (skipFirst : IsSkipped first (second ++ rest)) (skipSecond : IsSkipped second rest) :
    IsSkipped (first ++ second) rest := by
  intro offset
  rw [List.append_assoc, skipFirst, skipSecond, utf8Length_append, Nat.add_assoc]

/-- A lexeme of a skipping rule. -/
theorem isSkipped_of_segment? {rule : Rule} {lexeme rest input : List Char}
    (found : Grammar.standard.segment? input = some ⟨rule, lexeme⟩)
    (parts : input = lexeme ++ rest) (skips : rule.tokenClass = none) : IsSkipped lexeme rest := by
  intro offset
  have cut := Grammar.rawTokensFrom_of_segment?_eq_some found parts offset
  rw [Segment.token?, skips, parts] at cut
  exact cut.trans (congrFun Except.map_id _)

/-- The blanks in front of a text. -/
theorem isSkipped_blanks (text : List Char) :
    IsSkipped (text.takeWhile isBlank) (text.dropWhile isBlank) := by
  cases text with
  | nil => exact isSkipped_nil []
  | cons c rest =>
      by_cases blank : isBlank c
      · have run : (c :: rest).takeWhile isBlank = c :: rest.takeWhile isBlank :=
          List.takeWhile_cons_of_pos blank
        rw [run]
        refine isSkipped_of_segment? (Grammar.segment?_blank blank rest) ?_ rfl
        rw [← run, List.takeWhile_append_dropWhile]
      · rw [List.takeWhile_cons_of_neg blank]
        exact isSkipped_nil _

/-- A blank is skipped, also where it does not stand alone. -/
theorem isSkipped_blank {c : Char} (blank : isBlank c) (rest : List Char) :
    IsSkipped [c] rest := by
  have run := isSkipped_blanks (c :: rest)
  rw [List.takeWhile_cons_of_pos blank, List.dropWhile_cons_of_pos blank] at run
  intro offset
  have behind := isSkipped_blanks rest (offset + c.utf8Size)
  have whole := run offset
  rw [List.cons_append, List.takeWhile_append_dropWhile, utf8Length_cons] at whole
  rw [List.takeWhile_append_dropWhile] at behind
  rw [List.singleton_append, whole, utf8Length_cons, utf8Length_nil, Nat.add_zero, behind,
    Nat.add_assoc]

theorem Grammar.segment?_comment (text : List Char) :
    standard.segment? ('#' :: text) =
      some ⟨.skip (.lineComment '#'), '#' :: text.takeWhile (· ≠ '\n')⟩ := by
  have lexeme : (Pattern.lineComment '#').lexeme ('#' :: text) =
      '#' :: text.takeWhile (· ≠ '\n') := by
    simp [Pattern.lexeme]
  have second : standard.rules =
      [.skip .whitespace] ++ .skip (.lineComment '#') :: standard.rules.tail.tail := rfl
  have misses : Pattern.whitespace.lexeme ('#' :: text) = [] := by
    simp [Pattern.lexeme, isBlank]
  have found : standard.find? ('#' :: text) = some (.skip (.lineComment '#')) :=
    find?_of_append second (by simpa [Rule.skip] using misses) (by rw [Rule.skip, lexeme]; simp)
  simp only [segment?, found, Option.map_some, Rule.skip, lexeme]

/-- The text is empty or begins with a new line. -/
def AtLineEnd (text : List Char) : Prop :=
  ∀ c ∈ text.head?, c = '\n'

theorem atLineEnd_newline (text : List Char) : AtLineEnd ('\n' :: text) :=
  fun _ head => (Option.some.inj head).symm

/-- A comment up to the end of its line. -/
theorem isSkipped_comment {body rest : List Char} (oneLine : '\n' ∉ body)
    (atLineEnd : AtLineEnd rest) : IsSkipped ('#' :: body) rest := by
  have inLine : ∀ c ∈ body, decide (c ≠ '\n') = true := by
    intro c member
    exact decide_eq_true fun same => oneLine (same ▸ member)
  have stops : rest.takeWhile (· ≠ '\n') = [] := by
    cases rest with
    | nil => rfl
    | cons c others => simp [atLineEnd c rfl]
  have found := Grammar.segment?_comment (body ++ rest)
  rw [List.takeWhile_append_of_pos inLine, stops, List.append_nil] at found
  exact isSkipped_of_segment? found rfl rfl

/-- A text of white space and of comments that end with their lines. -/
inductive IsTrivia : List Char → Prop
  | nil : IsTrivia []
  | blank {c : Char} {rest : List Char} (blank : isBlank c) (trivia : IsTrivia rest) :
      IsTrivia (c :: rest)
  | comment {body rest : List Char} (oneLine : '\n' ∉ body) (trivia : IsTrivia rest) :
      IsTrivia ('#' :: body ++ '\n' :: rest)

namespace IsTrivia

variable {trivia : List Char}

theorem newline (isTrivia : IsTrivia trivia) : IsTrivia ('\n' :: trivia) :=
  .blank rfl isTrivia

theorem isSeparator {c : Char} (isTrivia : IsTrivia (c :: trivia)) : isSeparator c := by
  cases isTrivia with
  | blank blank => simp [WhileLang.isSeparator, blank]
  | comment => rfl

theorem of_blanks {text : List Char} (blanks : ∀ c ∈ text, isBlank c) : IsTrivia text := by
  induction text with
  | nil => exact .nil
  | cons c rest ih =>
      rw [List.forall_mem_cons] at blanks
      exact .blank blanks.1 (ih blanks.2)

/-- White space and whole comments are skipped whatever follows them. -/
theorem isSkipped (isTrivia : IsTrivia trivia) (rest : List Char) : IsSkipped trivia rest := by
  induction isTrivia with
  | nil => exact isSkipped_nil rest
  | blank blank _ ih => exact (isSkipped_blank blank _).append ih
  | comment oneLine _ ih =>
      exact (isSkipped_comment oneLine (atLineEnd_newline _)).append
        ((isSkipped_blank (c := '\n') rfl _).append ih)

/-- A comment at the end of a line takes in what is put before that end. -/
theorem isSkipped_behind_comment (isTrivia : IsTrivia trivia) {body rest : List Char}
    (oneLine : '\n' ∉ body) (atLineEnd : AtLineEnd rest) :
    IsSkipped ('#' :: body ++ trivia) rest := by
  induction isTrivia generalizing body with
  | nil =>
      rw [List.append_nil]
      exact isSkipped_comment oneLine atLineEnd
  | @blank c others blank others_trivia ih =>
      by_cases isNewline : c = '\n'
      · subst isNewline
        exact (isSkipped_comment oneLine (atLineEnd_newline _)).append
          (others_trivia.newline.isSkipped rest)
      · have longer : '\n' ∉ body ++ [c] := by simp [oneLine, Ne.symm isNewline]
        have skips := ih longer
        rwa [← List.cons_append, List.append_assoc] at skips
  | @comment inner others innerLine others_trivia ih =>
      have longer : '\n' ∉ body ++ '#' :: inner := by simp [oneLine, innerLine]
      have skips := (isSkipped_comment longer (atLineEnd_newline _)).append
        (others_trivia.newline.isSkipped rest)
      rwa [← List.cons_append, List.append_assoc] at skips

end IsTrivia

/-! ## Texts that can stand for one another behind a lexeme -/

/-- Segments before `after` are found as well when `tail` stands there instead: words are cut
off in the same way, and a comment that ends there leaves the tail as it is. -/
structure Replaces (tail after : List Char) : Prop where
  word : ∀ {c : Char} {more : List Char} {segment : Segment}, isSeparator c = false →
    Grammar.standard.segment? (c :: more ++ after) = some segment →
      segment.lexeme.length ≤ (c :: more).length →
        Grammar.standard.segment? (c :: more ++ tail) = some segment
  comment : ∀ {body : List Char}, '\n' ∉ body → AtLineEnd after → IsSkipped ('#' :: body) tail

theorem replaces_self (text : List Char) : Replaces text text where
  word _ found _ := found
  comment oneLine atLineEnd := isSkipped_comment oneLine atLineEnd

/-- A separator cuts off a word as the rest of the text does. -/
theorem replaces_of_separator {separator : Char} {rest after : List Char}
    (separates : isSeparator separator)
    (comment : ∀ {body : List Char}, '\n' ∉ body → AtLineEnd after →
      IsSkipped ('#' :: body) (separator :: rest)) : Replaces (separator :: rest) after where
  word begins found within := by
    rw [Grammar.segment?_append_separator separates begins]
    exact Grammar.segment?_of_append found within
  comment := comment

theorem replaces_newline (text : List Char) : Replaces ('\n' :: text) [] :=
  replaces_of_separator rfl fun oneLine _ => isSkipped_comment oneLine (atLineEnd_newline text)

/-- Trivia can be put before any text. -/
theorem IsTrivia.replaces {trivia : List Char} (isTrivia : IsTrivia trivia) (after : List Char) :
    Replaces (trivia ++ after) after := by
  cases trivia with
  | nil => exact replaces_self after
  | cons c others =>
      refine replaces_of_separator isTrivia.isSeparator fun {body} oneLine atLineEnd => ?_
      intro offset
      have behind := isTrivia.isSkipped_behind_comment oneLine atLineEnd offset
      rw [List.append_assoc, utf8Length_append, ← Nat.add_assoc] at behind
      exact behind.trans (isTrivia.isSkipped after _).symm

theorem isSeparator_eq_false_of_segment?_eq_none {c : Char} {rest : List Char}
    (noMatch : Grammar.standard.segment? (c :: rest) = none) : isSeparator c = false := by
  by_contra separates
  by_cases blank : isBlank c
  · rw [Grammar.segment?_blank blank] at noMatch
    cases noMatch
  · obtain rfl : c = '#' := by simpa [isSeparator, blank] using separates
    rw [Grammar.segment?_comment] at noMatch
    cases noMatch

namespace IsTrivia

variable {trivia stuck : List Char} (isTrivia : IsTrivia trivia)
  (noMatch : Grammar.standard.segment? stuck = none) (notEmpty : stuck ≠ [])

include isTrivia noMatch notEmpty

/-- No rule matches at a text because of trivia behind it. -/
theorem segment?_stuck_append : Grammar.standard.segment? (stuck ++ trivia) = none := by
  obtain ⟨c, rest, rfl⟩ := List.exists_cons_of_ne_nil notEmpty
  cases trivia with
  | nil => rwa [List.append_nil]
  | cons separator others =>
      rwa [Grammar.segment?_append_separator isTrivia.isSeparator
        (isSeparator_eq_false_of_segment?_eq_none noMatch)]

/-- Trivia can be put behind a text at which no rule matches. -/
theorem replaces_stuck : Replaces (stuck ++ trivia) stuck where
  word {c more segment} begins found _ := by
    cases trivia with
    | nil => rwa [List.append_nil]
    | cons separator others =>
        rwa [← List.append_assoc, List.cons_append,
          Grammar.segment?_append_separator isTrivia.isSeparator begins]
  comment _ atLineEnd := by
    obtain ⟨c, rest, rfl⟩ := List.exists_cons_of_ne_nil notEmpty
    cases atLineEnd c rfl
    cases isSeparator_eq_false_of_segment?_eq_none noMatch

end IsTrivia

/-- A segment that begins with a separator is skipped before the one text and before the
other. -/
theorem Replaces.isSkipped {tail after : List Char} (replaces : Replaces tail after)
    {segment : Segment} {c : Char} {more middle : List Char}
    (found : Grammar.standard.segment? (segment.lexeme ++ (middle ++ after)) = some segment)
    (begins : segment.lexeme = c :: more) (separates : isSeparator c) :
    segment.rule.tokenClass = none ∧ IsSkipped segment.lexeme (middle ++ tail) := by
  rw [begins, List.cons_append] at found
  by_cases blank : isBlank c
  · rw [Grammar.segment?_blank blank] at found
    obtain rfl := Option.some.inj found
    have allBlank : ∀ d ∈ c :: (more ++ (middle ++ after)).takeWhile isBlank, isBlank d := by
      intro d member
      rcases List.mem_cons.mp member with rfl | inRun
      · exact blank
      · exact List.mem_takeWhile_imp inRun
    exact ⟨rfl, (IsTrivia.of_blanks allBlank).isSkipped _⟩
  · obtain rfl : c = '#' := by simpa [WhileLang.isSeparator, blank] using separates
    rw [Grammar.segment?_comment] at found
    obtain rfl := Option.some.inj found
    have body : (more ++ (middle ++ after)).takeWhile (· ≠ '\n') = more := (List.cons.inj begins).2
    have oneLine : '\n' ∉ more := by
      rw [← body]
      intro member
      simpa using List.mem_takeWhile_imp member
    have atLineEnd : AtLineEnd (middle ++ after) := by
      have stops := List.head?_dropWhile_not (· ≠ '\n') (more ++ (middle ++ after))
      have split := List.takeWhile_append_dropWhile (p := (· ≠ '\n'))
        (l := more ++ (middle ++ after))
      rw [body] at split
      rw [List.append_cancel_left split] at stops
      intro d head
      rw [Option.mem_def.mp head] at stops
      simpa using stops
    refine ⟨rfl, ?_⟩
    rw [begins]
    cases middle with
    | nil => exact replaces.comment oneLine atLineEnd
    | cons d middle => exact isSkipped_comment oneLine atLineEnd

/-- Segments stay as they are when what follows them is replaced. -/
theorem Replaces.rawTokensFrom {tail after stuck : List Char} (replaces : Replaces tail after)
    {segments others : List Segment}
    (cut : Grammar.standard.segmentation (segments.flatMap Segment.lexeme ++ after) =
      ⟨segments ++ others, stuck⟩) (offset : Nat) :
    Grammar.standard.rawTokensFrom (segments.flatMap Segment.lexeme ++ tail) offset =
      (Grammar.standard.rawTokensFrom tail (offset + segmentsSize segments)).map
        (placeTokens segments offset ++ ·) := by
  induction segments generalizing offset with
  | nil => exact (congrFun Except.map_id _).symm
  | cons segment segments ih =>
      rw [List.flatMap_cons, List.append_assoc] at cut ⊢
      obtain ⟨rest, parts, notEmpty, ruleFound, isLexeme, cutRest⟩ :=
        Grammar.segmentation_eq_cons cut
      obtain rfl := List.append_cancel_left parts
      have found : Grammar.standard.segment?
          (segment.lexeme ++ (segments.flatMap Segment.lexeme ++ after)) = some segment := by
        rw [Grammar.segment?, ruleFound, Option.map_some, isLexeme]
      have before := ih cutRest (offset + segment.size)
      rw [segmentsSize_cons, ← Nat.add_assoc, placeTokens]
      obtain ⟨c, more, begins⟩ := List.exists_cons_of_ne_nil notEmpty
      by_cases separates : isSeparator c
      · obtain ⟨noToken, skips⟩ := replaces.isSkipped found begins separates
        rw [skips offset, ← Segment.size, before, Segment.token?, noToken]
        rfl
      · have found' : Grammar.standard.segment?
            (segment.lexeme ++ (segments.flatMap Segment.lexeme ++ tail)) = some segment := by
          rw [← List.append_assoc, begins, List.cons_append] at found ⊢
          refine replaces.word ((Bool.not_eq_true _).mp separates) found ?_
          rw [begins]
          simp
        rw [Grammar.rawTokensFrom_of_segment?_eq_some found' rfl, before]
        cases Grammar.standard.rawTokensFrom tail _ with
        | error error => rfl
        | ok tokens => simp [Except.map]

end WhileLang
