import WhileLang.Lexical.Grammar

/-!
# Cutting a text into lexemes

Under a token grammar a text falls into segments, each the lexeme of the first
rule that matches where the previous one ended.  What is left when no rule
matches is the stuck part.  Nothing is lost: the lexemes and the stuck part spell
the text.
-/

namespace WhileLang

/-- A lexeme and the rule that found it. -/
structure Segment where
  rule : Rule
  lexeme : List Char
deriving DecidableEq

/-- The number of bytes that a segment covers. -/
def Segment.size (segment : Segment) : Nat :=
  utf8Length segment.lexeme

/-- The token that a segment yields when it begins at a byte offset.  Segments of
skipping rules yield none. -/
def Segment.token? (segment : Segment) (offset : Nat) : Option Token :=
  segment.rule.tokenClass.map fun tokenClass =>
    { tokenClass with
      value := .text (String.ofList segment.lexeme)
      span := ⟨offset, segment.size⟩ }

/-- The segment at the head of a text. -/
def Grammar.segment? (grammar : Grammar) (input : List Char) : Option Segment :=
  (grammar.find? input).map fun rule => { rule, lexeme := rule.pattern.lexeme input }

theorem Grammar.segment?_lexeme_ne_nil {grammar : Grammar} {input : List Char} {segment : Segment}
    (found : grammar.segment? input = some segment) : segment.lexeme ≠ [] := by
  obtain ⟨rule, ruleFound, rfl⟩ := Option.map_eq_some_iff.mp found
  exact lexeme_ne_nil_of_find? ruleFound

/-- A segment and what follows it make up the text. -/
theorem Grammar.segment?_append_drop {grammar : Grammar} {input : List Char} {segment : Segment}
    (found : grammar.segment? input = some segment) :
    segment.lexeme ++ input.drop segment.lexeme.length = input := by
  obtain ⟨rule, _, rfl⟩ := Option.map_eq_some_iff.mp found
  exact rule.pattern.lexeme_append_drop input

/-- What follows a segment is shorter than the text. -/
theorem Grammar.length_drop_lt_of_segment? {grammar : Grammar} {input : List Char}
    {segment : Segment} (found : grammar.segment? input = some segment) :
    (input.drop segment.lexeme.length).length < input.length := by
  have lexemePos : 0 < segment.lexeme.length :=
    List.length_pos_iff.mpr (segment?_lexeme_ne_nil found)
  have parts := congrArg List.length (segment?_append_drop found)
  rw [List.length_append] at parts
  omega

/-- A text that has been cut at rule matches as far as possible. -/
structure Segmentation where
  segments : List Segment
  stuck : List Char

/-- The segmentation that begins with a segment. -/
def Segmentation.cons (segment : Segment) (tail : Segmentation) : Segmentation :=
  { tail with segments := segment :: tail.segments }

/-- Cuts at most so many segments from the left. -/
def Grammar.cutWithin (grammar : Grammar) : Nat → List Char → Segmentation
  | 0, input => { segments := [], stuck := input }
  | bound + 1, input =>
      match grammar.segment? input with
      | none => { segments := [], stuck := input }
      | some segment => (grammar.cutWithin bound (input.drop segment.lexeme.length)).cons segment

/-- Cuts a text from the left until no rule matches.  No segment is empty, so there
are at most as many as there are characters. -/
def Grammar.segmentation (grammar : Grammar) (input : List Char) : Segmentation :=
  grammar.cutWithin input.length input

/-! ## Cutting as far as possible -/

theorem Grammar.segment?_nil (grammar : Grammar) : grammar.segment? [] = none := by
  cases found : grammar.segment? [] with
  | none => rfl
  | some segment =>
      have shorter := length_drop_lt_of_segment? found
      simp at shorter

/-- Any two bounds that the length of the text does not exceed give the same cuts. -/
theorem Grammar.cutWithin_eq_cutWithin (grammar : Grammar) {first second : Nat}
    {input : List Char} (firstBound : input.length ≤ first)
    (secondBound : input.length ≤ second) :
    grammar.cutWithin first input = grammar.cutWithin second input := by
  induction first generalizing second input with
  | zero =>
      have empty : input = [] := List.length_eq_zero_iff.mp (Nat.le_zero.mp firstBound)
      subst empty
      cases second <;> simp [cutWithin, segment?_nil]
  | succ first ih =>
      cases second with
      | zero =>
          have empty : input = [] := List.length_eq_zero_iff.mp (Nat.le_zero.mp secondBound)
          subst empty
          simp [cutWithin, segment?_nil]
      | succ second =>
          simp only [cutWithin]
          cases found : grammar.segment? input with
          | none => rfl
          | some segment =>
              have shorter := length_drop_lt_of_segment? found
              dsimp only
              rw [@ih second _ (by omega) (by omega)]

/-- Cutting within a bound that the length of the text does not exceed is cutting as
far as possible. -/
theorem Grammar.cutWithin_eq_segmentation (grammar : Grammar) {bound : Nat} {input : List Char}
    (bounded : input.length ≤ bound) :
    grammar.cutWithin bound input = grammar.segmentation input :=
  grammar.cutWithin_eq_cutWithin bounded (Nat.le_refl _)

theorem Grammar.segmentation_of_segment?_eq_none {grammar : Grammar} {input : List Char}
    (stuck : grammar.segment? input = none) :
    grammar.segmentation input = { segments := [], stuck := input } := by
  rw [← grammar.cutWithin_eq_segmentation (Nat.le_succ input.length), cutWithin, stuck]

theorem Grammar.segmentation_of_segment?_eq_some {grammar : Grammar} {input : List Char}
    {segment : Segment} (found : grammar.segment? input = some segment) :
    grammar.segmentation input =
      (grammar.segmentation (input.drop segment.lexeme.length)).cons segment := by
  have shorter := length_drop_lt_of_segment? found
  rw [← grammar.cutWithin_eq_segmentation (Nat.le_succ input.length), cutWithin, found]
  dsimp only
  rw [grammar.cutWithin_eq_segmentation (by omega)]

/-- A property of texts holds when it holds where no rule matches and passes from
what follows a segment to the text that begins with it. -/
theorem Grammar.segmentation_induction {motive : List Char → Prop} (grammar : Grammar)
    (stuck : ∀ input, grammar.segment? input = none → motive input)
    (cut : ∀ input segment, grammar.segment? input = some segment →
      motive (input.drop segment.lexeme.length) → motive input)
    (input : List Char) : motive input := by
  induction length : input.length using Nat.strongRecOn generalizing input with
  | ind n ih =>
      subst length
      cases found : grammar.segment? input with
      | none => exact stuck input found
      | some segment =>
          exact cut input segment found
            (ih _ (length_drop_lt_of_segment? found) (input.drop segment.lexeme.length) rfl)

/-! ## Nothing is lost -/

/-- The text that a segmentation spells. -/
def Segmentation.spelling (segmentation : Segmentation) : List Char :=
  segmentation.segments.flatMap Segment.lexeme ++ segmentation.stuck

theorem Segmentation.spelling_cons (segment : Segment) (tail : Segmentation) :
    (tail.cons segment).spelling = segment.lexeme ++ tail.spelling := by
  simp [cons, spelling]

/-- Cutting keeps every character. -/
theorem Grammar.spelling_segmentation (grammar : Grammar) (input : List Char) :
    (grammar.segmentation input).spelling = input := by
  induction input using grammar.segmentation_induction with
  | stuck input none => simp [segmentation_of_segment?_eq_none none, Segmentation.spelling]
  | cut input segment found ih =>
      rw [segmentation_of_segment?_eq_some found, Segmentation.spelling_cons, ih]
      exact segment?_append_drop found

end WhileLang
