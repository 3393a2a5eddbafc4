import Mathlib
import WhileLang.Proofs.Lexical.Numerals

/-!
# Which lexical error is reported

A text can be at fault in two ways: at a character no rule matches, and an integer can be
too large.  All of the text is cut before any numeral is read.  So a stray character is
reported even if it stands behind such an integer, and of several integers that are too
large it is the first that is reported.  Nothing else goes wrong.
-/

namespace WhileLang

/-- The token of a lexeme that stands at a byte offset.  It holds the lexeme as text. -/
def Token.ofLexeme (tokenClass : TokenClass) (lexeme : List Char) (offset : Nat) : Token :=
  ⟨tokenClass, .text (String.ofList lexeme), ⟨offset, utf8Length lexeme⟩⟩

namespace Grammar

/-! ## Where the lexemes of a text lead -/

/-- From the beginning of a text its lexemes lead to a byte offset behind which the text goes
on with `rest`.  Each lexeme is found by the first rule that matches where the one before it
ends. -/
inductive CutsTo (grammar : Grammar) (text : String) : Nat → List Char → Prop
  | start : CutsTo grammar text 0 text.toList
  | behind {offset : Nat} {lexeme rest : List Char} {rule : Rule}
      (cuts : CutsTo grammar text offset (lexeme ++ rest))
      (found : grammar.find? (lexeme ++ rest) = some rule)
      (isLexeme : rule.pattern.lexeme (lexeme ++ rest) = lexeme) :
      CutsTo grammar text (offset + utf8Length lexeme) rest

/-- The lexemes of a text lead to a character at which no rule matches. -/
def IsStuckAt (grammar : Grammar) (text : String) (c : Char) (offset : Nat) : Prop :=
  ∃ rest, grammar.CutsTo text offset (c :: rest) ∧ grammar.find? (c :: rest) = none

/-- One of the lexemes of a text, found at a byte offset by a rule that gives its tokens a
class. -/
def HasLexeme (grammar : Grammar) (text : String) (lexeme : List Char) (tokenClass : TokenClass)
    (offset : Nat) : Prop :=
  ∃ rest rule, grammar.CutsTo text offset (lexeme ++ rest) ∧
    grammar.find? (lexeme ++ rest) = some rule ∧ rule.pattern.lexeme (lexeme ++ rest) = lexeme ∧
      rule.tokenClass = some tokenClass

variable {grammar : Grammar} {text : String} {offset : Nat} {rest : List Char}

theorem CutsTo.exists_segments (cuts : grammar.CutsTo text offset rest) :
    ∃ before, segmentsSize before = offset ∧ grammar.segmentation text.toList =
      ⟨before ++ (grammar.segmentation rest).segments, (grammar.segmentation rest).stuck⟩ := by
  induction cuts with
  | start => exact ⟨[], rfl, rfl⟩
  | @behind offset lexeme rest rule _ found isLexeme ih =>
      obtain ⟨before, size, whole⟩ := ih
      have isSegment : grammar.segment? (lexeme ++ rest) = some ⟨rule, lexeme⟩ := by
        rw [segment?, found, Option.map_some, isLexeme]
      rw [segmentation_of_segment?_eq_some isSegment, List.drop_left] at whole
      refine ⟨before ++ [⟨rule, lexeme⟩], ?_, ?_⟩
      · rw [segmentsSize_append, size]
        rfl
      · rw [List.append_assoc, List.singleton_append]
        exact whole

/-- Segments in front of a text are lexemes that lead behind them. -/
theorem CutsTo.behind_segments {before after : List Segment} {stuck : List Char}
    (cuts : grammar.CutsTo text offset rest)
    (cut : grammar.segmentation rest = ⟨before ++ after, stuck⟩) :
    ∃ rest', grammar.CutsTo text (offset + segmentsSize before) rest' ∧
      grammar.segmentation rest' = ⟨after, stuck⟩ := by
  induction before generalizing offset rest with
  | nil => exact ⟨rest, cuts, cut⟩
  | cons segment before ih =>
      obtain ⟨rest', rfl, _, found, isLexeme, cut'⟩ := segmentation_eq_cons cut
      rw [segmentsSize_cons, ← Nat.add_assoc]
      exact ih (cuts.behind found isLexeme) cut'

/-- Lexemes lead behind the segments in front of a text and nowhere else. -/
theorem cutsTo_iff :
    grammar.CutsTo text offset rest ↔
      ∃ before, segmentsSize before = offset ∧ grammar.segmentation text.toList =
        ⟨before ++ (grammar.segmentation rest).segments, (grammar.segmentation rest).stuck⟩ := by
  refine ⟨CutsTo.exists_segments, ?_⟩
  rintro ⟨before, rfl, whole⟩
  obtain ⟨rest', cuts, cut⟩ := CutsTo.start.behind_segments whole
  have same : rest' = rest := by
    rw [← grammar.spelling_segmentation rest', cut, grammar.spelling_segmentation rest]
  rwa [same, Nat.zero_add] at cuts

/-- The text is stuck where all of its segments end, if it goes on there. -/
theorem isStuckAt_iff {c : Char} :
    grammar.IsStuckAt text c offset ↔
      segmentsSize (grammar.segmentation text.toList).segments = offset ∧
        (grammar.segmentation text.toList).stuck.head? = some c := by
  constructor
  · rintro ⟨rest, cuts, unmatched⟩
    obtain ⟨before, size, whole⟩ := cutsTo_iff.mp cuts
    have noSegment : grammar.segment? (c :: rest) = none := by
      rw [segment?, unmatched, Option.map_none]
    rw [segmentation_of_segment?_eq_none noSegment, List.append_nil] at whole
    rw [whole]
    exact ⟨size, rfl⟩
  · rintro ⟨size, isHead⟩
    obtain ⟨rest, stuck⟩ := List.head?_eq_some_iff.mp isHead
    have atEnd : grammar.segmentation text.toList =
        ⟨(grammar.segmentation text.toList).segments ++ [], c :: rest⟩ := by
      rw [List.append_nil, ← stuck]
    obtain ⟨rest', cuts, cut⟩ := CutsTo.start.behind_segments atEnd
    obtain ⟨rfl, unmatched⟩ := segmentation_eq_nil cut
    rw [Nat.zero_add, size] at cuts
    exact ⟨rest, cuts, unmatched⟩

theorem hasLexeme_iff {lexeme : List Char} {tokenClass : TokenClass} :
    grammar.HasLexeme text lexeme tokenClass offset ↔
      ∃ before rule after, (grammar.segmentation text.toList).segments =
          before ++ ⟨rule, lexeme⟩ :: after ∧
        segmentsSize before = offset ∧ rule.tokenClass = some tokenClass := by
  constructor
  · rintro ⟨rest, rule, cuts, found, isLexeme, classed⟩
    obtain ⟨before, size, whole⟩ := cutsTo_iff.mp cuts
    have isSegment : grammar.segment? (lexeme ++ rest) = some ⟨rule, lexeme⟩ := by
      rw [segment?, found, Option.map_some, isLexeme]
    rw [segmentation_of_segment?_eq_some isSegment] at whole
    exact ⟨before, rule, _, congrArg Segmentation.segments whole, size, classed⟩
  · rintro ⟨before, rule, after, segments, size, classed⟩
    have whole : grammar.segmentation text.toList =
        ⟨before ++ ⟨rule, lexeme⟩ :: after, (grammar.segmentation text.toList).stuck⟩ := by
      rw [← segments]
    obtain ⟨_, cuts, cut⟩ := CutsTo.start.behind_segments whole
    obtain ⟨rest, rfl, _, found, isLexeme, _⟩ := segmentation_eq_cons cut
    rw [Nat.zero_add, size] at cuts
    exact ⟨rest, rule, cuts, found, isLexeme, classed⟩

/-- The tokens of a list of segments are those of its segments with a class. -/
theorem mem_placeTokens_iff {segments : List Segment} {token : Token} :
    token ∈ placeTokens segments offset ↔
      ∃ before rule lexeme after tokenClass, segments = before ++ ⟨rule, lexeme⟩ :: after ∧
        rule.tokenClass = some tokenClass ∧
          token = .ofLexeme tokenClass lexeme (offset + segmentsSize before) := by
  induction segments generalizing offset with
  | nil => simp [placeTokens]
  | cons segment segments ih =>
      rw [placeTokens, List.mem_append, Option.mem_toList, ih]
      constructor
      · rintro (first | ⟨before, rule, lexeme, after, tokenClass, rfl, classed, rfl⟩)
        · obtain ⟨tokenClass, classed, rfl⟩ := Option.map_eq_some_iff.mp first
          exact ⟨[], segment.rule, segment.lexeme, segments, tokenClass, rfl, classed, rfl⟩
        · refine ⟨segment :: before, rule, lexeme, after, tokenClass, rfl, classed, ?_⟩
          rw [segmentsSize_cons, Nat.add_assoc]
      · rintro ⟨_ | ⟨first, before⟩, rule, lexeme, after, tokenClass, split, classed, rfl⟩
        · cases split
          exact .inl (by rw [Segment.token?, classed]; rfl)
        · cases split
          refine .inr ⟨before, rule, lexeme, after, tokenClass, rfl, classed, ?_⟩
          rw [segmentsSize_cons, Nat.add_assoc]

/-- The stream of a text yields its lexemes with a class. -/
theorem mem_placeTokens_segmentation_iff {raw : Token} :
    raw ∈ placeTokens (grammar.segmentation text.toList).segments 0 ↔
      ∃ lexeme tokenClass offset, grammar.HasLexeme text lexeme tokenClass offset ∧
        raw = .ofLexeme tokenClass lexeme offset := by
  simp only [mem_placeTokens_iff, hasLexeme_iff, Nat.zero_add]
  constructor
  · rintro ⟨before, rule, lexeme, after, tokenClass, split, classed, rfl⟩
    exact ⟨lexeme, tokenClass, _, ⟨before, rule, after, split, rfl, classed⟩, rfl⟩
  · rintro ⟨lexeme, tokenClass, _, ⟨before, rule, after, split, rfl, classed⟩, rfl⟩
    exact ⟨before, rule, lexeme, after, tokenClass, split, classed, rfl⟩

/-! ## Stray characters -/

theorem tokenize_of_stuck_eq_cons {c : Char} {rest : List Char}
    (stuck : (grammar.segmentation text.toList).stuck = c :: rest) :
    grammar.tokenize text = .error (.invalidCharacter c
      ⟨segmentsSize (grammar.segmentation text.toList).segments, c.utf8Size⟩) := by
  dsimp only [tokenize, rawTokens]
  rw [stuck]
  rfl

/-- Where a text is not stuck, it fails at the first token that cannot be read. -/
theorem exists_first_of_tokenize_eq_error {error : LexError}
    (stuck : (grammar.segmentation text.toList).stuck = [])
    (fails : grammar.tokenize text = .error error) :
    ∃ before raw after,
      placeTokens (grammar.segmentation text.toList).segments 0 = before ++ raw :: after ∧
        (∀ earlier ∈ before, ∃ token, earlier.readNumeral = .ok token) ∧
          raw.readNumeral = .error error := by
  apply exists_first_of_mapM_eq_error
  dsimp only [tokenize, rawTokens] at fails
  rw [stuck, lastItem, Except.map, Except.bind, List.mapM_append] at fails
  -- The mark of the end is always read.
  cases reads : (placeTokens (grammar.segmentation text.toList).segments 0).mapM
      Token.readNumeral with
  | ok words =>
      rw [reads] at fails
      cases fails
  | error other =>
      rw [reads] at fails
      cases fails
      rfl

theorem stuck_eq_nil_iff :
    (grammar.segmentation text.toList).stuck = [] ↔
      ∀ c offset, ¬grammar.IsStuckAt text c offset := by
  simp only [isStuckAt_iff]
  cases (grammar.segmentation text.toList).stuck with
  | nil => simp
  | cons c rest => simp

/-- A stray character is reported where the text is stuck, whatever its numerals are. -/
theorem tokenize_eq_invalidCharacter_iff {c : Char} {span : Span} :
    grammar.tokenize text = .error (.invalidCharacter c span) ↔
      ∃ offset, grammar.IsStuckAt text c offset ∧ span = ⟨offset, c.utf8Size⟩ := by
  simp only [isStuckAt_iff]
  cases stuck : (grammar.segmentation text.toList).stuck with
  | cons first rest =>
      rw [tokenize_of_stuck_eq_cons stuck]
      simp only [Except.error.injEq, LexError.invalidCharacter.injEq, List.head?_cons,
        Option.some.injEq]
      constructor
      · rintro ⟨rfl, rfl⟩
        exact ⟨_, ⟨rfl, rfl⟩, rfl⟩
      · rintro ⟨_, ⟨rfl, rfl⟩, rfl⟩
        exact ⟨rfl, rfl⟩
  | nil =>
      simp only [List.head?_nil, reduceCtorEq, and_false, false_and, exists_false, iff_false]
      intro fails
      obtain ⟨_, raw, _, _, _, failsThere⟩ := exists_first_of_tokenize_eq_error stuck fails
      exact (Token.readNumeral_eq_error failsThere).2 c span rfl

/-! ## Integers that are too large -/

/-- The first of the integers in a text that are too large for a word. -/
structure IsFirstTooLarge (grammar : Grammar) (text : String) (digits : List Char)
    (offset : Nat) : Prop where
  isLexeme : grammar.HasLexeme text digits integerClass offset
  tooLarge : 2 ^ 63 ≤ Decimal.natOfDigits digits
  earlierFit : ∀ digits' offset', grammar.HasLexeme text digits' integerClass offset' →
    offset' < offset → Decimal.natOfDigits digits' < 2 ^ 63

/-- The lexemes of the class of integers are runs of digits. -/
theorem exists_digitRun_of_hasLexeme {digits : List Char}
    (isLexeme : standard.HasLexeme text digits integerClass offset) :
    ∃ run : DigitRun, run.chars = digits := by
  have member := mem_placeTokens_segmentation_iff.mpr ⟨digits, _, _, isLexeme, rfl⟩
  cases Token.isUnread_of_mem_placeTokens member with
  | other notNumber => exact absurd rfl notNumber
  | @integer run value => exact ⟨run, (String.ofList_inj.mp (TokenValue.text.inj value)).symm⟩
  | decimal _ isClass => cases isClass

theorem readNumeral_ofLexeme_of_le {digits : List Char}
    (isLexeme : standard.HasLexeme text digits integerClass offset)
    (tooLarge : 2 ^ 63 ≤ Decimal.natOfDigits digits) :
    (Token.ofLexeme integerClass digits offset).readNumeral =
      .error (.invalidInteger (String.ofList digits) .tooLarge ⟨offset, utf8Length digits⟩) := by
  obtain ⟨run, rfl⟩ := exists_digitRun_of_hasLexeme isLexeme
  exact (Token.readNumeral_digits rfl rfl).trans (if_neg (Nat.not_lt.mpr tooLarge))

/-- A token of a text that cannot be read is an integer that is too large. -/
theorem exists_hasLexeme_of_readNumeral_eq_error {raw : Token} {error : LexError}
    (member : raw ∈ placeTokens (standard.segmentation text.toList).segments 0)
    (fails : raw.readNumeral = .error error) :
    ∃ digits offset, standard.HasLexeme text digits integerClass offset ∧
      2 ^ 63 ≤ Decimal.natOfDigits digits ∧ raw = .ofLexeme integerClass digits offset ∧
        error = .invalidInteger (String.ofList digits) .tooLarge ⟨offset, utf8Length digits⟩ := by
  have unread := Token.isUnread_of_mem_placeTokens member
  obtain ⟨digits, tokenClass, offset, isLexeme, rfl⟩ := mem_placeTokens_segmentation_iff.mp member
  obtain ⟨run, rfl, value, tooLarge, rfl⟩ := unread.readNumeral_eq_error_iff.mp fails
  obtain rfl : digits = run.chars := String.ofList_inj.mp (TokenValue.text.inj value)
  exact ⟨_, _, isLexeme, tooLarge, rfl, rfl⟩

/-- An error about anything but a stray character is about the first integer that is too
large, and then there is no stray character. -/
theorem exists_isFirstTooLarge_of_tokenize_eq_error {error : LexError}
    (fails : standard.tokenize text = .error error)
    (notStray : ∀ c span, error ≠ .invalidCharacter c span) :
    (∀ c offset, ¬standard.IsStuckAt text c offset) ∧
      ∃ digits offset, standard.IsFirstTooLarge text digits offset ∧
        error = .invalidInteger (String.ofList digits) .tooLarge ⟨offset, utf8Length digits⟩ := by
  have notStuck : (standard.segmentation text.toList).stuck = [] := by
    cases stuck : (standard.segmentation text.toList).stuck with
    | nil => rfl
    | cons c rest =>
        rw [tokenize_of_stuck_eq_cons stuck] at fails
        exact absurd (Except.error.inj fails).symm (notStray _ _)
  obtain ⟨before, raw, after, split, fine, failsThere⟩ :=
    exists_first_of_tokenize_eq_error notStuck fails
  have member : raw ∈ placeTokens (standard.segmentation text.toList).segments 0 :=
    split ▸ List.mem_append_right _ List.mem_cons_self
  obtain ⟨digits, offset, isLexeme, tooLarge, rfl, rfl⟩ :=
    exists_hasLexeme_of_readNumeral_eq_error member failsThere
  refine ⟨stuck_eq_nil_iff.mp notStuck, digits, offset, ⟨isLexeme, tooLarge, ?_⟩, rfl⟩
  -- One that stands before it is read before it, and it would have failed there.
  intro digits' offset' isLexeme' earlier
  by_contra tooLarge'
  have failsEarlier := readNumeral_ofLexeme_of_le isLexeme' (Nat.not_lt.mp tooLarge')
  have member' := mem_placeTokens_segmentation_iff.mpr ⟨digits', _, _, isLexeme', rfl⟩
  have increasing := (Lexer.isLossless_placeTokens standard text).pairwise_offset_lt.1
  rw [split, List.pairwise_append] at increasing
  rw [split, List.mem_append, List.mem_cons] at member'
  rcases member' with isBefore | same | isBehind
  · obtain ⟨token, reads⟩ := fine _ isBefore
    rw [failsEarlier] at reads
    cases reads
  · have sameOffset : offset' = offset := congrArg (fun token => token.span.offset) same
    exact earlier.ne sameOffset
  · exact lt_asymm earlier (List.rel_of_pairwise_cons increasing.2.1 isBehind)

/-! ## Texts that are made of tokens -/

/-- An integer among the tokens of a text is what the digits at its place denote. -/
theorem exists_hasLexeme_of_integer {tokens : List Token} {token : Token}
    (lexes : standard.tokenize text = .ok tokens) (member : token ∈ tokens)
    (isInt : token.subcategory = some .int) :
    ∃ digits number, standard.HasLexeme text digits integerClass token.span.offset ∧
      token.span.length = utf8Length digits ∧ token.value = .int number ∧
        number.toInt = Decimal.natOfDigits digits := by
  obtain ⟨_, words, reads, rfl⟩ := tokenize_eq_ok_iff.mp lexes
  rcases List.mem_append.mp member with inWords | atEnd
  · obtain ⟨raw, inRaws, read⟩ := exists_of_mem_forall₂ reads inWords
    have unread := Token.isUnread_of_mem_placeTokens inRaws
    obtain ⟨digits, tokenClass, offset, isLexeme, rfl⟩ :=
      mem_placeTokens_segmentation_iff.mp inRaws
    have sameClass := Token.toTokenClass_of_readNumeral read
    cases unread with
    | other _ notInt _ => exact absurd (sameClass ▸ isInt) notInt
    | decimal _ isClass =>
        rw [sameClass, isClass] at isInt
        cases isInt
    | @integer run value isClass =>
        obtain rfl : digits = run.chars := String.ofList_inj.mp (TokenValue.text.inj value)
        rw [Token.readNumeral_digits value isClass] at read
        split_ifs at read with fits
        cases read
        obtain rfl : tokenClass = integerClass := isClass
        refine ⟨_, _, isLexeme, rfl, rfl, ?_⟩
        rw [Int64.toInt_ofInt_of_le (by omega) (by omega)]
        rfl
  · rw [List.mem_singleton.mp atEnd] at isInt
    cases isInt

/-- All integers of a text that is made of tokens fit into a word. -/
theorem lt_of_tokenize_eq_ok {tokens : List Token} {digits : List Char}
    (lexes : standard.tokenize text = .ok tokens)
    (isLexeme : standard.HasLexeme text digits integerClass offset) :
    Decimal.natOfDigits digits < 2 ^ 63 := by
  by_contra tooLarge
  obtain ⟨_, words, reads, _⟩ := tokenize_eq_ok_iff.mp lexes
  have member := mem_placeTokens_segmentation_iff.mpr ⟨digits, _, _, isLexeme, rfl⟩
  obtain ⟨token, _, read⟩ := exists_of_mem_forall₂ reads.flip member
  rw [readNumeral_ofLexeme_of_le isLexeme (Nat.not_lt.mp tooLarge)] at read
  cases read

/-- What becomes of a text.  A stray character is reported if and only if the lexemes lead to
one, also behind integers that are too large.  Otherwise an integer is reported if and only if
one is too large, and it is the first such.  Otherwise the text is made of tokens, and every
integer among them is what its digits denote.  That a decimal cannot be read is never
reported. -/
theorem standard_tokenize_cases (text : String) :
    (∀ c span, standard.tokenize text = .error (.invalidCharacter c span) ↔
      ∃ offset, standard.IsStuckAt text c offset ∧ span = ⟨offset, c.utf8Size⟩) ∧
    ((∃ literal reason span,
        standard.tokenize text = .error (.invalidInteger literal reason span)) ↔
      (∀ c offset, ¬standard.IsStuckAt text c offset) ∧
        ∃ digits offset, standard.HasLexeme text digits integerClass offset ∧
          2 ^ 63 ≤ Decimal.natOfDigits digits) ∧
    (∀ literal reason span,
      standard.tokenize text = .error (.invalidInteger literal reason span) →
        ∃ digits offset, standard.IsFirstTooLarge text digits offset ∧
          literal = String.ofList digits ∧ span = ⟨offset, utf8Length digits⟩ ∧
            reason.message = "number too large to fit in target type") ∧
    (∀ literal reason span, standard.tokenize text ≠ .error (.invalidFloat literal reason span)) ∧
    ((∃ tokens, standard.tokenize text = .ok tokens) ↔
      (∀ c offset, ¬standard.IsStuckAt text c offset) ∧
        ∀ digits offset, standard.HasLexeme text digits integerClass offset →
          Decimal.natOfDigits digits < 2 ^ 63) ∧
    ∀ tokens, standard.tokenize text = .ok tokens →
      ∀ token ∈ tokens, token.subcategory = some .int →
        ∃ digits number, standard.HasLexeme text digits integerClass token.span.offset ∧
          token.span.length = utf8Length digits ∧ token.value = .int number ∧
            number.toInt = Decimal.natOfDigits digits := by
  have fails_of_notStuck (notStuck : ∀ c offset, ¬standard.IsStuckAt text c offset)
      {error : LexError} (fails : standard.tokenize text = .error error) :
      ∃ digits offset, standard.IsFirstTooLarge text digits offset ∧
        error = .invalidInteger (String.ofList digits) .tooLarge ⟨offset, utf8Length digits⟩ := by
    refine (exists_isFirstTooLarge_of_tokenize_eq_error fails ?_).2
    rintro c span rfl
    obtain ⟨offset, stuck, _⟩ := tokenize_eq_invalidCharacter_iff.mp fails
    exact notStuck c offset stuck
  refine ⟨fun c span => tokenize_eq_invalidCharacter_iff, ⟨?_, ?_⟩, ?_, ?_, ⟨?_, ?_⟩,
    fun tokens lexes token => exists_hasLexeme_of_integer lexes⟩
  · rintro ⟨literal, reason, span, fails⟩
    obtain ⟨notStuck, digits, offset, first, _⟩ :=
      exists_isFirstTooLarge_of_tokenize_eq_error fails (by simp)
    exact ⟨notStuck, digits, offset, first.isLexeme, first.tooLarge⟩
  · rintro ⟨notStuck, digits, offset, isLexeme, tooLarge⟩
    cases outcome : standard.tokenize text with
    | ok tokens => exact absurd (lt_of_tokenize_eq_ok outcome isLexeme) (Nat.not_lt.mpr tooLarge)
    | error error =>
        obtain ⟨_, _, _, rfl⟩ := fails_of_notStuck notStuck outcome
        exact ⟨_, _, _, rfl⟩
  · intro literal reason span fails
    obtain ⟨_, digits, offset, first, same⟩ :=
      exists_isFirstTooLarge_of_tokenize_eq_error fails (by simp)
    cases same
    exact ⟨digits, offset, first, rfl, rfl, rfl⟩
  · intro literal reason span fails
    obtain ⟨_, _, _, _, same⟩ := exists_isFirstTooLarge_of_tokenize_eq_error fails (by simp)
    cases same
  · rintro ⟨tokens, lexes⟩
    exact ⟨stuck_eq_nil_iff.mp (tokenize_eq_ok_iff.mp lexes).1,
      fun digits offset isLexeme => lt_of_tokenize_eq_ok lexes isLexeme⟩
  · rintro ⟨notStuck, fit⟩
    cases outcome : standard.tokenize text with
    | ok tokens => exact ⟨tokens, rfl⟩
    | error error =>
        obtain ⟨digits, offset, first, _⟩ := fails_of_notStuck notStuck outcome
        exact absurd (fit digits offset first.isLexeme) (Nat.not_lt.mpr first.tooLarge)

-- The integer is too large, but the character behind it is reported.
example :
    standard.tokenize "9223372036854775808 ?" = .error (.invalidCharacter '?' ⟨20, 1⟩) := by
  decide +kernel

end Grammar

end WhileLang
