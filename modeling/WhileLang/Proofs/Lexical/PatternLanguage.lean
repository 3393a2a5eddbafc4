import Mathlib
import WhileLang.Proofs.Lexical.LongestMatch

/-!
# The languages of the patterns

Every kind of lexeme is a regular language, said here with ranges of characters, concatenation
and repetition, and without a scan of a text.  A pattern finds the longest word of its language
with which a text begins, and it finds one wherever there is one that is not empty.

Of a keyword it also matters what stands behind it.  So a beginning of a text counts only if the
pattern may end before the rest of the text.
-/

open scoped Computability

namespace WhileLang

/-! ## Characters and runs of them -/

/-- The white space between tokens. -/
def blankChars : Set Char :=
  {' ', '\t', '\r', '\n'}

/-- The decimal digits. -/
def digitChars : Set Char :=
  Set.Icc '0' '9'

/-- The characters with which a name begins. -/
def nameStarts : Set Char :=
  Set.Icc 'A' 'Z' ∪ Set.Icc 'a' 'z' ∪ {'_'}

/-- The characters with which a name goes on. -/
def nameChars : Set Char :=
  Set.Icc 'A' 'Z' ∪ Set.Icc 'a' 'z' ∪ Set.Icc '0' '9' ∪ {'_'}

/-- The characters within a line. -/
def lineChars : Set Char :=
  {'\n'}ᶜ

section Characters

variable {c : Char}

theorem isBlank_iff : isBlank c ↔ c ∈ blankChars := by
  simp [isBlank, blankChars, or_assoc]

theorem isDigit_iff : c.isDigit ↔ c ∈ digitChars := by
  simp [Char.isDigit, digitChars, Char.le_def]

theorem isWordStart_iff : isWordStart c ↔ c ∈ nameStarts := by
  simp [isWordStart, nameStarts, Char.isAlpha, Char.isUpper, Char.isLower, Char.le_def,
    -Set.union_singleton]

theorem isWordChar_iff : isWordChar c ↔ c ∈ nameChars := by
  simp [isWordChar, nameChars, Char.isAlphanum, Char.isAlpha, Char.isUpper, Char.isLower,
    Char.isDigit, Char.le_def, -Set.union_singleton]

theorem ne_newline_iff : decide (c ≠ '\n') ↔ c ∈ lineChars := by
  simp [lineChars]

end Characters

/-- The words of one character from a set. -/
def oneOf (chars : Set Char) : Language Char :=
  {word | ∃ c ∈ chars, word = [c]}

/-- The words of one or more characters from a set. -/
def runOf (chars : Set Char) : Language Char :=
  oneOf chars * (oneOf chars)∗

section Runs

variable {chars starts : Set Char} {word : List Char}

theorem mem_kstar_oneOf_iff : word ∈ (oneOf chars)∗ ↔ ∀ c ∈ word, c ∈ chars := by
  rw [Language.mem_kstar]
  constructor
  · rintro ⟨words, rfl, single⟩ c member
    obtain ⟨part, inWords, inPart⟩ := List.mem_flatten.mp member
    obtain ⟨d, holds, rfl⟩ := single part inWords
    rwa [List.mem_singleton.mp inPart]
  · intro holds
    have parts : word = (word.map fun c => [c]).flatten := by
      rw [← List.flatMap_def, List.flatMap_singleton']
    refine ⟨word.map fun c => [c], parts, ?_⟩
    intro part member
    obtain ⟨c, inWord, rfl⟩ := List.mem_map.mp member
    exact ⟨c, holds c inWord, rfl⟩

theorem mem_oneOf_mul_iff {tails : Language Char} :
    word ∈ oneOf starts * tails ↔ ∃ c ∈ starts, ∃ rest ∈ tails, word = c :: rest := by
  rw [Language.mem_mul]
  constructor
  · rintro ⟨_, ⟨c, holds, rfl⟩, rest, inTails, rfl⟩
    exact ⟨c, holds, rest, inTails, rfl⟩
  · rintro ⟨c, holds, rest, inTails, rfl⟩
    exact ⟨[c], ⟨c, holds, rfl⟩, rest, inTails, rfl⟩

theorem exists_head?_of_mem_oneOf_mul {tails : Language Char}
    (member : word ∈ oneOf starts * tails) (rest : List Char) :
    ∃ c ∈ starts, (word ++ rest).head? = some c := by
  obtain ⟨c, start, more, _, rfl⟩ := mem_oneOf_mul_iff.mp member
  exact ⟨c, start, rfl⟩

theorem forall_mem_of_mem_oneOf_mul (subset : starts ⊆ chars)
    (member : word ∈ oneOf starts * (oneOf chars)∗) : ∀ c ∈ word, c ∈ chars := by
  obtain ⟨c, start, more, inTails, rfl⟩ := mem_oneOf_mul_iff.mp member
  exact List.forall_mem_cons.mpr ⟨subset start, mem_kstar_oneOf_iff.mp inTails⟩

theorem mem_runOf_iff : word ∈ runOf chars ↔ word ≠ [] ∧ ∀ c ∈ word, c ∈ chars := by
  constructor
  · intro member
    refine ⟨?_, forall_mem_of_mem_oneOf_mul subset_rfl member⟩
    rintro rfl
    obtain ⟨c, _, rest, _, empty⟩ := mem_oneOf_mul_iff.mp member
    cases empty
  · rintro ⟨notEmpty, holds⟩
    obtain ⟨c, rest, rfl⟩ := List.exists_cons_of_ne_nil notEmpty
    rw [List.forall_mem_cons] at holds
    exact mem_oneOf_mul_iff.mpr ⟨c, holds.1, rest, mem_kstar_oneOf_iff.mpr holds.2, rfl⟩

variable {p : Char → Bool} (same : ∀ {c}, p c ↔ c ∈ chars)

include same

theorem takeWhile_mem_runOf {input : List Char} (notEmpty : input.takeWhile p ≠ []) :
    input.takeWhile p ∈ runOf chars :=
  mem_runOf_iff.mpr ⟨notEmpty, fun _ member => same.mp (List.mem_takeWhile_imp member)⟩

theorem takeWhile_mem_oneOf_mul (subset : starts ⊆ chars) {c : Char} (start : c ∈ starts)
    (rest : List Char) : (c :: rest).takeWhile p ∈ oneOf starts * (oneOf chars)∗ := by
  rw [List.takeWhile_cons_of_pos (same.mpr (subset start)), mem_oneOf_mul_iff]
  have inTails : rest.takeWhile p ∈ (oneOf chars)∗ :=
    mem_kstar_oneOf_iff.mpr fun _ member => same.mp (List.mem_takeWhile_imp member)
  exact ⟨c, start, _, inTails, rfl⟩

/-- A run that begins a text is part of the longest one. -/
theorem prefix_takeWhile_append (holds : ∀ c ∈ word, c ∈ chars) (rest : List Char) :
    word <+: (word ++ rest).takeWhile p := by
  rw [List.takeWhile_append_of_pos fun c member => same.mpr (holds c member)]
  exact List.prefix_append word _

end Runs

theorem nameStarts_subset : nameStarts ⊆ nameChars :=
  fun _ start => isWordChar_iff.mp (isWordChar_of_isWordStart (isWordStart_iff.mpr start))

/-! ## Languages -/

namespace Pattern

/-- The lexemes of a pattern, whatever stands behind them.  The end of a line cannot mark a line
comment. -/
def language : Pattern → Language Char
  | .whitespace => runOf blankChars
  | .lineComment marker => if marker = '\n' then 0 else oneOf {marker} * (oneOf lineChars)∗
  | .exact text => {text.toList}
  | .keyword text => {text.toList}
  | .identifier => oneOf nameStarts * (oneOf nameChars)∗
  | .digits => runOf digitChars
  | .decimal => runOf digitChars * (oneOf {'.'} * runOf digitChars)

/-- What may stand behind a lexeme of the pattern.  Only a keyword excludes anything: it does not
end where a name goes on. -/
def MayEndBefore (pattern : Pattern) (rest : List Char) : Prop :=
  ∀ text, pattern = .keyword text → ∀ c ∈ rest.head?, c ∉ nameChars

/-- The beginnings of a text that are in the language of a pattern and may end there. -/
def beginnings (pattern : Pattern) (text : String) : Set String :=
  {word | word.toList ∈ pattern.language ∧
    ∃ rest, text = word ++ rest ∧ pattern.MayEndBefore rest.toList}

variable {pattern : Pattern} {input word rest : List Char}

theorem mem_language_decimal_iff :
    word ∈ decimal.language ↔ ∃ whole ∈ runOf digitChars, ∃ fraction ∈ runOf digitChars,
      word = whole ++ '.' :: fraction := by
  rw [language, Language.mem_mul]
  constructor
  · rintro ⟨whole, isWhole, tail, inTails, rfl⟩
    obtain ⟨_, rfl, fraction, isFraction, rfl⟩ := mem_oneOf_mul_iff.mp inTails
    exact ⟨whole, isWhole, fraction, isFraction, rfl⟩
  · rintro ⟨whole, isWhole, fraction, isFraction, rfl⟩
    exact ⟨whole, isWhole, _, mem_oneOf_mul_iff.mpr ⟨'.', rfl, fraction, isFraction, rfl⟩, rfl⟩

/-! ## What is found is a lexeme -/

theorem decimalLexeme_mem_language (found : decimalLexeme input ≠ []) :
    decimalLexeme input ∈ decimal.language := by
  obtain ⟨whole, rest, rfl, digits, notEmpty, fraction⟩ :=
    exists_point_of_decimalLexeme_ne_nil found
  rw [decimalLexeme_at_point digits, if_pos ⟨notEmpty, fraction⟩, mem_language_decimal_iff]
  have isWhole : whole ∈ runOf digitChars :=
    mem_runOf_iff.mpr ⟨notEmpty, fun c member => isDigit_iff.mp (digits c member)⟩
  exact ⟨whole, isWhole, _, takeWhile_mem_runOf isDigit_iff fraction, rfl⟩

theorem lexeme_mem_language (found : pattern.lexeme input ≠ []) :
    pattern.lexeme input ∈ pattern.language := by
  cases pattern with
  | whitespace => exact takeWhile_mem_runOf isBlank_iff found
  | digits => exact takeWhile_mem_runOf isDigit_iff found
  | decimal => exact decimalLexeme_mem_language found
  | lineComment marker =>
      simp only [lexeme] at found ⊢
      split at found
      case isFalse => exact absurd rfl found
      case isTrue begins =>
        obtain ⟨rest, rfl⟩ := List.head?_eq_some_iff.mp begins
        have notNewline : marker ≠ '\n' := by
          rintro rfl
          exact found rfl
        have inLine : {marker} ⊆ lineChars := Set.singleton_subset_iff.mpr notNewline
        rw [if_pos begins, language, if_neg notNewline]
        exact takeWhile_mem_oneOf_mul ne_newline_iff inLine rfl rest
  | exact text =>
      simp only [lexeme] at found ⊢
      split at found
      case isTrue begins => rw [if_pos begins]; rfl
      case isFalse => exact absurd rfl found
  | keyword text =>
      rw [lexeme_keyword_eq found]
      rfl
  | identifier =>
      simp only [lexeme] at found ⊢
      split at found
      case isFalse => exact absurd rfl found
      case isTrue begins =>
        obtain ⟨c, head, start⟩ := (Option.any_eq_true _ _).mp begins
        obtain ⟨rest, rfl⟩ := List.head?_eq_some_iff.mp head
        rw [if_pos begins]
        exact takeWhile_mem_oneOf_mul isWordChar_iff nameStarts_subset
          (isWordStart_iff.mp start) rest

theorem mayEndBefore_drop_lexeme (found : pattern.lexeme input ≠ []) :
    pattern.MayEndBefore (input.drop (pattern.lexeme input).length) := by
  rintro text rfl c head inName
  rw [lexeme_keyword_eq found] at head
  simp only [lexeme] at found
  split at found
  case isTrue begins =>
    refine begins.2 ?_
    rw [Option.mem_def.mp head]
    exact isWordChar_iff.mpr inName
  case isFalse => exact absurd rfl found

/-! ## Nothing longer is a lexeme -/

theorem decimalLexeme_eq_of_mem_language (member : word ∈ decimal.language) :
    decimalLexeme word = word := by
  obtain ⟨whole, isWhole, fraction, isFraction, rfl⟩ := mem_language_decimal_iff.mp member
  rw [mem_runOf_iff] at isWhole isFraction
  have run : fraction.takeWhile Char.isDigit = fraction :=
    List.takeWhile_eq_self_iff.mpr fun c inside => isDigit_iff.mpr (isFraction.2 c inside)
  rw [decimalLexeme_at_point fun c inside => isDigit_iff.mpr (isWhole.2 c inside), run,
    if_pos ⟨isWhole.1, isFraction.1⟩]

/-- A word of the pattern that may end where it does is part of the lexeme that is found. -/
theorem prefix_lexeme_append (member : word ∈ pattern.language)
    (mayEnd : pattern.MayEndBefore rest) : word <+: pattern.lexeme (word ++ rest) := by
  cases pattern with
  | whitespace =>
      exact prefix_takeWhile_append isBlank_iff (mem_runOf_iff.mp member).2 rest
  | digits => exact prefix_takeWhile_append isDigit_iff (mem_runOf_iff.mp member).2 rest
  | decimal =>
      -- More text can only lengthen the fraction.
      have longer := decimalLexeme_prefix_append word rest
      rwa [decimalLexeme_eq_of_mem_language member] at longer
  | lineComment marker =>
      rw [language] at member
      split at member
      case isTrue => exact absurd member (Language.notMem_zero word)
      case isFalse notNewline =>
        have inLine : {marker} ⊆ lineChars := Set.singleton_subset_iff.mpr notNewline
        obtain ⟨_, rfl, head⟩ := exists_head?_of_mem_oneOf_mul member rest
        rw [lexeme, if_pos head]
        exact prefix_takeWhile_append ne_newline_iff
          (forall_mem_of_mem_oneOf_mul inLine member) rest
  | exact text =>
      cases Set.mem_singleton_iff.mp member
      have begins : text.toList <+: text.toList ++ rest := List.prefix_append _ rest
      rw [lexeme, if_pos (List.isPrefixOf_iff_prefix.mpr begins)]
  | keyword text =>
      cases Set.mem_singleton_iff.mp member
      have begins : text.toList <+: text.toList ++ rest := List.prefix_append _ rest
      have stops : ¬((text.toList ++ rest).drop text.toList.length).head?.any isWordChar := by
        rw [List.drop_left, Option.any_eq_true]
        rintro ⟨c, head, goesOn⟩
        exact mayEnd text rfl c head (isWordChar_iff.mp goesOn)
      rw [lexeme, if_pos ⟨List.isPrefixOf_iff_prefix.mpr begins, stops⟩]
  | identifier =>
      obtain ⟨c, start, head⟩ := exists_head?_of_mem_oneOf_mul member rest
      rw [lexeme, head, Option.any_some, if_pos (isWordStart_iff.mpr start)]
      exact prefix_takeWhile_append isWordChar_iff
        (forall_mem_of_mem_oneOf_mul nameStarts_subset member) rest

/-! ## The longest lexeme in bytes -/

variable {text : String}

theorem lexeme_mem_beginnings (found : pattern.lexeme text.toList ≠ []) :
    String.ofList (pattern.lexeme text.toList) ∈ pattern.beginnings text := by
  let behind := text.toList.drop (pattern.lexeme text.toList).length
  refine ⟨?_, String.ofList behind, ?_, ?_⟩
  · rw [String.toList_ofList]
    exact lexeme_mem_language found
  · rw [← String.ofList_append, pattern.lexeme_append_drop, String.ofList_toList]
  · rw [String.toList_ofList]
    exact mayEndBefore_drop_lexeme found

theorem prefix_lexeme_of_mem_beginnings {beginning : String}
    (member : beginning ∈ pattern.beginnings text) :
    beginning.toList <+: pattern.lexeme text.toList := by
  obtain ⟨inLanguage, rest, rfl, mayEnd⟩ := member
  rw [String.toList_append]
  exact prefix_lexeme_append inLanguage mayEnd

/-- The lexeme that is found has the most bytes of all beginnings in the language. -/
theorem isGreatest_size_lexeme (found : pattern.lexeme text.toList ≠ []) :
    IsGreatest (String.utf8ByteSize '' pattern.beginnings text)
      (utf8Length (pattern.lexeme text.toList)) := by
  constructor
  · exact ⟨_, lexeme_mem_beginnings found, (utf8Length_eq_utf8ByteSize_ofList _).symm⟩
  · rintro _ ⟨beginning, member, rfl⟩
    rw [← utf8Length_toList]
    exact utf8Length_le_of_prefix (prefix_lexeme_of_mem_beginnings member)

theorem lexeme_ne_nil_iff :
    pattern.lexeme text.toList ≠ [] ↔ ∃ beginning ∈ pattern.beginnings text, beginning ≠ "" := by
  constructor
  · intro found
    refine ⟨_, lexeme_mem_beginnings found, ?_⟩
    simpa using found
  · rintro ⟨beginning, member, notEmpty⟩ missing
    have begins := prefix_lexeme_of_mem_beginnings member
    rw [missing, List.prefix_nil, String.toList_eq_nil_iff] at begins
    exact notEmpty begins

/-- A pattern without a lexeme that takes up room never matches. -/
theorem matchLength?_eq_none_of_language_le (onlyEmpty : pattern.language ≤ 1)
    (input : List Char) : pattern.matchLength? input = none := by
  rw [matchLength?_eq_none_iff]
  by_contra found
  exact found ((Language.mem_one _).mp (onlyEmpty (lexeme_mem_language found)))

theorem matchLength?_eq_some_iff_isGreatest {length : Nat} :
    pattern.matchLength? text.toList = some length ↔
      0 < length ∧ String.Pos.Raw.IsValid text ⟨length⟩ ∧
        IsGreatest (String.utf8ByteSize '' pattern.beginnings text) length := by
  rw [matchLength?_eq_some_iff]
  constructor
  · rintro ⟨found, rfl⟩
    have greatest := isGreatest_size_lexeme found
    refine ⟨utf8Length_pos found, ?_, greatest⟩
    obtain ⟨beginning, ⟨_, rest, parts, _⟩, size⟩ := greatest.1
    rw [String.Pos.Raw.isValid_iff_exists_append, ← size]
    exact ⟨beginning, rest, parts, rfl⟩
  · rintro ⟨positive, _, greatest⟩
    obtain ⟨beginning, member, size⟩ := greatest.1
    have notEmpty : beginning ≠ "" := by
      rintro rfl
      exact positive.ne size
    have found := lexeme_ne_nil_iff.mpr ⟨beginning, member, notEmpty⟩
    exact ⟨found, (isGreatest_size_lexeme found).unique greatest⟩

/-- A pattern matches at the head of a text exactly if the text has a beginning in its language
that is not empty.  What it reports then is the size in bytes of the longest such beginning, and
the text can be cut there.  A fixed text without characters matches nowhere, nor does a line
comment that the end of a line would mark. -/
theorem finds_longest_beginning (text : String) :
    (∀ pattern : Pattern,
      ((∃ length, pattern.matchLength? text.toList = some length ∧ 0 < length) ↔
        ∃ beginning ∈ pattern.beginnings text, beginning ≠ "") ∧
      ∀ length, pattern.matchLength? text.toList = some length ↔
        0 < length ∧ String.Pos.Raw.IsValid text ⟨length⟩ ∧
          IsGreatest (String.utf8ByteSize '' pattern.beginnings text) length) ∧
    (exact "").matchLength? text.toList = none ∧
    (keyword "").matchLength? text.toList = none ∧
    (lineComment '\n').matchLength? text.toList = none := by
  refine ⟨fun pattern => ⟨?_, fun length => matchLength?_eq_some_iff_isGreatest⟩, ?_, ?_, ?_⟩
  · rw [← lexeme_ne_nil_iff]
    constructor
    · rintro ⟨length, isMatch, _⟩
      exact (matchLength?_eq_some_iff.mp isMatch).1
    · intro found
      exact ⟨_, matchLength?_eq_some_iff.mpr ⟨found, rfl⟩, utf8Length_pos found⟩
  · exact matchLength?_eq_none_of_language_le le_rfl text.toList
  · exact matchLength?_eq_none_of_language_le le_rfl text.toList
  · have noWord : (lineComment '\n').language ≤ 1 := by
      rw [language, if_pos rfl]
      exact zero_le
    exact matchLength?_eq_none_of_language_le noWord text.toList

-- The marker and a character of the comment take two bytes each.
example : (lineComment '¶').matchLength? "¶ é\nx".toList = some 5 := by decide

end Pattern

end WhileLang
