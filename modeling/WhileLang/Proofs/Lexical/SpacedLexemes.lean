import Mathlib
import WhileLang.Proofs.Lexical.Layout

/-!
# Lexemes with trivia between them

A text can be written from any lexemes of the language, if there is some white space or a
comment between any two of them.  Lexing takes the text apart again: every lexeme becomes
one token, which stands where the lexeme was written, has the class that the language gives
to the lexeme and holds its text or the number that it denotes.

A lexeme carries what makes it one.  It could still be found together with what stands
behind it or be cut short by an earlier rule.  It is not, since the first character of
trivia is a separator, and up to a separator a text is cut as if it ended there.
-/

namespace WhileLang

/-! ## Lexemes -/

/-- A run of decimal digits. -/
structure DigitRun where
  chars : List Char
  notEmpty : chars ≠ []
  isDigit : ∀ c ∈ chars, c.isDigit

/-- The number that the digits denote, leading zeros included. -/
def DigitRun.value (digits : DigitRun) : Nat :=
  Decimal.natOfDigits digits.chars

/-- A text that is one token of the language: a fixed word or sign with the class of its
rule, a name, an integer that fits into a word, or a decimal with digits on both sides of
the point. -/
inductive Lexeme where
  | fixed (text : String) (tokenClass : TokenClass)
      (listed : (text, tokenClass) ∈ Grammar.standard.fixedTokens)
  | name (text : String) (isName : IsName text)
  | integer (digits : DigitRun) (bounded : digits.value < Nat.pow 2 63)
  | decimal (whole fraction : DigitRun)

namespace Lexeme

/-- The characters of a lexeme. -/
def spelling : Lexeme → List Char
  | .fixed text _ _ => text.toList
  | .name text _ => text.toList
  | .integer digits _ => digits.chars
  | .decimal whole fraction => whole.chars ++ '.' :: fraction.chars

/-- The class that the language gives to a lexeme. -/
def tokenClass : Lexeme → TokenClass
  | .fixed _ tokenClass _ => tokenClass
  | .name _ _ => nameClass
  | .integer _ _ => integerClass
  | .decimal _ _ => floatClass

/-- What a lexeme stands for.  A decimal stands for the binary64 number nearest to it. -/
def value : Lexeme → TokenValue
  | .fixed text _ _ => .text text
  | .name text _ => .text text
  | .integer digits _ => .int (Int64.ofInt digits.value)
  | .decimal whole fraction =>
      .float (Decimal.nearestFloat (Decimal.natOfDigits (whole.chars ++ fraction.chars))
        (-fraction.chars.length))

/-- The token of a lexeme that is written at a byte offset. -/
def tokenAt (lexeme : Lexeme) (offset : Nat) : Token :=
  { lexeme.tokenClass with
    value := lexeme.value
    span := ⟨offset, utf8Length lexeme.spelling⟩ }

end Lexeme

/-! ## Decimals -/

theorem DigitRun.exists_cons (digits : DigitRun) :
    ∃ c more, digits.chars = c :: more ∧ c.isDigit := by
  obtain ⟨c, more, same⟩ := List.exists_cons_of_ne_nil digits.notEmpty
  exact ⟨c, more, same, digits.isDigit c (by simp [same])⟩

theorem DigitRun.takeWhile_isDigit (digits : DigitRun) :
    digits.chars.takeWhile Char.isDigit = digits.chars :=
  List.takeWhile_eq_self_iff.mpr digits.isDigit

theorem DigitRun.dropWhile_isDigit (digits : DigitRun) :
    digits.chars.dropWhile Char.isDigit = [] :=
  List.dropWhile_eq_nil_iff.mpr digits.isDigit

/-- A decimal alone is cut as a whole by the rule of decimals. -/
theorem Grammar.segment?_decimal (whole fraction : DigitRun) :
    standard.segment? (whole.chars ++ '.' :: fraction.chars) =
      some ⟨⟨.decimal, some floatClass⟩, whole.chars ++ '.' :: fraction.chars⟩ := by
  obtain ⟨before, misses, rules⟩ := standard_rules_numerals
  have lexeme : Pattern.decimal.lexeme (whole.chars ++ '.' :: fraction.chars) =
      whole.chars ++ '.' :: fraction.chars := by
    rw [Pattern.lexeme, decimalLexeme_at_point whole.isDigit, fraction.takeWhile_isDigit,
      if_pos ⟨whole.notEmpty, fraction.notEmpty⟩]
  have found : standard.find? (whole.chars ++ '.' :: fraction.chars) =
      some ⟨.decimal, some floatClass⟩ := by
    refine find?_of_append rules ?_ (by simp [lexeme])
    intro rule member
    obtain ⟨missesDigits, notDecimal⟩ := misses rule member
    obtain ⟨c, more, same, digit⟩ := whole.exists_cons
    rw [same]
    exact Pattern.lexeme_eq_nil_of_isDigit missesDigits notDecimal digit _
  simp only [segment?, found, Option.map_some, lexeme]

/-- Every decimal is read. -/
theorem Decimal.readFloat_decimal (whole fraction : DigitRun) :
    readFloat (whole.chars ++ '.' :: fraction.chars) =
      .ok (nearestFloat (natOfDigits (whole.chars ++ fraction.chars))
        (-fraction.chars.length)) := by
  obtain ⟨c, more, same, digit⟩ := whole.exists_cons
  have point : Char.isDigit '.' = false := by decide
  have unsigned : readUnsigned? (whole.chars ++ '.' :: fraction.chars) =
      some (nearestFloat (natOfDigits (whole.chars ++ fraction.chars))
        (-fraction.chars.length)) := by
    simp [readUnsigned?, readDecimal?, splitFraction, takeWhile_append_cons_of_stops point,
      dropWhile_append_cons_of_stops point, whole.takeWhile_isDigit, whole.dropWhile_isDigit,
      fraction.takeWhile_isDigit, fraction.dropWhile_isDigit, whole.notEmpty, readExponent?]
  rw [same, List.cons_append] at unsigned ⊢
  unfold readFloat
  split
  next empty => cases empty
  next plus =>
    rw [(List.cons.inj plus).1] at digit
    exact absurd digit (by decide)
  next minus =>
    rw [(List.cons.inj minus).1] at digit
    exact absurd digit (by decide)
  next => rw [unsigned, Option.elim_some]

/-! ## One lexeme -/

namespace Lexeme

/-- A lexeme alone is cut as a whole by a rule that gives it its class. -/
theorem segment?_spelling (lexeme : Lexeme) :
    ∃ rule, Grammar.standard.segment? lexeme.spelling = some ⟨rule, lexeme.spelling⟩ ∧
      rule.tokenClass = some lexeme.tokenClass := by
  cases lexeme with
  | fixed text tokenClass listed => exact Grammar.segment?_of_mem_fixedTokens listed
  | name text isName => exact ⟨_, Grammar.segment?_of_isName isName, rfl⟩
  | integer digits bounded =>
      exact ⟨_, Grammar.segment?_of_isDigit digits.notEmpty digits.isDigit, rfl⟩
  | decimal whole fraction => exact ⟨_, Grammar.segment?_decimal whole fraction, rfl⟩

/-- A lexeme begins with a character that is no separator. -/
theorem exists_cons (lexeme : Lexeme) :
    ∃ c more, lexeme.spelling = c :: more ∧ isSeparator c = false := by
  have ofWord {c : Char} (word : isWordChar c) : isSeparator c = false := by
    by_contra separates
    have notWord := (isWordChar_eq_false_of_isSeparator (Bool.not_eq_false _ ▸ separates)).1
    rw [word] at notWord
    cases notWord
  have ofDigit {c : Char} (digit : c.isDigit) : isSeparator c = false :=
    ofWord (by simp [isWordChar, Char.isAlphanum, digit])
  cases lexeme with
  | fixed text tokenClass listed =>
      obtain ⟨c, more, same, compact⟩ := (isWord_of_mem_fixedTokens listed).exists_cons
      exact ⟨c, more, same, by simp [isSeparator, compact]⟩
  | name text isName =>
      obtain ⟨c, more, same⟩ := List.exists_cons_of_ne_nil isName.toList_ne_nil
      exact ⟨c, more, same, ofWord (isName.word c (by simp [same]))⟩
  | integer digits bounded =>
      obtain ⟨c, more, same, digit⟩ := digits.exists_cons
      exact ⟨c, more, same, ofDigit digit⟩
  | decimal whole fraction =>
      obtain ⟨c, more, same, digit⟩ := whole.exists_cons
      exact ⟨c, more ++ '.' :: fraction.chars, by rw [spelling, same, List.cons_append],
        ofDigit digit⟩

/-- The token that a lexeme yields is read as the token of what the lexeme stands for. -/
theorem readNumeral_spelling (lexeme : Lexeme) (offset : Nat) :
    Token.readNumeral ⟨lexeme.tokenClass, .text (String.ofList lexeme.spelling),
      ⟨offset, utf8Length lexeme.spelling⟩⟩ = .ok (lexeme.tokenAt offset) := by
  cases lexeme with
  | fixed text tokenClass listed =>
      simp only [spelling, String.ofList_toList]
      exact Token.readNumeral_of_mem_fixedTokens listed _ _
  | name text isName =>
      simp only [spelling, String.ofList_toList]
      rfl
  | integer digits bounded =>
      simp only [Token.readNumeral, Lexeme.tokenClass, integerClass, spelling,
        String.toList_ofList, Decimal.readInteger_of_isDigit digits.notEmpty digits.isDigit bounded]
      rfl
  | decimal whole fraction =>
      simp only [Token.readNumeral, Lexeme.tokenClass, floatClass, spelling,
        String.toList_ofList, Decimal.readFloat_decimal]
      rfl

end Lexeme

/-! ## Lexemes in a row -/

/-- The tokens of a text that begins at a byte offset, with their numerals read. -/
def Grammar.tokenizeFrom (grammar : Grammar) (input : List Char) (offset : Nat) :
    Except LexError (List Token) :=
  (grammar.rawTokensFrom input offset).bind fun tokens => tokens.mapM Token.readNumeral

theorem Grammar.tokenize_eq_tokenizeFrom (grammar : Grammar) (text : String) :
    grammar.tokenize text = grammar.tokenizeFrom text.toList 0 := by
  rw [tokenize, rawTokens_eq_rawTokensFrom, tokenizeFrom]

theorem Grammar.tokenizeFrom_nil (grammar : Grammar) (offset : Nat) :
    grammar.tokenizeFrom [] offset = .ok [.endOfInput offset] := by
  rw [tokenizeFrom, rawTokensFrom_of_segment?_eq_none grammar.segment?_nil]
  rfl

theorem IsTrivia.tokenizeFrom_append {trivia : List Char} (isTrivia : IsTrivia trivia)
    (rest : List Char) (offset : Nat) :
    Grammar.standard.tokenizeFrom (trivia ++ rest) offset =
      Grammar.standard.tokenizeFrom rest (offset + utf8Length trivia) := by
  rw [Grammar.tokenizeFrom, isTrivia.isSkipped, Grammar.tokenizeFrom]

/-- Where the text ends or a separator stands behind a lexeme, the lexeme is the next token. -/
theorem Lexeme.tokenizeFrom_append (lexeme : Lexeme) {rest : List Char}
    (ended : ∀ c ∈ rest.head?, isSeparator c) (offset : Nat) :
    Grammar.standard.tokenizeFrom (lexeme.spelling ++ rest) offset =
      (Grammar.standard.tokenizeFrom rest (offset + utf8Length lexeme.spelling)).map
        (lexeme.tokenAt offset :: ·) := by
  obtain ⟨rule, alone, classed⟩ := lexeme.segment?_spelling
  have found : Grammar.standard.segment? (lexeme.spelling ++ rest) =
      some ⟨rule, lexeme.spelling⟩ := by
    cases rest with
    | nil => rwa [List.append_nil]
    | cons separator others =>
        obtain ⟨c, more, same, begins⟩ := lexeme.exists_cons
        rw [same] at alone ⊢
        rw [Grammar.segment?_append_separator (ended separator rfl) begins, alone]
  rw [Grammar.tokenizeFrom, Grammar.rawTokensFrom_of_segment?_eq_some found rfl,
    Grammar.tokenizeFrom]
  simp only [Segment.token?, Segment.size, classed, Option.map_some, Option.toList_some]
  cases Grammar.standard.rawTokensFrom rest (offset + utf8Length lexeme.spelling) with
  | error error => rfl
  | ok tokens =>
      simp only [Except.map, Except.bind, List.singleton_append, List.mapM_cons,
        lexeme.readNumeral_spelling]
      rfl

/-- White space and whole comments. -/
structure Trivia where
  chars : List Char
  isTrivia : IsTrivia chars

/-- The text of lexemes, each with trivia behind it. -/
def spacedText : List (Lexeme × Trivia) → List Char
  | [] => []
  | (lexeme, trivia) :: rest => lexeme.spelling ++ (trivia.chars ++ spacedText rest)

/-- The tokens of lexemes that are written from a byte offset on, each with trivia behind
it. -/
def spacedTokens : List (Lexeme × Trivia) → Nat → List Token
  | [], _ => []
  | (lexeme, trivia) :: rest, offset =>
      lexeme.tokenAt offset ::
        spacedTokens rest (offset + utf8Length lexeme.spelling + utf8Length trivia.chars)

/-- Only behind the last lexeme the trivia can be empty, so a separator or the end of the
text stands behind each. -/
theorem isSeparator_head?_spacedText {lexeme : Lexeme} {trivia : Trivia}
    {rest : List (Lexeme × Trivia)}
    (spaced : ∀ entry ∈ ((lexeme, trivia) :: rest).dropLast, entry.2.chars ≠ []) :
    ∀ c ∈ (trivia.chars ++ spacedText rest).head?, isSeparator c := by
  intro c head
  rcases trivia with ⟨chars, isTrivia⟩
  cases chars with
  | cons first others =>
      obtain rfl : first = c := Option.some.inj head
      exact isTrivia.isSeparator
  | nil =>
      cases rest with
      | nil => cases head
      | cons next rest => exact absurd rfl (spaced _ List.mem_cons_self)

theorem tokenizeFrom_spacedText {written : List (Lexeme × Trivia)}
    (spaced : ∀ entry ∈ written.dropLast, entry.2.chars ≠ []) (offset : Nat) :
    Grammar.standard.tokenizeFrom (spacedText written) offset =
      .ok (spacedTokens written offset ++
        [.endOfInput (offset + utf8Length (spacedText written))]) := by
  induction written generalizing offset with
  | nil => exact Grammar.tokenizeFrom_nil _ _
  | cons entry rest ih =>
      obtain ⟨lexeme, trivia⟩ := entry
      have spacedRest : ∀ other ∈ rest.dropLast, other.2.chars ≠ [] := by
        intro other member
        cases rest with
        | nil => cases member
        | cons next rest => exact spaced other (List.mem_cons_of_mem _ member)
      rw [spacedText, lexeme.tokenizeFrom_append (isSeparator_head?_spacedText spaced),
        trivia.isTrivia.tokenizeFrom_append, ih spacedRest, spacedTokens]
      simp only [Except.map, List.cons_append, utf8Length_append, Nat.add_assoc]

/-- Lexing undoes writing.  Lexemes that are written with trivia between any two of them,
and with any trivia or none before the first and behind the last, are read back one by one,
and behind them there is only the end of the input. -/
theorem tokenize_spacedText (before : Trivia) {written : List (Lexeme × Trivia)}
    (spaced : ∀ entry ∈ written.dropLast, entry.2.chars ≠ []) :
    Grammar.standard.tokenize (String.ofList (before.chars ++ spacedText written)) =
      .ok (spacedTokens written (utf8Length before.chars) ++
        [.endOfInput (utf8Length (before.chars ++ spacedText written))]) := by
  rw [Grammar.tokenize_eq_tokenizeFrom, String.toList_ofList, before.isTrivia.tokenizeFrom_append,
    Nat.zero_add, tokenizeFrom_spacedText spaced, utf8Length_append]

/-- A comparison over several lines: the name begins with a reserved word, the numerals have
leading zeros, and a comment stands right behind an operator. -/
def spacedComparison : List (Lexeme × Trivia) :=
  [(.name "done_1" (by decide), ⟨['\t'], .blank rfl .nil⟩),
    (.fixed "<=" ⟨.reserved, some .operator, 2⟩ (by decide),
      ⟨'#' :: [' ', '='] ++ ['\n'], .comment (by decide) .nil⟩),
    (.integer ⟨['0', '0', '7'], by simp, by simp⟩ (by decide), ⟨[' '], .blank rfl .nil⟩),
    (.fixed "or" ⟨.reserved, some .operator, 1⟩ (by decide),
      ⟨['\r', '\n'], .blank rfl (.blank rfl .nil)⟩),
    (.decimal ⟨['0', '2'], by simp, by simp⟩ ⟨['5', '0'], by simp, by simp⟩, ⟨[], .nil⟩)]

/-- The comparison is read back as it was written. -/
theorem tokenize_spacedComparison :
    (∀ entry ∈ spacedComparison.dropLast, entry.2.chars ≠ []) ∧
      Grammar.standard.tokenize "#\ndone_1\t<=# =\n007 or\r\n02.50" =
        .ok [⟨nameClass, .text "done_1", ⟨2, 6⟩⟩,
          ⟨⟨.reserved, some .operator, 2⟩, .text "<=", ⟨9, 2⟩⟩,
          ⟨integerClass, .int 7, ⟨15, 3⟩⟩,
          ⟨⟨.reserved, some .operator, 1⟩, .text "or", ⟨19, 2⟩⟩,
          ⟨floatClass, .float 2.5, ⟨23, 5⟩⟩, .endOfInput 28] := by
  have spaced : ∀ entry ∈ spacedComparison.dropLast, entry.2.chars ≠ [] := by
    simp [spacedComparison]
  have text : "#\ndone_1\t<=# =\n007 or\r\n02.50" =
      String.ofList ('#' :: [] ++ ['\n'] ++ spacedText spacedComparison) := by decide +kernel
  refine ⟨spaced, ?_⟩
  rw [text, tokenize_spacedText ⟨'#' :: [] ++ ['\n'], .comment (by decide) .nil⟩ spaced]
  decide +kernel

end WhileLang
