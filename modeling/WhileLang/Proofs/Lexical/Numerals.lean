import Mathlib
import WhileLang.Proofs.Lexical.SpacedLexemes
import WhileLang.Proofs.Lexical.TokenPlaces

/-!
# Numerals before they are read

The stream of a text yields numbers as text.  In the language such a text is a run of digits
or two runs with a point between them, and the class of the token says which.  Two runs with
a point are read whatever they are.  One run is read unless the number that it denotes is
too large, however many zeros it begins with.
-/

namespace WhileLang

/-! ## Decimals -/

theorem exists_digitRuns_of_decimalLexeme_ne_nil {input : List Char}
    (notEmpty : decimalLexeme input ≠ []) :
    ∃ whole fraction : DigitRun,
      decimalLexeme input = whole.chars ++ '.' :: fraction.chars := by
  obtain ⟨whole, rest, rfl, digits, someWhole, someFraction⟩ :=
    exists_point_of_decimalLexeme_ne_nil notEmpty
  refine ⟨⟨whole, someWhole, digits⟩, ⟨rest.takeWhile Char.isDigit, someFraction, ?_⟩, ?_⟩
  · exact fun c member => List.mem_takeWhile_imp member
  · rw [decimalLexeme_at_point digits, if_pos ⟨someWhole, someFraction⟩]

/-- No decimal is read as an integer: either the digits before the point are too many, or the
reader stops at the point. -/
theorem Decimal.exists_readInteger_decimal_eq_error (whole fraction : DigitRun) :
    ∃ fault, readInteger (whole.chars ++ '.' :: fraction.chars) = .error fault := by
  have notAll : (whole.chars ++ '.' :: fraction.chars).all Char.isDigit = false := by
    simp [show Char.isDigit '.' = false by decide]
  obtain ⟨c, more, same, digit⟩ := whole.exists_cons
  rw [same, List.cons_append] at notAll ⊢
  rw [readInteger_eq_readNonnegative digit, readNonnegative, readDigits, notAll]
  split
  · exact ⟨_, rfl⟩
  · exact ⟨_, rfl⟩

/-! ## Tokens that still hold their text -/

/-- The token is no number, or it is one of the language that has not been read. -/
inductive Token.IsUnread (raw : Token) : Prop
  | other (notNumber : raw.category ≠ .number) (notInt : raw.subcategory ≠ some .int)
      (notFloat : raw.subcategory ≠ some .float)
  | integer {digits : DigitRun} (value : raw.value = .text (String.ofList digits.chars))
      (isClass : raw.toTokenClass = integerClass)
  | decimal {whole fraction : DigitRun}
      (value : raw.value = .text (String.ofList (whole.chars ++ '.' :: fraction.chars)))
      (isClass : raw.toTokenClass = floatClass)

namespace Token

variable {raw : Token}

theorem IsUnread.of_segment {input : List Char} {segment : Segment} {offset : Nat}
    (found : Grammar.standard.segment? input = some segment)
    (yields : segment.token? offset = some raw) : raw.IsUnread := by
  have notEmpty := Grammar.segment?_lexeme_ne_nil found
  rcases Option.map_eq_some_iff.mp yields with ⟨tokenClass, classed, rfl⟩
  rcases Grammar.lexeme_cases found classed with
    fixed | ⟨isName, rfl⟩ | ⟨digits, rfl⟩ | ⟨isDecimal, rfl⟩
  · have noNumeral : ∀ entry ∈ Grammar.standard.fixedTokens, entry.2.category ≠ .number ∧
        entry.2.subcategory ≠ some .int ∧ entry.2.subcategory ≠ some .float := by decide
    obtain ⟨notNumber, notInt, notFloat⟩ := noNumeral _ fixed
    exact .other notNumber notInt notFloat
  · exact .other (by simp [nameClass]) (by simp [nameClass]) (by simp [nameClass])
  · exact @IsUnread.integer _ ⟨segment.lexeme, notEmpty, digits⟩ rfl rfl
  · rw [isDecimal] at notEmpty
    obtain ⟨whole, fraction, spelled⟩ := exists_digitRuns_of_decimalLexeme_ne_nil notEmpty
    exact .decimal (by rw [isDecimal, spelled]) rfl

/-- The stream of a text yields numbers of the language that have not been read. -/
theorem isUnread_of_mem_placeTokens {text : String}
    (member : raw ∈ placeTokens (Grammar.standard.segmentation text.toList).segments 0) :
    raw.IsUnread := by
  obtain ⟨segment, inSegments, offset, yields⟩ := mem_placeTokens member
  obtain ⟨input, found⟩ := Grammar.mem_segmentation inSegments
  exact .of_segment found yields

/-! ## Reading them -/

/-- A run of digits is read as the integer that it denotes unless this is too large. -/
theorem readNumeral_digits {digits : DigitRun}
    (value : raw.value = .text (String.ofList digits.chars))
    (isClass : raw.toTokenClass = integerClass) :
    raw.readNumeral =
      if digits.value < 2 ^ 63 then
        .ok { raw with value := .int (Int64.ofInt digits.value) }
      else
        .error (.invalidInteger (String.ofList digits.chars) .tooLarge raw.span) := by
  have isInt : raw.subcategory = some .int := congrArg TokenClass.subcategory isClass
  have reads : Decimal.readInteger digits.chars =
      if digits.value < 2 ^ 63 then .ok (Int64.ofInt digits.value) else .error .tooLarge :=
    Decimal.readInteger_digits digits.notEmpty digits.isDigit
  simp only [readNumeral, value, isInt, String.toList_ofList, reads]
  split_ifs
  · rfl
  · rfl

/-- A decimal is read, as the binary64 number nearest to it. -/
theorem readNumeral_decimal {whole fraction : DigitRun}
    (value : raw.value = .text (String.ofList (whole.chars ++ '.' :: fraction.chars)))
    (isClass : raw.toTokenClass = floatClass) :
    raw.readNumeral =
      .ok { raw with
        value := .float (Decimal.nearestFloat
          (Decimal.natOfDigits (whole.chars ++ fraction.chars)) (-fraction.chars.length)) } := by
  have isFloat : raw.subcategory = some .float := congrArg TokenClass.subcategory isClass
  simp only [readNumeral, value, isFloat, String.toList_ofList, Decimal.readFloat_decimal]

/-- The only numbers that cannot be read are integers that are too large. -/
theorem IsUnread.readNumeral_eq_error_iff (unread : raw.IsUnread) {error : LexError} :
    raw.readNumeral = .error error ↔
      ∃ digits : DigitRun, raw.toTokenClass = integerClass ∧
        raw.value = .text (String.ofList digits.chars) ∧ 2 ^ 63 ≤ digits.value ∧
          error = .invalidInteger (String.ofList digits.chars) .tooLarge raw.span := by
  constructor
  · intro fails
    cases unread with
    | other _ notInt notFloat =>
        rw [readNumeral_eq_self notInt notFloat] at fails
        cases fails
    | integer value isClass =>
        rw [readNumeral_digits value isClass] at fails
        split_ifs at fails with fits
        cases fails
        exact ⟨_, isClass, value, Nat.not_lt.mp fits, rfl⟩
    | decimal value isClass =>
        rw [readNumeral_decimal value isClass] at fails
        cases fails
  · rintro ⟨digits, isClass, value, tooLarge, rfl⟩
    rw [readNumeral_digits value isClass, if_neg (Nat.not_lt.mpr tooLarge)]

end Token

/-- A text that is made of tokens: its stream yields tokens that have not been read, the mark
of the end last, and they are read one by one. -/
theorem Grammar.exists_unread_of_tokenize_eq_ok {text : String} {tokens : List Token}
    (lexes : standard.tokenize text = .ok tokens) :
    ∃ raws, (∀ call, (Lexer.ofText standard text).item? call = (raws.map .ok)[call]?) ∧
      List.Forall₂ (fun raw token => raw.IsUnread ∧ raw.readNumeral = .ok token) raws tokens := by
  obtain ⟨notStuck, words, reads, rfl⟩ := tokenize_eq_ok_iff.mp lexes
  have items := (Lexer.isLossless_placeTokens standard text).items
  rw [notStuck, lastItem] at items
  refine ⟨placeTokens (standard.segmentation text.toList).segments 0 ++
    [.endOfInput (segmentsSize (standard.segmentation text.toList).segments)], ?_, ?_⟩
  · intro call
    rw [items, List.map_append, List.map_singleton]
  · have isMark : ∀ offset, (Token.endOfInput offset).IsUnread := fun offset =>
      .other (by simp [Token.endOfInput]) (by simp [Token.endOfInput]) (by simp [Token.endOfInput])
    refine List.rel_append ?_ (.cons ⟨isMark _, rfl⟩ .nil)
    exact (List.forall₂_and_left _ _).mpr ⟨fun _ => Token.isUnread_of_mem_placeTokens, reads⟩

end WhileLang
