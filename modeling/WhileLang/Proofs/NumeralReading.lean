import Mathlib
import WhileLang.Diagnostic
import WhileLang.Proofs.Lexical.Numerals
import WhileLang.Proofs.Parsing.Likeness

/-!
# Numbers read before parsing and while parsing

A number can reach the parser as text, which is read when the leaf for it is made, or it can
have been read before.  The two readings are not the same.  Before parsing, the class of a
token decides what its text is read as.  In the parser the text is an integer whenever it can
be read as one.  On the tokens of the language they come to the same, since no decimal can be
read as an integer, and an integer that cannot be read does not get as far as the parser.
-/

namespace WhileLang

/-- Errors that are alike are reported alike, up to the message. -/
theorem SyntaxError.IsLike.diagnostic_eq {error error' : SyntaxError}
    (alike : error.IsLike error') :
    error'.diagnostic = { error.diagnostic with message := error'.message } := by
  cases alike with
  | same => cases error <;> rfl
  | expected => rfl

namespace Token

variable {raw token : Token}

theorem numberLeaf_digits {digits : DigitRun}
    (value : raw.value = .text (String.ofList digits.chars)) (fits : digits.value < 2 ^ 63) :
    numberLeaf raw = .ok (.integer (Int64.ofInt digits.value)) := by
  have reads : Decimal.readInteger digits.chars = .ok (Int64.ofInt digits.value) :=
    Decimal.readInteger_of_isDigit digits.notEmpty digits.isDigit fits
  simp only [numberLeaf, value, String.toList_ofList, reads]

theorem numberLeaf_decimal {whole fraction : DigitRun}
    (value : raw.value = .text (String.ofList (whole.chars ++ '.' :: fraction.chars))) :
    numberLeaf raw = .ok (.float (Decimal.nearestFloat
      (Decimal.natOfDigits (whole.chars ++ fraction.chars)) (-fraction.chars.length))) := by
  obtain ⟨fault, notInteger⟩ := Decimal.exists_readInteger_decimal_eq_error whole fraction
  simp only [numberLeaf, value, String.toList_ofList, notInteger, Decimal.readFloat_decimal]

/-- The parser cannot tell a number that has been read from its text. -/
theorem IsUnread.isLike_of_readNumeral (unread : raw.IsUnread)
    (reads : raw.readNumeral = .ok token) : raw.IsLike token := by
  cases unread with
  | other _ notInt notFloat =>
      rw [readNumeral_eq_self notInt notFloat] at reads
      cases reads
      exact .same raw
  | integer value isClass =>
      rw [readNumeral_digits value isClass] at reads
      split_ifs at reads with fits
      cases reads
      have isNumber : raw.category = .number := congrArg TokenClass.category isClass
      exact .number isNumber (by simp [isClass, integerClass]) (numberLeaf_digits value fits) rfl
  | decimal value isClass =>
      rw [readNumeral_decimal value isClass] at reads
      cases reads
      have isNumber : raw.category = .number := congrArg TokenClass.category isClass
      exact .number isNumber (by simp [isClass, floatClass]) (numberLeaf_decimal value) rfl

end Token

/-- The tokens that the stream of a text yields, with their numbers as text, are parsed as
the tokens of the text are.  Both are the same program, or both have errors of one kind at
one place that want the same there. -/
theorem parseTokens_stream_agrees {text : String} {tokens : List Token}
    (lexes : Grammar.standard.tokenize text = .ok tokens) :
    ∃ raws, (∀ call, (Lexer.ofText Grammar.standard text).item? call = (raws.map .ok)[call]?) ∧
      ((∃ program, parseTokens raws text.utf8ByteSize = .ok program ∧
          parseTokens tokens text.utf8ByteSize = .ok program) ∨
        ∃ error error', parseTokens raws text.utf8ByteSize = .error error ∧
          parseTokens tokens text.utf8ByteSize = .error error' ∧ error.IsLike error' ∧
            error'.diagnostic = { error.diagnostic with message := error'.message }) := by
  obtain ⟨raws, items, reads⟩ := Grammar.exists_unread_of_tokenize_eq_ok lexes
  have alike : List.Forall₂ Token.IsLike raws tokens :=
    reads.imp fun _ _ parts => parts.1.isLike_of_readNumeral parts.2
  refine ⟨raws, items, ?_⟩
  rcases outcomesAgree_eq_iff.mp (parseTokens_agree alike text.utf8ByteSize) with
    same | ⟨error, error', fails, fails', alike⟩
  · exact .inl same
  · exact .inr ⟨error, error', fails, fails', alike, alike.diagnostic_eq⟩

/-- The tokens of `print 1 007;`. -/
def twoNumbers : List Token :=
  [{ category := .reserved, subcategory := some .statement, precedence := 0,
     value := .text "print", span := ⟨0, 5⟩ },
    { integerClass with value := .int 1, span := ⟨6, 1⟩ },
    { integerClass with value := .int 7, span := ⟨8, 3⟩ },
    { category := .reserved, subcategory := some .symbol, precedence := 0,
      value := .text ";", span := ⟨11, 1⟩ },
    .endOfInput 12]

/-- In `print 1 007;` the second number stands where a semicolon is wanted, whether it has
been read or not. -/
theorem twoNumbers_stream_agrees :
    Grammar.standard.tokenize "print 1 007;" = .ok twoNumbers ∧
      parseTokens twoNumbers 12 =
        .error (.expected (.terminal (.reserved ";")) (.int 7) ⟨8, 3⟩) ∧
      ∃ raws found, (∀ call,
          (Lexer.ofText Grammar.standard "print 1 007;").item? call =
            (raws.map .ok)[call]?) ∧
        parseTokens raws 12 = .error (.expected (.terminal (.reserved ";")) found ⟨8, 3⟩) := by
  have lexes : Grammar.standard.tokenize "print 1 007;" = .ok twoNumbers := by decide +kernel
  have parses : parseTokens twoNumbers 12 =
      .error (.expected (.terminal (.reserved ";")) (.int 7) ⟨8, 3⟩) := rfl
  obtain ⟨raws, items, outcomes⟩ := parseTokens_stream_agrees lexes
  have size : "print 1 007;".utf8ByteSize = 12 := rfl
  rw [size, parses] at outcomes
  rcases outcomes with ⟨program, _, parses'⟩ | ⟨error, error', fails, fails', alike, _⟩
  · cases parses'
  · cases fails'
    cases alike with
    | same => exact ⟨lexes, parses, raws, _, items, fails⟩
    | expected => exact ⟨lexes, parses, raws, _, items, fails⟩

end WhileLang
