import WhileLang.Source

/-!
# Lexical patterns

A pattern describes the lexemes of one kind.  Each pattern picks the longest
lexeme of its kind at the head of a text.  The empty text is no lexeme of any
kind, so it stands for the absence of a match.
-/

namespace WhileLang

/-- A character that separates tokens. -/
def isBlank (c : Char) : Bool :=
  c = ' ' || c = '\t' || c = '\r' || c = '\n'

/-- A character that can begin a word: an ASCII letter or an underscore. -/
def isWordStart (c : Char) : Bool :=
  c.isAlpha || c = '_'

/-- A character that can continue a word. -/
def isWordChar (c : Char) : Bool :=
  c.isAlphanum || c = '_'

/-- A kind of lexeme.  A line comment extends from its marker up to the end of the
line, and a keyword is a fixed text that no longer word begins with. -/
inductive Pattern where
  | whitespace
  | lineComment (marker : Char)
  | exact (text : String)
  | keyword (text : String)
  | identifier
  | digits
  | decimal
deriving DecidableEq

/-- Digits, a point and more digits. -/
def decimalLexeme (input : List Char) : List Char :=
  let whole := input.takeWhile Char.isDigit
  match input.dropWhile Char.isDigit with
  | '.' :: rest =>
      let fraction := rest.takeWhile Char.isDigit
      if whole ≠ [] ∧ fraction ≠ [] then whole ++ '.' :: fraction else []
  | _ => []

/-- The longest lexeme of the pattern at the head of a text, empty if there is
none. -/
def Pattern.lexeme (pattern : Pattern) (input : List Char) : List Char :=
  match pattern with
  | .whitespace => input.takeWhile isBlank
  | .lineComment marker =>
      if input.head? = some marker then input.takeWhile (· ≠ '\n') else []
  | .exact text => if text.toList.isPrefixOf input then text.toList else []
  | .keyword text =>
      if text.toList.isPrefixOf input ∧
          ¬(input.drop text.toList.length).head?.any isWordChar then
        text.toList
      else
        []
  | .identifier => if input.head?.any isWordStart then input.takeWhile isWordChar else []
  | .digits => input.takeWhile Char.isDigit
  | .decimal => decimalLexeme input

theorem decimalLexeme_prefix_input (input : List Char) : decimalLexeme input <+: input := by
  unfold decimalLexeme
  split
  case h_1 rest atPoint =>
    dsimp only
    split
    · have parts := List.takeWhile_append_dropWhile (p := Char.isDigit) (l := input)
      rw [atPoint] at parts
      conv => rhs; rw [← parts]
      exact (List.prefix_append_right_inj _).mpr
        ((List.cons_prefix_cons).mpr ⟨rfl, List.takeWhile_prefix _⟩)
    · exact List.nil_prefix
  case h_2 => exact List.nil_prefix

/-- A lexeme is a beginning of the text in which it is found. -/
theorem Pattern.lexeme_prefix_input (pattern : Pattern) (input : List Char) :
    pattern.lexeme input <+: input := by
  cases pattern with
  | whitespace => exact List.takeWhile_prefix _
  | lineComment marker =>
      simp only [Pattern.lexeme]
      split
      · exact List.takeWhile_prefix _
      · exact List.nil_prefix
  | exact text =>
      simp only [Pattern.lexeme]
      split
      case isTrue begins => exact List.isPrefixOf_iff_prefix.mp begins
      case isFalse => exact List.nil_prefix
  | keyword text =>
      simp only [Pattern.lexeme]
      split
      case isTrue begins => exact List.isPrefixOf_iff_prefix.mp begins.1
      case isFalse => exact List.nil_prefix
  | identifier =>
      simp only [Pattern.lexeme]
      split
      · exact List.takeWhile_prefix _
      · exact List.nil_prefix
  | digits => exact List.takeWhile_prefix _
  | decimal => exact decimalLexeme_prefix_input input

/-- A lexeme and what follows it make up the text. -/
theorem Pattern.lexeme_append_drop (pattern : Pattern) (input : List Char) :
    pattern.lexeme input ++ input.drop (pattern.lexeme input).length = input :=
  (List.prefix_iff_eq_append.mp (pattern.lexeme_prefix_input input))

/-- Whether a lexeme of the pattern stands at the head of a text. -/
def Pattern.isMatch (pattern : Pattern) (input : List Char) : Bool :=
  !(pattern.lexeme input).isEmpty

/-- The size of the lexeme at the head of a text, in bytes. -/
def Pattern.matchLength? (pattern : Pattern) (input : List Char) : Option Nat :=
  if pattern.isMatch input then some (utf8Length (pattern.lexeme input)) else none

theorem Pattern.isMatch_iff {pattern : Pattern} {input : List Char} :
    pattern.isMatch input ↔ pattern.lexeme input ≠ [] := by
  simp [isMatch]

theorem Pattern.matchLength?_eq_some_iff {pattern : Pattern} {input : List Char} {length : Nat} :
    pattern.matchLength? input = some length ↔
      pattern.lexeme input ≠ [] ∧ utf8Length (pattern.lexeme input) = length := by
  simp [matchLength?, isMatch_iff]

theorem Pattern.matchLength?_eq_none_iff {pattern : Pattern} {input : List Char} :
    pattern.matchLength? input = none ↔ pattern.lexeme input = [] := by
  simp [matchLength?, isMatch_iff]

end WhileLang
