import WhileLang.Decimal.FloatReading
import WhileLang.Source

/-!
# Lexical errors

A text fails to be a list of tokens where no rule matches, or where a numeral
denotes no number that a token can hold.
-/

namespace WhileLang

/-- Why a text is not a list of tokens, and where. -/
inductive LexError where
  | invalidCharacter (character : Char) (span : Span)
  | invalidInteger (literal : String) (reason : Decimal.IntegerFault) (span : Span)
  | invalidFloat (literal : String) (reason : Decimal.FloatFault) (span : Span)
deriving DecidableEq

namespace LexError

/-- The place of the character or numeral at fault. -/
def span : LexError → Span
  | .invalidCharacter _ span => span
  | .invalidInteger _ _ span => span
  | .invalidFloat _ _ span => span

/-- The wording of the error. -/
def message : LexError → String
  | .invalidCharacter character _ => "Invalid character: " ++ character.toString
  | .invalidInteger literal reason _ =>
      "invalid integer literal `" ++ literal ++ "`: " ++ reason.message
  | .invalidFloat literal reason _ =>
      "invalid float literal `" ++ literal ++ "`: " ++ reason.message

end LexError

end WhileLang
