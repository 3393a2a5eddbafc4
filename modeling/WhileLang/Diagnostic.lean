import WhileLang.Program

/-!
# Diagnostics

A diagnostic is what a user is told of a fault: a message with a code, advice where
there is some, and labels that point into the source.
-/

namespace WhileLang

/-- A remark on a stretch of the source. -/
structure Label where
  text : String
  span : Span
deriving DecidableEq

/-- A report of a fault. -/
structure Diagnostic where
  message : String
  code : String
  help? : Option String := none
  url? : Option String := none
  labels : List Label := []
  cause? : Option String := none
deriving DecidableEq

/-- The report of a lexical error. -/
def LexError.diagnostic (error : LexError) : Diagnostic :=
  match error with
  | .invalidCharacter character span =>
      { message := error.message
        code := "vsi::lex::invalid_character"
        help? := some ("remove or correct the character: `" ++ character.toString ++ "`")
        labels := [⟨"this character", span⟩] }
  | .invalidInteger _ _ span =>
      { message := error.message
        code := "vsi::lex::invalid_integer"
        labels := [⟨"this numeric literal", span⟩] }
  | .invalidFloat _ _ span =>
      { message := error.message
        code := "vsi::lex::invalid_float"
        url? := some "https://doc.rust-lang.org/std/num/struct.ParseFloatError.html"
        labels := [⟨"this numeric literal", span⟩] }

/-- The report of an error of syntax. -/
def SyntaxError.diagnostic (error : SyntaxError) : Diagnostic :=
  match error with
  | .expected wanted _ span =>
      { message := error.message
        code := "vsi::parse::expected"
        help? := some ("expected " ++ wanted.render ++ " here")
        labels := [⟨"here", span⟩] }
  | .invalidOperator _ span =>
      { message := error.message
        code := "vsi::parse::invalid_operator"
        labels := [⟨"this operator", span⟩] }
  | .unbalancedParenthesis span =>
      { message := error.message
        code := "vsi::parse::unbalanced_parenthesis"
        help? := some "every `(` needs a matching `)`"
        labels := [⟨"this parenthesis is never closed", span⟩] }

/-- The report of an error at run time. -/
def RuntimeError.diagnostic (error : RuntimeError) : Diagnostic :=
  match error with
  | .undefinedVariable name =>
      { message := error.message
        code := "vsi::eval::undefined_variable"
        help? := some ("assign `" ++ name ++ "` with `" ++ name ++ " := ...;` before reading it") }
  | .divisionByZero =>
      { message := error.message
        code := "vsi::eval::division_by_zero" }
  | .integerOverflow _ =>
      { message := error.message
        code := "vsi::eval::integer_overflow" }
  | .output cause =>
      { message := error.message
        code := "vsi::eval::output"
        cause? := some cause.message }

namespace Fault

/-- The report of a fault. -/
def diagnostic : Fault → Diagnostic
  | .lexical error => error.diagnostic
  | .syntactic error => error.diagnostic
  | .runtime error => error.diagnostic

/-- The place of a fault, if it has one in the source. -/
def span? : Fault → Option Span
  | .lexical error => some error.span
  | .syntactic error => some error.span
  | .runtime _ => none

/-- The line of a fault, if it has a place in the source. -/
def line? (source : Source) (fault : Fault) : Option Nat :=
  fault.span?.map fun span => source.lineAt span.offset

/-- The name under which a fault of this sort is announced. -/
def title : Fault → String
  | .lexical _ => "LexError"
  | .syntactic _ => "SyntaxError"
  | .runtime _ => "RuntimeError"

end Fault

end WhileLang
