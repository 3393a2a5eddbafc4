import WhileLang.Token.Terminal

/-!
# Errors of syntax

An error says what would have been accepted and which token stood there instead,
or which operator has no meaning, or which parenthesis was left open.
-/

namespace WhileLang

/-- What would have been accepted at the place of an error. -/
inductive Expectation where
  | terminal (wanted : Terminal)
  | oneOf (wanted : List Terminal)
  | statement
  | expression
  | operator
  | operandOrOperator
  | number
  | operandFor (operator : TokenValue)
deriving DecidableEq

/-- The wording of an expectation. -/
def Expectation.render : Expectation → String
  | .terminal wanted => wanted.render
  | .oneOf wanted => "one of [" ++ ", ".intercalate (wanted.map Terminal.render) ++ "]"
  | .statement => "statement"
  | .expression => "expression"
  | .operator => "operator"
  | .operandOrOperator => "operand or operator"
  | .number => "number"
  | .operandFor value => "operand for " ++ value.render

/-- Why a token list is not a program, and where. -/
inductive SyntaxError where
  | expected (wanted : Expectation) (found : TokenValue) (span : Span)
  | invalidOperator (operator : TokenValue) (span : Span)
  | unbalancedParenthesis (span : Span)
deriving DecidableEq

namespace SyntaxError

/-- The error of finding a token where something else was wanted. -/
def atToken (wanted : Expectation) (token : Token) : SyntaxError :=
  .expected wanted token.value token.span

/-- The place of the token at fault. -/
def span : SyntaxError → Span
  | .expected _ _ span => span
  | .invalidOperator _ span => span
  | .unbalancedParenthesis span => span

/-- The wording of the error. -/
def message : SyntaxError → String
  | .expected wanted found _ => "expecting " ++ wanted.render ++ " found " ++ found.render
  | .invalidOperator operator _ => "Invalid operator " ++ operator.render
  | .unbalancedParenthesis _ => "unbalanced parenthesis"

end SyntaxError

end WhileLang
