import WhileLang.Parsing.Cursor
import WhileLang.Parsing.Postorder

/-!
# Expressions

An expression is read in one pass.  Operands go straight to the output, and an
operator waits until one that binds no more tightly, a closing parenthesis or the
end of the expression sends it after them.  What comes out is the expression in
postorder, from which the tree is built.

The pass ends before the first token that cannot continue the expression.  Whether
that token is in order is left to whoever asked for the expression.
-/

namespace WhileLang

/-- The part that a token can play in an expression. -/
inductive Role where
  | operand
  | opening
  | closing
  | binary
  | outside
deriving DecidableEq

namespace Token

/-- Whether the token opens a group. -/
def opensGroup (token : Token) : Bool :=
  token.isOperator && token.text? = some "("

/-- Whether an operator that waits takes its operands before a binary operator that
follows.  It does if it binds at least as tightly, and an open parenthesis never
does. -/
def goesBefore (waiting token : Token) : Bool :=
  !waiting.opensGroup && token.precedence ≤ waiting.precedence

/-- The part that a token plays.  Negation is put before its operand, as an opening
parenthesis is, and the sign of assignment belongs to no expression. -/
def role (token : Token) : Role :=
  if token.isEnd then
    .outside
  else
    match token.category with
    | .number => .operand
    | .identifier => .operand
    | .reserved =>
        if !token.isOperator || token.text? = some ":=" then .outside
        else if token.text? = some "(" || token.text? = some "not" then .opening
        else if token.text? = some ")" then .closing
        else .binary

end Token

/-- A pass in progress: the output with its last token first, the operators that
wait with the innermost first, and whether an operand has to come next. -/
structure OperatorScan where
  output : List Token
  waiting : List Token
  needsOperand : Bool

/-- What a token does to a pass: it ends before the token, it fails at the token, or
it goes on behind it. -/
inductive ScanStep where
  | stop
  | fail (error : SyntaxError)
  | proceed (scan : OperatorScan)

namespace OperatorScan

/-- A pass at the beginning of an expression. -/
def start : OperatorScan :=
  { output := [], waiting := [], needsOperand := true }

/-- Sends out the operators of the innermost group and drops its parenthesis. -/
def closeGroup (scan : OperatorScan) : OperatorScan :=
  let inner := scan.waiting.takeWhile fun operator => !operator.opensGroup
  let outer := scan.waiting.dropWhile fun operator => !operator.opensGroup
  { scan with output := inner.reverse ++ scan.output, waiting := outer.tail }

/-- Sends out the operators that go before a binary operator, which then waits in
their place for its right operand. -/
def pushBinary (scan : OperatorScan) (token : Token) : OperatorScan :=
  { output := (scan.waiting.takeWhile (·.goesBefore token)).reverse ++ scan.output
    waiting := token :: scan.waiting.dropWhile (·.goesBefore token)
    needsOperand := true }

/-- Takes one token. -/
def step (scan : OperatorScan) (token : Token) : ScanStep :=
  match token.role with
  | .outside => .stop
  | .operand =>
      if scan.needsOperand then
        .proceed { scan with output := token :: scan.output, needsOperand := false }
      else
        .stop
  | .opening =>
      if scan.needsOperand then
        .proceed { scan with waiting := token :: scan.waiting }
      else
        .stop
  | .closing =>
      if !scan.waiting.any Token.opensGroup then
        .stop
      else if scan.needsOperand then
        .fail (.atToken .expression token)
      else
        .proceed scan.closeGroup
  | .binary =>
      if scan.needsOperand then
        .fail (.atToken .expression token)
      else
        .proceed (scan.pushBinary token)

/-- Runs a pass over a list of tokens that begins at a position. -/
def run (endOffset : Nat) :
    List Token → Nat → OperatorScan → EStateM.Result SyntaxError Cursor OperatorScan
  | [], position, scan => .ok scan { rest := [], position, endOffset }
  | token :: rest, position, scan =>
      match scan.step token with
      | .stop => .ok scan { rest := token :: rest, position, endOffset }
      | .fail error => .error error { rest := token :: rest, position, endOffset }
      | .proceed scan => run endOffset rest (position + 1) scan

/-- The postorder sequence of a pass that has ended before a token. -/
def finish (scan : OperatorScan) (following : Token) : Except SyntaxError (List Token) :=
  if scan.needsOperand then
    .error (.atToken .expression following)
  else
    match scan.waiting.find? Token.opensGroup with
    | some parenthesis => .error (.unbalancedParenthesis parenthesis.span)
    | none => .ok (scan.output.reverse ++ scan.waiting)

end OperatorScan

namespace Parser

/-- Passes over the longest run of operands and operators at the cursor. -/
def scanOperators : Parser OperatorScan :=
  fun cursor => OperatorScan.run cursor.endOffset cursor.rest cursor.position .start

/-- Reads the longest run of operands and operators at the cursor into a tree. -/
def expression : Parser Expr := do
  let scan ← scanOperators
  let following ← peek
  let sequence ← MonadExcept.ofExcept (scan.finish following)
  MonadExcept.ofExcept (exprOfPostorder following sequence)

end Parser

end WhileLang
