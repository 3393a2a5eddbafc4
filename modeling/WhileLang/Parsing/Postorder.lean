import WhileLang.Decimal.FloatReading
import WhileLang.Parsing.Error
import WhileLang.Syntax.Expr

/-!
# Trees from operators written after their operands

In postorder every operator follows its operands, so no parentheses and no
precedences are needed: an operator takes the trees that were finished last.
-/

namespace WhileLang

/-- The leaf for a number token.  A number that is still text is an integer if it
can be read as one, and otherwise a float. -/
def numberLeaf (token : Token) : Except SyntaxError Expr :=
  match token.value with
  | .int number => .ok (.integer number)
  | .float number => .ok (.float number)
  | .text literal =>
      match Decimal.readInteger literal.toList, Decimal.readFloat literal.toList with
      | .ok number, _ => .ok (.integer number)
      | .error _, .ok number => .ok (.float number)
      | .error _, .error _ => .error (.atToken .number token)

/-- The error of an operator that lacks an operand. -/
def lackingOperand (operator : Token) : SyntaxError :=
  .atToken (.operandFor operator.value) operator

/-- The inner node for an operator.  Negation looks at its right operand alone, and
every other operator needs a left one too. -/
def operatorNode (operator : Token) (left? : Option Expr) (right : Expr) :
    Except SyntaxError Expr :=
  let symbol := operator.text?.getD ""
  if symbol = "not" then
    .ok (.not right)
  else
    match left? with
    | none => .error (lackingOperand operator)
    | some left =>
        if symbol = "and" then
          .ok (.and left right)
        else if symbol = "or" then
          .ok (.or left right)
        else
          match ArithmeticOp.ofSymbol? symbol, RelationalOp.ofSymbol? symbol with
          | some op, _ => .ok (.arithmetic op left right)
          | none, some op => .ok (.relational op left right)
          | none, none => .error (.invalidOperator operator.value operator.span)

/-- Takes one token of a postorder sequence.  The trees finished so far are given
with the last one first. -/
def reduceToken (trees : List Expr) (token : Token) : Except SyntaxError (List Expr) :=
  match token.category with
  | .number => (numberLeaf token).map (· :: trees)
  | .identifier => .ok (.var token.value.render :: trees)
  | .reserved =>
      if token.isOperator then
        match trees with
        | [] => .error (lackingOperand token)
        | right :: rest =>
            if token.text? = some "not" then
              (operatorNode token none right).map (· :: rest)
            else
              match rest with
              | [] => .error (lackingOperand token)
              | left :: rest => (operatorNode token (some left) right).map (· :: rest)
      else
        .error (.atToken .operandOrOperator token)

/-- The tree of a postorder sequence.  A sequence that makes no tree, or more than
one, is reported at the token that follows it. -/
def exprOfPostorder (following : Token) (tokens : List Token) : Except SyntaxError Expr :=
  match tokens.foldlM reduceToken [] with
  | .error error => .error error
  | .ok [] => .error (.atToken .expression following)
  | .ok [tree] => .ok tree
  | .ok (_ :: _ :: _) => .error (.atToken .operator following)

end WhileLang
