import WhileLang.Parsing.Expression
import WhileLang.Syntax.Stmt

/-!
# Statements and programs

A block goes on as long as a statement begins at the cursor, and it is left to
whoever asked for the block whether it ended in the right place.  Every statement
takes at least one token, so the number of tokens that are left bounds how many
statements can follow and how deeply they can be nested.
-/

namespace WhileLang

namespace Parser

/-! ## Statements over a parser for blocks -/

/-- The rest of a conditional, from its condition on. -/
def conditional (block : Parser Block) : Parser Stmt := do
  let condition ← expression
  let _ ← expect (.reserved "then")
  let thenBranch ← block
  if ← sees (.reserved "else") then
    skip
    let elseBranch ← block
    let _ ← expect (.reserved "done")
    return .ifElse condition thenBranch elseBranch
  else
    let _ ← expect (.reserved "done")
    return .ifThen condition thenBranch

/-- The rest of a loop, from its condition on. -/
def loop (block : Parser Block) : Parser Stmt := do
  let condition ← expression
  let _ ← expect (.reserved "do")
  let body ← block
  let _ ← expect (.reserved "done")
  return .whileDo condition body

/-- An assignment. -/
def assignment : Parser Stmt := do
  let name ← expect (.ofCategory .identifier)
  let _ ← expect (.reserved ":=")
  let value ← expression
  let _ ← expect (.reserved ";")
  return .assign name.value.render value

/-- The rest of a print statement, from its expression on. -/
def printStatement : Parser Stmt := do
  let value ← expression
  let _ ← expect (.reserved ";")
  return .print value

/-- An expression that stands as a statement. -/
def expressionStatement : Parser Stmt := do
  let value ← expression
  let _ ← expect (.reserved ";")
  return .expression value

/-- Whether the token after the cursor is the sign of assignment. -/
def seesAssignment : Parser Bool :=
  fun cursor => .ok ((cursor.ahead? 1).any (Terminal.reserved ":=").accepts) cursor

/-- The statement that begins at the cursor, if one does. -/
def statement? (block : Parser Block) : Parser (Option Stmt) := do
  if ← sees .endOfInput then
    return none
  else if ← sees (.reserved "else") then
    return none
  else if ← sees (.reserved "if") then
    skip
    some <$> conditional block
  else if ← sees (.reserved "while") then
    skip
    some <$> loop block
  else if ← sees (.ofCategory .identifier) then
    if ← seesAssignment then
      some <$> assignment
    else
      some <$> expressionStatement
  else if ← sees (.reserved "print") then
    skip
    some <$> printStatement
  else
    return none

/-! ## Blocks -/

/-- What was read of a block: its statements up to the end of the block or up to an
error, and the cursor behind them. -/
structure Reading where
  statements : Block
  error? : Option SyntaxError
  cursor : Cursor

/-- The block itself, unless there was an error. -/
def Reading.result (reading : Reading) : EStateM.Result SyntaxError Cursor Block :=
  match reading.error? with
  | none => .ok reading.statements reading.cursor
  | some error => .error error reading.cursor

/-- Reads a block of boundedly many and boundedly nested statements. -/
def readWithin : Nat → Cursor → Reading
  | 0, cursor => { statements := [], error? := none, cursor }
  | bound + 1, cursor =>
      match statement? (fun cursor => (readWithin bound cursor).result) cursor with
      | .error error cursor => { statements := [], error? := some error, cursor }
      | .ok none cursor => { statements := [], error? := none, cursor }
      | .ok (some statement) cursor =>
          let rest := readWithin bound cursor
          { rest with statements := statement :: rest.statements }

/-- Reads the block that begins at the cursor. -/
def read (cursor : Cursor) : Reading :=
  readWithin cursor.rest.length cursor

/-- The block that begins at the cursor. -/
def block : Parser Block :=
  fun cursor => (read cursor).result

/-- A whole program: a block that ends with the input. -/
def program : Parser Block := do
  let statements ← block
  let following ← peek
  if following.isEnd then
    return statements
  else
    throw (.atToken .statement following)

end Parser

end WhileLang
