import WhileLang.Lexical.Lexer
import WhileLang.Parsing.Statement
import WhileLang.Semantics.Execution

/-!
# From source to effect

A source is cut into tokens, the tokens are parsed into a program, and the program
acts on a machine.  The first stage that fails decides the fault.
-/

namespace WhileLang

/-- Why a source has no effect, or not all of it. -/
inductive Fault where
  | lexical (error : LexError)
  | syntactic (error : SyntaxError)
  | runtime (error : RuntimeError)
deriving DecidableEq

/-- Parses a token list whose source ends at a byte offset. -/
def parseTokens (tokens : List Token) (endOffset : Nat) : Except SyntaxError Block :=
  match Parser.program (Cursor.ofTokens tokens endOffset) with
  | .ok program _ => .ok program
  | .error error _ => .error error

namespace Source

/-- The program that a source spells under a token grammar. -/
def parseWith (grammar : Grammar) (source : Source) : Except Fault Block :=
  match grammar.tokenize source.text with
  | .error error => .error (.lexical error)
  | .ok tokens =>
      match parseTokens tokens source.size with
      | .error error => .error (.syntactic error)
      | .ok program => .ok program

/-- The program that a source spells. -/
def parse (source : Source) : Except Fault Block :=
  source.parseWith .standard

/-- Parses a source and runs its program within a number of steps. -/
def interpret (steps : Nat) (source : Source) (machine : Machine) : Except Fault Ending :=
  source.parse.map fun program => runProgram steps program machine

end Source

end WhileLang
