import WhileLang.Syntax.Operator

/-!
# Errors at run time
-/

namespace WhileLang

/-- Why output could not be written. -/
inductive OutputFault where
  | limitReached
  | flushFailed
deriving DecidableEq

/-- The wording of an output fault. -/
def OutputFault.message : OutputFault → String
  | .limitReached => "limit reached"
  | .flushFailed => "flush failed"

/-- Why a program cannot go on. -/
inductive RuntimeError where
  | undefinedVariable (name : String)
  | divisionByZero
  | integerOverflow (operator : ArithmeticOp)
  | output (cause : OutputFault)
deriving DecidableEq

/-- The wording of the error. -/
def RuntimeError.message : RuntimeError → String
  | .undefinedVariable name => "Variable " ++ name ++ " is not defined"
  | .divisionByZero => "division by zero"
  | .integerOverflow op => "integer overflow in `" ++ op.symbol ++ "`"
  | .output _ => "failed to write output"

end WhileLang
