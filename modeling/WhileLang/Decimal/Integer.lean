/-!
# Reading decimal integers

A signed decimal numeral is read into a 64-bit word.  The reader goes from left
to right and reports the first character at which it cannot go on, so a numeral
that leaves the range before its first foreign character is out of range, and
any other numeral with a foreign character is malformed.
-/

namespace WhileLang.Decimal

/-- Why a text is not a 64-bit integer. -/
inductive IntegerFault where
  | empty
  | invalidDigit
  | tooLarge
  | tooSmall
deriving DecidableEq

/-- The wording of a fault. -/
def IntegerFault.message : IntegerFault → String
  | .empty => "cannot parse integer from empty string"
  | .invalidDigit => "invalid digit found in string"
  | .tooLarge => "number too large to fit in target type"
  | .tooSmall => "number too small to fit in target type"

/-- The number that a run of decimal digits denotes. -/
def natOfDigits (digits : List Char) : Nat :=
  Nat.ofDigitChars 10 digits 0

/-- The numeral after a sign is `digits`, of which the leading run counts: its
value must lie in `range`, and only then does a foreign character matter. -/
def readDigits (range : Nat) (outOfRange : IntegerFault) (digits : List Char) :
    Except IntegerFault Nat :=
  let magnitude := natOfDigits (digits.takeWhile Char.isDigit)
  if magnitude ≤ range then
    if digits.all Char.isDigit then .ok magnitude else .error .invalidDigit
  else
    .error outOfRange

/-- A numeral without a minus sign. -/
def readNonnegative (digits : List Char) : Except IntegerFault Int64 :=
  (readDigits (Nat.pow 2 63 - 1) .tooLarge digits).map fun magnitude => Int64.ofInt magnitude

/-- A numeral that follows a minus sign. -/
def readNegative (digits : List Char) : Except IntegerFault Int64 :=
  (readDigits (Nat.pow 2 63) .tooSmall digits).map fun magnitude => Int64.ofInt (-magnitude)

/-- Reads an optional sign and decimal digits. -/
def readInteger : List Char → Except IntegerFault Int64
  | [] => .error .empty
  | ['+'] => .error .invalidDigit
  | ['-'] => .error .invalidDigit
  | '+' :: digits => readNonnegative digits
  | '-' :: digits => readNegative digits
  | digits => readNonnegative digits

end WhileLang.Decimal
