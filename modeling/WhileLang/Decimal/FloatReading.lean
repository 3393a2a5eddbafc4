import WhileLang.Decimal.Integer

/-!
# Reading binary64 numbers from decimal text

A float is written as an optional sign and either a decimal number, whose whole
or fractional digits may be missing but not both, with an optional power of
ten, or one of the words `inf`, `infinity` and `nan` in any case.  The number is
the binary64 value nearest to the decimal one, with ties to even.
-/

namespace WhileLang.Decimal

/-- Why a text is not a float. -/
inductive FloatFault where
  | empty
  | invalid
deriving DecidableEq

/-- The wording of a fault. -/
def FloatFault.message : FloatFault → String
  | .empty => "cannot parse float from empty string"
  | .invalid => "invalid float literal"

/-- The size of a power of ten.  Digits that follow once it has reached `2 ^ 16`
are ignored: by then the value has left the range on one side or the other. -/
def exponentSize (digits : List Char) : Nat :=
  digits.foldl
    (fun size digit =>
      if size < Nat.pow 2 16 then 10 * size + (digit.toNat - '0'.toNat) else size) 0

/-- Reads what may follow the digits of a number: nothing, or a power of ten. -/
def readExponent? : List Char → Option Int
  | [] => some 0
  | mark :: rest =>
      let size? (digits : List Char) : Option Nat :=
        if digits ≠ [] ∧ digits.all Char.isDigit then some (exponentSize digits) else none
      if mark = 'e' ∨ mark = 'E' then
        match rest with
        | '+' :: digits => (size? digits).map Int.ofNat
        | '-' :: digits => (size? digits).map fun size => -Int.ofNat size
        | digits => (size? digits).map Int.ofNat
      else
        none

/-- The binary64 value nearest to `coefficient * 10 ^ exponent`. -/
def nearestFloat (coefficient : Nat) (exponent : Int) : Float :=
  Float.ofScientific coefficient (exponent < 0) exponent.natAbs

/-- The fractional digits at the head of a text and what follows them.  A point
may stand without digits. -/
def splitFraction : List Char → List Char × List Char
  | '.' :: rest => (rest.takeWhile Char.isDigit, rest.dropWhile Char.isDigit)
  | rest => ([], rest)

/-- Reads an unsigned decimal number. -/
def readDecimal? (text : List Char) : Option Float :=
  let whole := text.takeWhile Char.isDigit
  let (fraction, rest) := splitFraction (text.dropWhile Char.isDigit)
  if whole = [] ∧ fraction = [] then
    none
  else
    (readExponent? rest).map fun exponent =>
      nearestFloat (natOfDigits (whole ++ fraction)) (exponent - fraction.length)

/-- Reads a word for a value that is not a finite number. -/
def readSpecial? (text : List Char) : Option Float :=
  let word := text.map Char.toLower
  if word = "inf".toList ∨ word = "infinity".toList then
    some (1 / 0)
  else if word = "nan".toList then
    some (0 / 0)
  else
    none

/-- Reads a float without its sign. -/
def readUnsigned? (text : List Char) : Option Float :=
  (readDecimal? text).or (readSpecial? text)

/-- Reads a float with an optional sign. -/
def readFloat : List Char → Except FloatFault Float
  | [] => .error .empty
  | '+' :: text => (readUnsigned? text).elim (.error .invalid) .ok
  | '-' :: text => (readUnsigned? text).elim (.error .invalid) fun magnitude => .ok (-magnitude)
  | text => (readUnsigned? text).elim (.error .invalid) .ok

end WhileLang.Decimal
