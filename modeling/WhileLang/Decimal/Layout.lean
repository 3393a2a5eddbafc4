import WhileLang.Decimal.Shortest

/-!
# Writing binary64 numbers

A float is written with the shortest digits that identify it.  What differs
between the places where floats are shown is only when a power of ten is split
off, and that is a `FloatLayout`.
-/

namespace WhileLang.Decimal

open Float.Model (UnpackedFloat)

/-- When the power of ten of a number is written apart.  The power is that of the
first digit, and `none` means never. -/
structure FloatLayout where
  scientificBelow : Option Int
  scientificFrom : Option Int

/-- Whether a number whose first digit stands for `10 ^ power` is written without
an exponent. -/
def FloatLayout.isPositional (layout : FloatLayout) (power : Int) : Bool :=
  layout.scientificBelow.all (· ≤ power) && layout.scientificFrom.all (power < ·)

/-- Writes `digits * 10 ^ exponent` in full, with at least one digit on either side
of the point. -/
def positional (digits : List Char) (exponent : Int) : List Char :=
  if 0 ≤ exponent then
    digits ++ List.replicate exponent.toNat '0' ++ ['.', '0']
  else
    let fraction := exponent.natAbs
    if fraction < digits.length then
      digits.take (digits.length - fraction) ++ '.' :: digits.drop (digits.length - fraction)
    else
      '0' :: '.' :: List.replicate (fraction - digits.length) '0' ++ digits

/-- Writes one digit, the others as a fraction if there are any, and the power of
ten of the first. -/
def scientific (digits : List Char) (power : Int) : List Char :=
  let mark := 'e' :: (toString power).toList
  match digits with
  | first :: next :: rest => first :: '.' :: next :: rest ++ mark
  | digits => digits ++ mark

/-- Writes a positive decimal. -/
def FloatLayout.writeScaled (layout : FloatLayout) (number : Scaled) : List Char :=
  let digits := Nat.toDigits 10 number.coefficient
  let power := number.exponent + (digits.length - 1 : Nat)
  if layout.isPositional power then
    positional digits number.exponent
  else
    scientific digits power

/-- The sign that stands before a number. -/
def signText : UnpackedFloat.Sign → List Char
  | .negative => ['-']
  | .positive => []

/-- The text of a float.  A zero keeps its sign. -/
def FloatLayout.write (layout : FloatLayout) (number : Float) : String :=
  String.ofList <|
    match number.toModel.unpack with
    | .notANumber => "NaN".toList
    | .infinity sign => signText sign ++ "inf".toList
    | .zero sign => signText sign ++ positional ['0'] 0
    | .finite sign mantissa exponent _ =>
        signText sign ++ layout.writeScaled (shortest mantissa exponent)

/-- How literals are shown: the power of ten stands apart below `1e-4` and from
`1e16` on. -/
def FloatLayout.literal : FloatLayout :=
  { scientificBelow := some (-4), scientificFrom := some 16 }

/-- How values are shown: always in full. -/
def FloatLayout.full : FloatLayout :=
  { scientificBelow := none, scientificFrom := none }

end WhileLang.Decimal
