/-!
# The exact remainder of binary64 numbers

The remainder of a division whose quotient is truncated is always a binary64
number, so it can be computed without rounding: brought to a common power of two,
the two numbers are whole, and the remainder is that of whole numbers.
-/

namespace WhileLang

open Float.Model (UnpackedFloat)

/-- What is left of the dividend after taking the divisor from it as often as
possible.  It has the sign of the dividend.  An infinite divisor is never taken,
and nothing is left over of an infinite dividend or with a zero divisor. -/
def truncatedRemainder (dividend divisor : Float) : Float :=
  match dividend.toModel.unpack, divisor.toModel.unpack with
  | .finite sign mantissa exponent _, .finite _ mantissa' exponent' _ =>
      let common := min exponent exponent'
      let remainder :=
        (mantissa <<< (exponent - common).toNat) % (mantissa' <<< (exponent' - common).toNat)
      Float.ofModel <| Float.Model.pack <|
        if remainder = 0 then .zero sign else .round .binary64 sign remainder common
  | .finite .., .infinity _ => dividend
  | .zero _, .finite .. => dividend
  | .zero _, .infinity _ => dividend
  | _, _ => Float.ofModel (Float.Model.pack .notANumber)

end WhileLang
