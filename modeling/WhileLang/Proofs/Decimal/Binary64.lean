import Mathlib
import WhileLang.Decimal.Shortest

/-!
# Binary64 numbers as mantissa and exponent

The bits of a binary64 number are a sign, eleven bits of exponent and 52 bits of
mantissa.  Unpacked, a normal number gets its leading bit back, so its mantissa takes 53
bits, and only numbers of the least exponent can have a shorter one.  A finite number is
determined by what it is unpacked to.
-/

namespace WhileLang.Decimal

open Float.Model (Format UnpackedFloat)
open Float.Model.UnpackedFloat

/-- The form of a positive binary64 number `mantissa * 2 ^ exponent`: the mantissa takes 53
bits unless the exponent is the least one. -/
structure IsBinary64 (mantissa : Nat) (exponent : Int) : Prop where
  positive : 0 < mantissa
  bounded : mantissa < 2 ^ 53
  least : -1074 ≤ exponent
  normal : -1074 < exponent → 2 ^ 52 ≤ mantissa

/-! ## The fields of the bits -/

theorem toNat_unpackMantissa (bits : BitVec Format.binary64.numBits) :
    (unpackMantissa bits).toNat = bits.toNat % 2 ^ 52 := by
  simp [unpackMantissa]

theorem toNat_unpackExponent (bits : BitVec Format.binary64.numBits) :
    (unpackExponent bits).toNat = bits.toNat / 2 ^ 52 % 2 ^ 11 := by
  simp [unpackExponent, Nat.shiftRight_eq_div_pow]

theorem toNat_unpackSign (bits : BitVec Format.binary64.numBits) :
    (unpackSign bits).toNat = bits.toNat / 2 ^ 63 % 2 := by
  simp [unpackSign, Nat.shiftRight_eq_div_pow]

/-- The three fields are all there is. -/
theorem eq_of_fields {first second : BitVec Format.binary64.numBits}
    (sameSign : unpackSign first = unpackSign second)
    (sameExponent : (unpackExponent first).toNat = (unpackExponent second).toNat)
    (sameMantissa : (unpackMantissa first).toNat = (unpackMantissa second).toNat) :
    first = second := by
  have sameSign := congrArg BitVec.toNat sameSign
  rw [toNat_unpackSign, toNat_unpackSign] at sameSign
  rw [toNat_unpackExponent, toNat_unpackExponent] at sameExponent
  rw [toNat_unpackMantissa, toNat_unpackMantissa] at sameMantissa
  have firstBound : first.toNat < 2 ^ 64 := first.isLt
  have secondBound : second.toNat < 2 ^ 64 := second.isLt
  apply BitVec.eq_of_toNat_eq
  omega

theorem ofBitVec_inj {first second : BitVec 1} :
    Sign.ofBitVec first = Sign.ofBitVec second ↔ first = second := by
  rcases BitVec.eq_zero_or_eq_one first with rfl | rfl <;>
    rcases BitVec.eq_zero_or_eq_one second with rfl | rfl <;> simp [Sign.ofBitVec]

theorem toNat_cons_mantissa (mantissa : BitVec 52) :
    (1#1 ++ mantissa).toNat = 2 ^ 52 + mantissa.toNat := by
  rw [BitVec.toNat_append, ← Nat.shiftLeft_add_eq_or_of_lt mantissa.isLt]
  rfl

/-! ## Unpacking -/

/-- What a finite number is unpacked to, by its sign and the fields of its exponent and its
mantissa. -/
inductive Unpacks (sign : Sign) : Nat → Nat → UnpackedFloat → Prop
  | zero : Unpacks sign 0 0 (.zero sign)
  | subnormal {mantissa : Nat} (positive : 0 < mantissa) (bounded : mantissa < 2 ^ 52) :
      Unpacks sign 0 mantissa (.finite sign mantissa (-1074) positive)
  | normal {exponent mantissa : Nat} (notLeast : 0 < exponent) (bounded : mantissa < 2 ^ 52)
      (positive : 0 < 2 ^ 52 + mantissa) :
      Unpacks sign exponent mantissa (.finite sign (2 ^ 52 + mantissa) (exponent - 1075) positive)

theorem unpacks_of_isFinite {bits : BitVec Format.binary64.numBits}
    (isFinite : (unpack Format.binary64 bits).isFinite = true) :
    Unpacks (Sign.ofBitVec (unpackSign bits)) (unpackExponent bits).toNat
      (unpackMantissa bits).toNat (unpack Format.binary64 bits) := by
  have bounded : (unpackMantissa bits).toNat < 2 ^ 52 := (unpackMantissa bits).isLt
  simp only [unpack] at isFinite ⊢
  split_ifs at isFinite ⊢ with special infinite noExponent noMantissa
  · cases isFinite
  · cases isFinite
  · rw [noExponent, noMantissa]
    exact .zero
  · have exponentZero : (unpackExponent bits).toNat = 0 := by
      rw [noExponent]
      rfl
    rw [exponentZero]
    refine .subnormal (Nat.pos_of_ne_zero fun mantissaZero => ?_) bounded
    exact noMantissa (BitVec.eq_of_toNat_eq mantissaZero)
  · simp only [toNat_cons_mantissa]
    refine .normal (Nat.pos_of_ne_zero fun exponentZero => ?_) bounded (by positivity)
    exact noExponent (BitVec.eq_of_toNat_eq exponentZero)

theorem Unpacks.isBinary64 {sign sign' : Sign} {exponentField mantissaField mantissa : Nat}
    {exponent : Int} {positive : 0 < mantissa} {value : UnpackedFloat}
    (unpacks : Unpacks sign exponentField mantissaField value)
    (same : value = .finite sign' mantissa exponent positive) : IsBinary64 mantissa exponent := by
  cases unpacks with
  | zero => cases same
  | subnormal _ bounded =>
      obtain ⟨_, rfl, rfl⟩ := UnpackedFloat.finite.inj same
      constructor <;> omega
  | normal notLeast bounded =>
      obtain ⟨_, rfl, rfl⟩ := UnpackedFloat.finite.inj same
      constructor <;> omega

/-- A finite number has one sign and one content of its fields. -/
theorem Unpacks.unique {sign sign' : Sign} {exponent exponent' mantissa mantissa' : Nat}
    {value value' : UnpackedFloat} (unpacks : Unpacks sign exponent mantissa value)
    (unpacks' : Unpacks sign' exponent' mantissa' value') (same : value = value') :
    sign = sign' ∧ exponent = exponent' ∧ mantissa = mantissa' := by
  cases unpacks with
  | zero =>
      cases unpacks' with
      | zero =>
          cases same
          exact ⟨rfl, rfl, rfl⟩
      | subnormal => cases same
      | normal => cases same
  | subnormal =>
      cases unpacks' with
      | zero => cases same
      | subnormal =>
          obtain ⟨rfl, rfl, _⟩ := UnpackedFloat.finite.inj same
          exact ⟨rfl, rfl, rfl⟩
      | normal =>
          obtain ⟨_, sameMantissa, _⟩ := UnpackedFloat.finite.inj same
          omega
  | normal =>
      cases unpacks' with
      | zero => cases same
      | subnormal =>
          obtain ⟨_, sameMantissa, _⟩ := UnpackedFloat.finite.inj same
          omega
      | normal =>
          obtain ⟨rfl, sameMantissa, sameExponent⟩ := UnpackedFloat.finite.inj same
          exact ⟨rfl, by omega, by omega⟩

end WhileLang.Decimal

/-! ## Floats -/

namespace Float

open WhileLang.Decimal

/-- What a finite float other than zero is unpacked to has the form of a binary64 number. -/
theorem isBinary64_of_unpack {number : Float} {sign : Model.UnpackedFloat.Sign} {mantissa : Nat}
    {exponent : Int} {positive : 0 < mantissa}
    (unpacked : number.toModel.unpack = .finite sign mantissa exponent positive) :
    IsBinary64 mantissa exponent := by
  have isFinite : (Model.UnpackedFloat.unpack Model.Format.binary64
      number.toModel.toBits.toBitVec).isFinite = true := congrArg Model.UnpackedFloat.isFinite unpacked
  exact (unpacks_of_isFinite isFinite).isBinary64 unpacked

/-- Finite floats that are unpacked to the same are the same, bit by bit. -/
theorem eq_of_unpack_eq {first second : Float} (isFinite : first.isFinite = true)
    (same : first.toModel.unpack = second.toModel.unpack) : first = second := by
  rcases first with ⟨⟨⟨firstBits⟩, _⟩⟩
  rcases second with ⟨⟨⟨secondBits⟩, _⟩⟩
  have same : Model.UnpackedFloat.unpack Model.Format.binary64 firstBits =
      Model.UnpackedFloat.unpack Model.Format.binary64 secondBits := same
  have isFinite : (Model.UnpackedFloat.unpack Model.Format.binary64 firstBits).isFinite = true :=
    isFinite
  obtain ⟨sameSign, sameExponent, sameMantissa⟩ :=
    (unpacks_of_isFinite isFinite).unique (unpacks_of_isFinite (same ▸ isFinite)) same
  cases eq_of_fields (ofBitVec_inj.mp sameSign) sameExponent sameMantissa
  rfl

end Float
