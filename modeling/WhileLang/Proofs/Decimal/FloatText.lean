import Mathlib
import WhileLang.Decimal.FloatReading
import WhileLang.Decimal.Layout
import WhileLang.Proofs.Decimal.Ascii
import WhileLang.Proofs.Decimal.Rounding
import WhileLang.Proofs.Lexical.WordLexing

/-!
# The text of a float determines it

The digits, the point and the power of ten of a numeral denote a number.  Where a float is
written, this number is its shortest decimal, in whatever layout.  The shortest decimal
rounds to one float only, so different finite floats have different texts.
-/

namespace WhileLang.Decimal

open Float.Model.UnpackedFloat (Sign)

/-! ## What a numeral denotes -/

/-- The power of ten behind the digits of a numeral, none being the zeroth. -/
def textPower : List Char → Int
  | [] => 0
  | _ :: digits => (String.ofList digits).toInt?.getD 0

/-- The number that an unsigned numeral denotes. -/
def textValue (text : List Char) : ℚ :=
  let whole := text.takeWhile Char.isDigit
  let (fraction, rest) := splitFraction (text.dropWhile Char.isDigit)
  natOfDigits (whole ++ fraction) * 10 ^ (textPower rest - fraction.length)

/-- What can stand behind the digits of a numeral: nothing, or a power of ten. -/
def powerText : Option Int → List Char
  | none => []
  | some power => 'e' :: (toString power).toList

theorem textPower_powerText (power? : Option Int) :
    textPower (powerText power?) = power?.getD 0 := by
  cases power? with
  | none => rfl
  | some power =>
      have reads : (toString power).toInt? = some power := Int.toInt?_repr power
      rw [powerText, textPower, String.ofList_toList, reads]

theorem isDigit_of_mem_powerText_head (power? : Option Int) :
    ∀ c ∈ (powerText power?).head?, c.isDigit = false ∧ c ≠ '.' := by
  cases power? with
  | none => simp [powerText]
  | some power => simp [powerText]

section

variable {whole fraction digits rest : List Char}

/-- The value of a numeral without a point. -/
theorem textValue_whole (isDigits : ∀ c ∈ whole, c.isDigit = true) (power? : Option Int) :
    textValue (whole ++ powerText power?) = natOfDigits whole * 10 ^ power?.getD 0 := by
  obtain ⟨takes, drops⟩ := takeWhile_append_of_stops isDigits fun c member =>
    (isDigit_of_mem_powerText_head power? c member).1
  have noPoint : splitFraction (powerText power?) = ([], powerText power?) := by
    cases power? <;> rfl
  simp only [textValue, takes, drops, noPoint, textPower_powerText, List.append_nil,
    List.length_nil, Nat.cast_zero, sub_zero]

/-- The value of a numeral with a point. -/
theorem textValue_fraction (isWhole : ∀ c ∈ whole, c.isDigit = true)
    (isFraction : ∀ c ∈ fraction, c.isDigit = true) (power? : Option Int) :
    textValue (whole ++ '.' :: (fraction ++ powerText power?)) =
      natOfDigits (whole ++ fraction) * 10 ^ (power?.getD 0 - fraction.length) := by
  have stops : ∀ c ∈ ('.' :: (fraction ++ powerText power?)).head?, c.isDigit = false := by simp
  obtain ⟨takes, drops⟩ := takeWhile_append_of_stops isWhole stops
  obtain ⟨takesMore, dropsMore⟩ := takeWhile_append_of_stops isFraction fun c member =>
    (isDigit_of_mem_powerText_head power? c member).1
  simp only [textValue, takes, drops, splitFraction, takesMore, dropsMore, textPower_powerText]

/-! ## The two layouts -/

theorem natOfDigits_append_zeros (digits : List Char) (count : Nat) :
    natOfDigits (digits ++ List.replicate count '0') = natOfDigits digits * 10 ^ count := by
  rw [natOfDigits, Nat.ofDigitChars_append, Nat.ofDigitChars_replicate_zero, mul_comm]
  rfl

theorem natOfDigits_zeros_append (digits : List Char) (count : Nat) :
    natOfDigits (List.replicate count '0' ++ digits) = natOfDigits digits := by
  rw [natOfDigits, Nat.ofDigitChars_append, Nat.ofDigitChars_replicate_zero, mul_zero]
  rfl

theorem isDigit_of_mem_append (isFirst : ∀ c ∈ whole, c.isDigit = true)
    (isSecond : ∀ c ∈ fraction, c.isDigit = true) : ∀ c ∈ whole ++ fraction, c.isDigit = true := by
  intro c member
  rcases List.mem_append.mp member with first | second
  · exact isFirst c first
  · exact isSecond c second

theorem isDigit_of_mem_zeros (count : Nat) : ∀ c ∈ List.replicate count '0', c.isDigit = true := by
  intro c member
  rw [List.eq_of_mem_replicate member]
  rfl

/-- Written in full, digits keep their value. -/
theorem textValue_positional (isDigits : ∀ c ∈ digits, c.isDigit = true) (exponent : Int) :
    textValue (positional digits exponent) = natOfDigits digits * 10 ^ exponent := by
  unfold positional
  split
  case isTrue nonnegative =>
    obtain ⟨natural, rfl⟩ := Int.eq_ofNat_of_zero_le nonnegative
    have text : digits ++ List.replicate natural '0' ++ ['.', '0'] =
        (digits ++ List.replicate natural '0') ++
          '.' :: (List.replicate 1 '0' ++ powerText none) := rfl
    rw [Int.toNat_natCast, text, textValue_fraction
      (isDigit_of_mem_append isDigits (isDigit_of_mem_zeros natural)) (isDigit_of_mem_zeros 1),
      natOfDigits_append_zeros, natOfDigits_append_zeros, zpow_natCast]
    push_cast
    norm_num
    ring
  case isFalse negative =>
    obtain ⟨fraction, same⟩ := Int.eq_ofNat_of_zero_le (show 0 ≤ -exponent by omega)
    obtain rfl : exponent = -fraction := by omega
    simp only [Int.natAbs_neg, Int.natAbs_natCast]
    split
    case isTrue inside =>
      have text : digits.take (digits.length - fraction) ++
            '.' :: digits.drop (digits.length - fraction) =
          digits.take (digits.length - fraction) ++
            '.' :: (digits.drop (digits.length - fraction) ++ powerText none) := by
        rw [powerText, List.append_nil]
      have size : digits.length - (digits.length - fraction) = fraction := by omega
      rw [text, textValue_fraction (fun c member => isDigits c (List.mem_of_mem_take member))
        (fun c member => isDigits c (List.mem_of_mem_drop member)), List.take_append_drop,
        List.length_drop, size]
      simp
    case isFalse outside =>
      have text : '0' :: '.' :: List.replicate (fraction - digits.length) '0' ++ digits =
          List.replicate 1 '0' ++ '.' ::
            ((List.replicate (fraction - digits.length) '0' ++ digits) ++ powerText none) := by
        simp [powerText]
      have size : fraction - digits.length + digits.length = fraction := by omega
      rw [text, textValue_fraction (isDigit_of_mem_zeros 1)
        (isDigit_of_mem_append (isDigit_of_mem_zeros _) isDigits), natOfDigits_zeros_append,
        natOfDigits_zeros_append, List.length_append, List.length_replicate, size]
      simp

/-- With a power of ten apart, digits keep their value. -/
theorem textValue_scientific (isDigits : ∀ c ∈ digits, c.isDigit = true) (power : Int) :
    textValue (scientific digits power) =
      natOfDigits digits * 10 ^ (power - (digits.length - 1 : Nat)) := by
  unfold scientific
  dsimp only
  split
  next first next rest =>
    have text : first :: '.' :: next :: rest ++ 'e' :: (toString power).toList =
        [first] ++ '.' :: (next :: rest ++ powerText (some power)) := rfl
    rw [List.forall_mem_cons] at isDigits
    rw [text, textValue_fraction (List.forall_mem_singleton.mpr isDigits.1) isDigits.2]
    rfl
  next shape =>
    have text : digits ++ 'e' :: (toString power).toList = digits ++ powerText (some power) := rfl
    have single : digits.length - 1 = 0 := by
      rcases digits with _ | ⟨first, _ | ⟨next, rest⟩⟩
      · rfl
      · rfl
      · exact absurd rfl (shape first next rest)
    rw [text, textValue_whole isDigits, single]
    simp

end

/-- In every layout the text of a decimal denotes the decimal. -/
theorem textValue_writeScaled (layout : FloatLayout) (number : Scaled) :
    textValue (layout.writeScaled number) = number.value := by
  have isDigits := isDigit_of_mem_toDigits number.coefficient
  have value : natOfDigits (Nat.toDigits 10 number.coefficient) = number.coefficient :=
    Nat.ofDigitChars_ten_toDigits
  unfold FloatLayout.writeScaled
  dsimp only
  split
  · rw [textValue_positional isDigits, value, Scaled.value]
  · rw [textValue_scientific isDigits, value, add_sub_cancel_right, Scaled.value]

/-! ## The characters of a numeral -/

/-- A character that a finite float can be written with. -/
def IsFloatChar (c : Char) : Prop :=
  c.isDigit = true ∨ c = '-' ∨ c = '.' ∨ c = 'e'

/-- The text of a float without its sign: it begins with a digit, and it is marked as that
of a float by a point or a power of ten. -/
structure IsFloatText (text : List Char) : Prop where
  head : ∃ c rest, text = c :: rest ∧ c.isDigit = true
  chars : ∀ c ∈ text, IsFloatChar c
  marked : '.' ∈ text ∨ 'e' ∈ text

/-- An integer is written with digits and a minus sign. -/
theorem isDigit_or_eq_minus_of_mem_toString (number : Int) :
    ∀ c ∈ (toString number).toList, c.isDigit = true ∨ c = '-' := by
  have digits : ∀ natural, ∀ c ∈ Nat.toDigits 10 natural, c.isDigit = true ∨ c = '-' :=
    fun natural c member => .inl (isDigit_of_mem_toDigits natural c member)
  obtain ⟨natural, text | text⟩ := toList_toString_cases number
  · rw [text]
    exact digits natural
  · rw [text]
    exact List.forall_mem_cons.mpr ⟨.inr rfl, digits natural⟩

theorem isFloatChar_of_mem_toString (power : Int) :
    ∀ c ∈ (toString power).toList, IsFloatChar c := fun c member =>
  (isDigit_or_eq_minus_of_mem_toString power c member).imp_right .inl

section

variable {digits : List Char}

theorem IsFloatText.of_parts {first rest : List Char} (notEmpty : first ≠ [])
    (isDigits : ∀ c ∈ first, c.isDigit = true) (chars : ∀ c ∈ rest, IsFloatChar c)
    (marked : '.' ∈ rest ∨ 'e' ∈ rest) : IsFloatText (first ++ rest) where
  head := by
    obtain ⟨c, others, rfl⟩ := List.exists_cons_of_ne_nil notEmpty
    exact ⟨c, others ++ rest, rfl, isDigits c List.mem_cons_self⟩
  chars := by
    intro c member
    rcases List.mem_append.mp member with inFirst | inRest
    · exact .inl (isDigits c inFirst)
    · exact chars c inRest
  marked := marked.imp (List.mem_append_right first) (List.mem_append_right first)

theorem isFloatText_positional (notEmpty : digits ≠ [])
    (isDigits : ∀ c ∈ digits, c.isDigit = true) (exponent : Int) :
    IsFloatText (positional digits exponent) := by
  have point : ∀ fraction : List Char, (∀ c ∈ fraction, c.isDigit = true) →
      ∀ c ∈ '.' :: fraction, IsFloatChar c := fun fraction isFraction =>
    List.forall_mem_cons.mpr ⟨.inr (.inr (.inl rfl)), fun c member => .inl (isFraction c member)⟩
  unfold positional
  split
  · exact .of_parts (by simp [notEmpty])
      (isDigit_of_mem_append isDigits (isDigit_of_mem_zeros _))
      (point _ (isDigit_of_mem_zeros 1)) (.inl List.mem_cons_self)
  · dsimp only
    split
    case isTrue inside =>
      refine .of_parts ?_ (fun c member => isDigits c (List.mem_of_mem_take member))
        (point _ fun c member => isDigits c (List.mem_of_mem_drop member))
        (.inl List.mem_cons_self)
      simp only [ne_eq, List.take_eq_nil_iff, not_or]
      exact ⟨by omega, notEmpty⟩
    case isFalse =>
      have text : '0' :: '.' :: List.replicate (exponent.natAbs - digits.length) '0' ++ digits =
          ['0'] ++ '.' :: (List.replicate (exponent.natAbs - digits.length) '0' ++ digits) := rfl
      rw [text]
      exact .of_parts (List.cons_ne_nil '0' []) (isDigit_of_mem_zeros 1)
        (point _ (isDigit_of_mem_append (isDigit_of_mem_zeros _) isDigits))
        (.inl List.mem_cons_self)

theorem isFloatText_scientific (notEmpty : digits ≠ [])
    (isDigits : ∀ c ∈ digits, c.isDigit = true) (power : Int) :
    IsFloatText (scientific digits power) := by
  have mark : ∀ c ∈ 'e' :: (toString power).toList, IsFloatChar c :=
    List.forall_mem_cons.mpr ⟨.inr (.inr (.inr rfl)), isFloatChar_of_mem_toString power⟩
  unfold scientific
  dsimp only
  split
  next first next rest =>
    rw [List.forall_mem_cons] at isDigits
    have fraction : ∀ c ∈ next :: rest ++ 'e' :: (toString power).toList, IsFloatChar c :=
      List.forall_mem_append.mpr ⟨fun c member => .inl (isDigits.2 c member), mark⟩
    have text : first :: '.' :: next :: rest ++ 'e' :: (toString power).toList =
        [first] ++ '.' :: (next :: rest ++ 'e' :: (toString power).toList) := rfl
    rw [text]
    exact .of_parts (List.cons_ne_nil first []) (List.forall_mem_singleton.mpr isDigits.1)
      (List.forall_mem_cons.mpr ⟨.inr (.inr (.inl rfl)), fraction⟩) (.inl List.mem_cons_self)
  next => exact .of_parts notEmpty isDigits mark (.inr List.mem_cons_self)

theorem isFloatText_writeScaled (layout : FloatLayout) (number : Scaled) :
    IsFloatText (layout.writeScaled number) := by
  have isDigits := isDigit_of_mem_toDigits number.coefficient
  unfold FloatLayout.writeScaled
  dsimp only
  split
  · exact isFloatText_positional Nat.toDigits_ne_nil isDigits _
  · exact isFloatText_scientific Nat.toDigits_ne_nil isDigits _

end

/-! ## The text of a float -/

/-- The text of a finite float is its sign and a text that denotes zero, or a number that
rounds to the float. -/
inductive Denotes (text : List Char) (number : Float) : Sign → Prop
  | zero {sign : Sign} (unpacked : number.toModel.unpack = .zero sign) (value : textValue text = 0) :
      Denotes text number sign
  | finite {sign : Sign} {mantissa : Nat} {exponent : Int} {positive : 0 < mantissa}
      (unpacked : number.toModel.unpack = .finite sign mantissa exponent positive)
      (rounds : RoundsTo (textValue text) mantissa exponent) : Denotes text number sign

theorem FloatLayout.write_eq (layout : FloatLayout) {number : Float}
    (isFinite : number.isFinite = true) :
    ∃ sign text, (layout.write number).toList = signText sign ++ text ∧ IsFloatText text ∧
      Denotes text number sign := by
  unfold FloatLayout.write
  rw [String.toList_ofList]
  cases unpacked : number.toModel.unpack with
  | infinity sign =>
      have : number.toModel.unpack.isFinite = true := isFinite
      rw [unpacked] at this
      cases this
  | notANumber =>
      have : number.toModel.unpack.isFinite = true := isFinite
      rw [unpacked] at this
      cases this
  | zero sign =>
      have isDigits := isDigit_of_mem_zeros 1
      refine ⟨sign, positional ['0'] 0, rfl, isFloatText_positional (by simp) isDigits 0, ?_⟩
      refine .zero unpacked ((textValue_positional isDigits 0).trans ?_)
      norm_num [natOfDigits, Nat.ofDigitChars_cons]
  | finite sign mantissa exponent positive =>
      refine ⟨sign, _, rfl, isFloatText_writeScaled layout _, .finite unpacked ?_⟩
      rw [textValue_writeScaled]
      exact roundsTo_shortest exponent positive

/-- A text denotes one finite float. -/
theorem Denotes.unique {text : List Char} {first second : Float} {sign : Sign}
    (isFinite : first.isFinite = true) (denotesFirst : Denotes text first sign)
    (denotesSecond : Denotes text second sign) : first = second := by
  apply Float.eq_of_unpack_eq isFinite
  cases denotesFirst with
  | zero unpacked value =>
      cases denotesSecond with
      | zero unpacked' _ => rw [unpacked, unpacked']
      | finite _ rounds' => exact absurd value (rounds'.pos ‹_›).ne'
  | finite unpacked rounds =>
      cases denotesSecond with
      | zero _ value' => exact absurd value' (rounds.pos ‹_›).ne'
      | finite unpacked' rounds' =>
          obtain ⟨rfl, rfl⟩ := rounds.unique (Float.isBinary64_of_unpack unpacked)
            (Float.isBinary64_of_unpack unpacked') rounds'
          rw [unpacked, unpacked']

/-- Signs are read off a text that goes on with a digit. -/
theorem signText_append_inj {first second : Sign} {text other : List Char}
    (isText : IsFloatText text) (isOther : IsFloatText other)
    (same : signText first ++ text = signText second ++ other) : first = second ∧ text = other := by
  obtain ⟨c, rest, rfl, digit⟩ := isText.head
  obtain ⟨c', rest', rfl, digit'⟩ := isOther.head
  have notSign : ∀ {digit : Char}, digit.isDigit = true → '-' ≠ digit := by
    rintro _ isDigit rfl
    exact absurd isDigit (by decide)
  cases first with
  | negative =>
      cases second with
      | negative => exact ⟨rfl, (List.cons.inj same).2⟩
      | positive => exact absurd (List.cons.inj same).1 (notSign digit')
  | positive =>
      cases second with
      | negative => exact absurd (List.cons.inj same).1.symm (notSign digit)
      | positive => exact ⟨rfl, same⟩

/-- In every layout different finite floats have different texts. -/
theorem FloatLayout.write_inj (layout : FloatLayout) {first second : Float}
    (isFinite : first.isFinite = true) (isFinite' : second.isFinite = true)
    (same : layout.write first = layout.write second) : first = second := by
  obtain ⟨sign, text, written, isText, denotes⟩ := layout.write_eq isFinite
  obtain ⟨sign', text', written', isText', denotes'⟩ := layout.write_eq isFinite'
  rw [← same, written] at written'
  obtain ⟨rfl, rfl⟩ := signText_append_inj isText isText' written'
  exact denotes.unique isFinite denotes'

end WhileLang.Decimal
