import Mathlib
import WhileLang.Semantics.Output
import WhileLang.Semantics.Value

/-!
# Numbers and values are written in ASCII

The digits, signs, points and words that numbers are written with take one byte each.  So
the text of a value has as many bytes as characters, and it can be cut after any number of
bytes.
-/

namespace WhileLang

/-- Every character of the text takes one byte. -/
def IsAscii (text : List Char) : Prop :=
  ∀ c ∈ text, c.utf8Size = 1

instance (text : List Char) : Decidable (IsAscii text) :=
  decidable_of_iff (text.all fun c => c.utf8Size == 1) (by simp [IsAscii])

namespace IsAscii

variable {first second text : List Char}

theorem append (isFirst : IsAscii first) (isSecond : IsAscii second) :
    IsAscii (first ++ second) := by
  intro c member
  rcases List.mem_append.mp member with inFirst | inSecond
  · exact isFirst c inFirst
  · exact isSecond c inSecond

theorem cons {c : Char} (size : c.utf8Size = 1) (isText : IsAscii text) : IsAscii (c :: text) :=
  List.forall_mem_cons.mpr ⟨size, isText⟩

theorem replicate {c : Char} (size : c.utf8Size = 1) (count : Nat) :
    IsAscii (List.replicate count c) := by
  intro other member
  rw [List.eq_of_mem_replicate member, size]

theorem of_sublist (isText : IsAscii text) (sublist : first.Sublist text) : IsAscii first :=
  fun c member => isText c (sublist.subset member)

theorem utf8Length_eq (isText : IsAscii text) : utf8Length text = text.length := by
  induction text with
  | nil => rfl
  | cons c rest ih =>
      rw [IsAscii, List.forall_mem_cons] at isText
      rw [utf8Length_cons, isText.1, ih isText.2, List.length_cons, Nat.add_comm]

/-- As many characters fit into some room as there are bytes. -/
theorem takeBytes_eq_take (isText : IsAscii text) (room : Nat) :
    takeBytes room text = text.take room := by
  induction text generalizing room with
  | nil => simp [takeBytes]
  | cons c rest ih =>
      rw [IsAscii, List.forall_mem_cons] at isText
      cases room with
      | zero => simp [takeBytes, isText.1]
      | succ room => simp [takeBytes, isText.1, ih isText.2]

end IsAscii

/-! ## Integers -/

theorem utf8Size_of_isDigit {c : Char} (digit : c.isDigit) : c.utf8Size = 1 := by
  simp only [Char.isDigit, Bool.and_eq_true, decide_eq_true_eq, ge_iff_le] at digit
  rw [Char.utf8Size_eq_one_iff]
  exact UInt32.le_trans digit.2 (by decide)

theorem isAscii_toDigits (number : Nat) : IsAscii (Nat.toDigits 10 number) :=
  fun _ member =>
    utf8Size_of_isDigit (Nat.isDigit_of_mem_toDigits (by decide) (by decide) member)

/-- An integer is written with the digits of a natural number, behind a minus sign if it is
negative. -/
theorem toList_toString_cases (number : Int) :
    ∃ natural, (toString number).toList = Nat.toDigits 10 natural ∨
      (toString number).toList = '-' :: Nat.toDigits 10 natural := by
  cases number with
  | ofNat natural => exact ⟨natural, .inl Nat.toList_repr⟩
  | negSucc natural =>
      exact ⟨natural + 1, .inr (by simp [toString, Int.repr, Nat.toList_repr])⟩

theorem isAscii_toString (number : Int) : IsAscii (toString number).toList := by
  obtain ⟨natural, text | text⟩ := toList_toString_cases number
  · rw [text]
    exact isAscii_toDigits natural
  · rw [text]
    exact .cons rfl (isAscii_toDigits natural)

/-! ## Floats -/

namespace Decimal

variable {digits : List Char}

theorem isAscii_positional (isDigits : IsAscii digits) (exponent : Int) :
    IsAscii (positional digits exponent) := by
  unfold positional
  split
  · exact (isDigits.append (.replicate rfl _)).append (by decide)
  · dsimp only
    split
    · exact (isDigits.of_sublist (List.take_sublist _ _)).append
        (.cons rfl (isDigits.of_sublist (List.drop_sublist _ _)))
    · exact .cons rfl (.cons rfl ((IsAscii.replicate rfl _).append isDigits))

theorem isAscii_scientific (isDigits : IsAscii digits) (power : Int) :
    IsAscii (scientific digits power) := by
  have mark : IsAscii ('e' :: (toString power).toList) := .cons rfl (isAscii_toString power)
  unfold scientific
  dsimp only
  split
  · rw [IsAscii, List.forall_mem_cons] at isDigits
    exact .append (.cons isDigits.1 (.cons rfl isDigits.2)) mark
  · exact isDigits.append mark

theorem isAscii_signText (sign : Float.Model.UnpackedFloat.Sign) : IsAscii (signText sign) := by
  cases sign <;> decide

theorem isAscii_write (layout : FloatLayout) (number : Float) :
    IsAscii (layout.write number).toList := by
  rw [FloatLayout.write, String.toList_ofList]
  split
  · decide
  · exact (isAscii_signText _).append (by decide)
  · exact (isAscii_signText _).append (isAscii_positional (by decide) 0)
  · refine (isAscii_signText _).append ?_
    unfold FloatLayout.writeScaled
    dsimp only
    split
    · exact isAscii_positional (isAscii_toDigits _) _
    · exact isAscii_scientific (isAscii_toDigits _) _

end Decimal

/-! ## Values -/

theorem Value.isAscii_render (value : Value) : IsAscii value.render.toList := by
  cases value with
  | int number => exact isAscii_toString _
  | float number => exact Decimal.isAscii_write _ _
  | bool truth => cases truth <;> decide

end WhileLang
