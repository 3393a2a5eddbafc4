import WhileLang.Parsing.Expression
import WhileLang.Proofs.Parsing.Climbing

/-!
# Signs and roles

A token plays one of five parts in an expression.  For tokens that can be met in an
expression of the language, the parts are told here by what the tokens stand for:
leaves, parentheses, negations and binary operators.
-/

namespace WhileLang

namespace Token

/-- The signs that have a meaning for expressions, and the sign of assignment. -/
def operatorSigns : List String :=
  [":=", "(", ")", "+", "-", "*", "/", "%", "<", "<=", ">", ">=", "==", "!=", "and", "or", "not"]

/-- A token that can be met in an expression of the language: a number has been read,
and an operator has one of the signs of the language, with any precedence. -/
def HasMeaning (token : Token) : Prop :=
  (token.category = .number → token.text? = none) ∧
    (token.category = .reserved → token.subcategory = some .operator →
      ∃ sign ∈ operatorSigns, token.text? = some sign)

instance (token : Token) : Decidable token.HasMeaning :=
  inferInstanceAs (Decidable (_ ∧ _))

/-! ## Roles of tokens -/

theorem isEnd_eq_false_of_isSign {token : Token} {symbol : String} (isSign : token.IsSign symbol) :
    token.isEnd = false := by
  simp [isEnd, isSign.2.1]

theorem text?_of_isSign {token : Token} {symbol : String} (isSign : token.IsSign symbol) :
    token.text? = some symbol := by
  simp [text?, isSign.2.2]

theorem value_of_text? {token : Token} {text : String} (same : token.text? = some text) :
    token.value = .text text := by
  unfold text? at same
  cases value : token.value with
  | text lexeme => simpa [value] using same
  | int number => simp [value] at same
  | float number => simp [value] at same

theorem role_eq_operand_of_leaf? {token : Token} {tree : Expr} (isLeaf : token.leaf? = some tree) :
    token.role = .operand := by
  unfold leaf? at isLeaf
  cases category : token.category with
  | identifier => simp [role, isEnd, category]
  | number => simp [role, isEnd, category]
  | reserved => simp [category] at isLeaf

theorem role_of_isSign {token : Token} {symbol : String} (isSign : token.IsSign symbol) :
    token.role =
      if symbol = ":=" then .outside
      else if symbol = "(" ∨ symbol = "not" then .opening
      else if symbol = ")" then .closing
      else .binary := by
  simp [role, isEnd_eq_false_of_isSign isSign, isSign.1, isOperator, isSign.2.1,
    text?_of_isSign isSign]

theorem role_eq_binary_of_isSign {token : Token} {op : BinaryOperator}
    (isSign : token.IsSign op.symbol) : token.role = .binary := by
  rcases op.symbol_ne with ⟨notAssign, notOpening, notClosing, notNegation⟩
  rw [role_of_isSign isSign, if_neg notAssign, if_neg (by simp [notOpening, notNegation]),
    if_neg notClosing]

theorem opensGroup_of_isSign {token : Token} {symbol : String} (isSign : token.IsSign symbol) :
    token.opensGroup = decide (symbol = "(") := by
  simp [opensGroup, isOperator, isSign.2.1, text?_of_isSign isSign]

/-- A token of the language that takes part in expressions is an operand or a sign. -/
theorem role_cases {token : Token} (meaning : token.HasMeaning) :
    token.role = .outside ∨ (token.leaf?.isSome ∧ token.role = .operand) ∨
      ∃ sign ∈ operatorSigns, token.IsSign sign := by
  cases category : token.category with
  | identifier => exact .inr (.inl ⟨by simp [leaf?, category], by simp [role, isEnd, category]⟩)
  | number =>
      refine .inr (.inl ⟨?_, by simp [role, isEnd, category]⟩)
      cases value : token.value with
      | text text =>
          have noText := meaning.1 category
          simp [text?, value] at noText
      | int number => simp [leaf?, category, value]
      | float number => simp [leaf?, category, value]
  | reserved =>
      by_cases operator : token.subcategory = some .operator
      · obtain ⟨sign, member, text⟩ := meaning.2 category operator
        exact .inr (.inr ⟨sign, member, category, operator, value_of_text? text⟩)
      · exact .inl (by simp [role, category, isOperator, operator])

theorem exists_isSign_of_role_eq_binary {token : Token} (meaning : token.HasMeaning)
    (binary : token.role = .binary) : ∃ op : BinaryOperator, token.IsSign op.symbol := by
  rcases role_cases meaning with outside | ⟨_, operand⟩ | ⟨sign, member, isSign⟩
  · simp [outside] at binary
  · simp [operand] at binary
  · have known : ∀ sign ∈ operatorSigns,
        (sign = ":=" ∨ sign = "(" ∨ sign = "not" ∨ sign = ")") ∨
          ∃ op ∈ BinaryOperator.all, op.symbol = sign := by decide
    rcases known sign member with other | ⟨op, _, rfl⟩
    · rw [role_of_isSign isSign] at binary
      rcases other with rfl | rfl | rfl | rfl <;> simp at binary
    · exact ⟨op, isSign⟩

theorem isSign_of_role_eq_closing {token : Token} (meaning : token.HasMeaning)
    (closing : token.role = .closing) : token.IsSign ")" := by
  rcases role_cases meaning with outside | ⟨_, operand⟩ | ⟨sign, _, isSign⟩
  · simp [outside] at closing
  · simp [operand] at closing
  · rw [role_of_isSign isSign] at closing
    split_ifs at closing with _ _ isClosing
    rwa [isClosing] at isSign

/-- A token that can begin an operand is a leaf or is kept waiting for its operand. -/
theorem beginsOperand_of_role {token : Token} (meaning : token.HasMeaning)
    (begins : token.role = .operand ∨ token.role = .opening) : token.BeginsOperand := by
  rcases role_cases meaning with outside | ⟨isLeaf, _⟩ | ⟨sign, _, isSign⟩
  · simp [outside] at begins
  · exact .inl isLeaf
  · rw [role_of_isSign isSign] at begins
    split_ifs at begins with _ opening
    · simp at begins
    · rcases opening with rfl | rfl
      · exact .inr (.inl isSign)
      · exact .inr (.inr isSign)
    · simp at begins
    · simp at begins

theorem hasMeaning_endOfInput (offset : Nat) : (endOfInput offset).HasMeaning := by
  constructor
  · intro number
    simp [endOfInput] at number
  · intro _ operator
    simp [endOfInput] at operator

end Token

/-- Every token from the cursor on can be met in an expression of the language. -/
def Cursor.HasMeaning (cursor : Cursor) : Prop :=
  ∀ token ∈ cursor.rest, token.HasMeaning

namespace Cursor

theorem HasMeaning.current {cursor : Cursor} (meaning : cursor.HasMeaning) :
    cursor.current.HasMeaning := by
  unfold Cursor.current
  cases rest : cursor.rest with
  | nil => exact Token.hasMeaning_endOfInput _
  | cons token tokens => exact meaning token (by simp [rest])

theorem HasMeaning.advance {cursor : Cursor} (meaning : cursor.HasMeaning) :
    cursor.advance.HasMeaning :=
  fun token member => meaning token (List.mem_of_mem_tail member)

end Cursor

end WhileLang
