import WhileLang.Decimal.Layout
import WhileLang.Source

/-!
# Tokens

A token is a lexeme with the class that the grammar gave it and the place where
it was found.  The class carries everything that parsing needs to know, also the
binding strength of an operator, so that a token list stands on its own.

Two tokens are counted as equal when they agree in everything but their place.
Floats are compared as numbers, so a token that holds a NaN equals no token.
-/

namespace WhileLang

/-- What a token is: a name, a number, or one of the fixed words and signs. -/
inductive Category where
  | identifier
  | number
  | reserved
deriving DecidableEq

/-- The finer sort of a token within its category. -/
inductive Subcategory where
  | operator
  | symbol
  | statement
  | int
  | float
deriving DecidableEq

/-- The name under which a category is shown. -/
def Category.name : Category → String
  | .identifier => "ID"
  | .number => "NUMBER"
  | .reserved => "RESERVED"

/-- The name under which a subcategory is shown. -/
def Subcategory.name : Subcategory → String
  | .operator => "OPERATOR"
  | .symbol => "SYMBOL"
  | .statement => "STATEMENT"
  | .int => "INT"
  | .float => "FLOAT"

/-- The grammatical class of a token.  Of two operators the one of higher
precedence binds its operands more tightly. -/
structure TokenClass where
  category : Category
  subcategory : Option Subcategory
  precedence : Nat
deriving DecidableEq

/-- What a token holds: its text as it stands in the source, or the number that
the text denotes. -/
inductive TokenValue where
  | text (text : String)
  | int (number : Int64)
  | float (number : Float)
deriving DecidableEq

/-- The text of a token's value. -/
def TokenValue.render : TokenValue → String
  | .text lexeme => lexeme
  | .int number => toString number.toInt
  | .float number => Decimal.FloatLayout.literal.write number

/-- Equality of values of one kind, of floats as numbers. -/
def TokenValue.agrees : TokenValue → TokenValue → Bool
  | .text first, .text second => first == second
  | .int first, .int second => first == second
  | .float first, .float second => first == second
  | _, _ => false

/-- A classified lexeme at its place in the source. -/
structure Token extends TokenClass where
  value : TokenValue
  span : Span
deriving DecidableEq

namespace Token

/-- The text that marks the end of the input. -/
def endMark : String :=
  "EOF"

/-- The token that stands for the end of the input, at a byte offset. -/
def endOfInput (offset : Nat) : Token where
  category := .reserved
  subcategory := some .symbol
  precedence := 0
  value := .text endMark
  span := ⟨offset, 0⟩

/-- The text of a token that has not been read as a number. -/
def text? (token : Token) : Option String :=
  match token.value with
  | .text lexeme => some lexeme
  | _ => none

/-- Whether the token marks the end of the input.  An identifier that happens to
be spelled like the mark does not. -/
def isEnd (token : Token) : Bool :=
  token.text? = some endMark && token.category = .reserved && token.subcategory = some .symbol

/-- Whether the token is an operator. -/
def isOperator (token : Token) : Bool :=
  token.subcategory = some .operator

/-- The class of a token, its value and its precedence on one line. -/
def render (token : Token) : String :=
  let sort := match token.subcategory with
    | some subcategory => subcategory.name ++ " "
    | none => ""
  token.category.name ++ " " ++ sort ++ token.value.render ++ " " ++ toString token.precedence

/-- Equality of tokens wherever they stand. -/
def agrees (first second : Token) : Bool :=
  first.value.agrees second.value && first.toTokenClass = second.toTokenClass

@[simp]
theorem isEnd_endOfInput (offset : Nat) : (endOfInput offset).isEnd = true := by
  simp [isEnd, endOfInput, text?]

end Token

end WhileLang
