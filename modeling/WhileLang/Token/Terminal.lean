import WhileLang.Token.Basic

/-!
# Terminals

A terminal is what a grammar rule can ask for at one place: a particular
reserved word or sign, any token of a category, or the end of the input.
-/

namespace WhileLang

/-- A set of tokens that a rule can ask for. -/
inductive Terminal where
  | reserved (text : String)
  | ofCategory (category : Category)
  | endOfInput
deriving DecidableEq

namespace Terminal

/-- Whether a token is in the set.  The mark of the end belongs to no set but its
own, although it is a reserved token. -/
def accepts (terminal : Terminal) (token : Token) : Bool :=
  match terminal with
  | .reserved text => token.category = .reserved && !token.isEnd && token.text? = some text
  | .ofCategory category => token.category = category && !token.isEnd
  | .endOfInput => token.isEnd

/-- The name of the set in messages. -/
def render : Terminal → String
  | .reserved text => text
  | .ofCategory category => category.name
  | .endOfInput => Token.endMark

end Terminal

end WhileLang
