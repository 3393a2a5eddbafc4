import WhileLang.Parsing.Error

/-!
# Reading a token list

A cursor stands at one token of a list.  Past the last token it reads the end of
the input, at the offset where the source ends, however often it is moved on.  A
parser moves the cursor and yields a result or an error; after an error the cursor
stays where the parser left it.
-/

namespace WhileLang

/-- A place in a token list: the tokens from there on, how many were passed, and
the byte offset at which the source ends. -/
structure Cursor where
  rest : List Token
  position : Nat
  endOffset : Nat

namespace Cursor

/-- The beginning of a token list. -/
def ofTokens (tokens : List Token) (endOffset : Nat) : Cursor :=
  { rest := tokens, position := 0, endOffset }

/-- The token under the cursor. -/
def current (cursor : Cursor) : Token :=
  cursor.rest.head?.getD (.endOfInput cursor.endOffset)

/-- The token some places after the cursor, if the list reaches so far. -/
def ahead? (cursor : Cursor) (distance : Nat) : Option Token :=
  cursor.rest[distance]?

/-- Moves on by one token. -/
def advance (cursor : Cursor) : Cursor :=
  { cursor with rest := cursor.rest.tail, position := cursor.position + 1 }

/-- Whether the token under the cursor is in a set. -/
def sees (cursor : Cursor) (terminal : Terminal) : Bool :=
  terminal.accepts cursor.current

end Cursor

/-- A computation that reads tokens from a cursor. -/
abbrev Parser (α : Type) :=
  EStateM SyntaxError Cursor α

namespace Parser

/-- The token under the cursor, which stays. -/
def peek : Parser Token :=
  fun cursor => .ok cursor.current cursor

/-- Moves on by one token. -/
def skip : Parser Unit :=
  fun cursor => .ok () cursor.advance

/-- Whether the token under the cursor is in a set.  The cursor stays. -/
def sees (terminal : Terminal) : Parser Bool :=
  fun cursor => .ok (cursor.sees terminal) cursor

/-- Passes over a token that meets a condition, and fails at any other. -/
def satisfy (condition : Token → Bool) (wanted : Expectation) : Parser Token :=
  fun cursor =>
    if condition cursor.current then
      .ok cursor.current cursor.advance
    else
      .error (.atToken wanted cursor.current) cursor

/-- Passes over a token of a set. -/
def expect (terminal : Terminal) : Parser Token :=
  satisfy terminal.accepts (.terminal terminal)

/-- Passes over a token of any of several sets. -/
def expectAny (terminals : List Terminal) : Parser Token :=
  satisfy (fun token => terminals.any (·.accepts token)) (.oneOf terminals)

end Parser

end WhileLang
