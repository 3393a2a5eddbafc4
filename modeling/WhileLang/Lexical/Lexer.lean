import WhileLang.Lexical.Error
import WhileLang.Lexical.Segment

/-!
# From text to tokens

A lexer walks over the segments of a text and yields a token for each that is not
skipped, then one last item: the end of the input, or the character at which no
rule matches.  The tokens that it yields still hold their text.  Tokenizing a text
collects all of them and then reads the numerals, so a stray character is
reported before any numeral, wherever it stands.
-/

namespace WhileLang

/-- The last item of a token stream: the end of the input, or an error at the
character that no rule accepts. -/
def lastItem (stuck : List Char) (offset : Nat) : Except LexError Token :=
  match stuck with
  | [] => .ok (.endOfInput offset)
  | c :: _ => .error (.invalidCharacter c ⟨offset, c.utf8Size⟩)

/-- A token stream in progress. -/
structure Lexer where
  segments : List Segment
  stuck : List Char
  offset : Nat
  finished : Bool

namespace Lexer

/-- The stream of a whole text. -/
def ofText (grammar : Grammar) (text : String) : Lexer :=
  let cut := grammar.segmentation text.toList
  { segments := cut.segments, stuck := cut.stuck, offset := 0, finished := false }

/-- The next item among the segments that are left, and the stream after it. -/
def nextItem (stuck : List Char) : List Segment → Nat → Except LexError Token × Lexer
  | [], offset =>
      (lastItem stuck offset, { segments := [], stuck, offset, finished := true })
  | segment :: segments, offset =>
      match segment.token? offset with
      | none => nextItem stuck segments (offset + segment.size)
      | some token =>
          (.ok token, { segments, stuck, offset := offset + segment.size, finished := false })

/-- Takes one item from the stream.  After the last item there is none. -/
def next (lexer : Lexer) : Option (Except LexError Token) × Lexer :=
  if lexer.finished then
    (none, lexer)
  else
    let (item, rest) := nextItem lexer.stuck lexer.segments lexer.offset
    (some item, rest)

end Lexer

/-- The tokens of a list of segments that begins at a byte offset. -/
def placeTokens : List Segment → Nat → List Token
  | [], _ => []
  | segment :: segments, offset =>
      (segment.token? offset).toList ++ placeTokens segments (offset + segment.size)

/-- The number of bytes that a list of segments covers. -/
def segmentsSize (segments : List Segment) : Nat :=
  segments.foldr (fun segment size => segment.size + size) 0

/-- All tokens of a text as they stand, the end of the input last. -/
def Grammar.rawTokens (grammar : Grammar) (text : String) : Except LexError (List Token) :=
  let cut := grammar.segmentation text.toList
  (lastItem cut.stuck (segmentsSize cut.segments)).map fun last =>
    placeTokens cut.segments 0 ++ [last]

/-- Reads the numeral in a token that is classed as a number.  A token that holds
a number already is left alone. -/
def Token.readNumeral (token : Token) : Except LexError Token :=
  match token.value, token.subcategory with
  | .text literal, some .int =>
      match Decimal.readInteger literal.toList with
      | .ok number => .ok { token with value := .int number }
      | .error reason => .error (.invalidInteger literal reason token.span)
  | .text literal, some .float =>
      match Decimal.readFloat literal.toList with
      | .ok number => .ok { token with value := .float number }
      | .error reason => .error (.invalidFloat literal reason token.span)
  | _, _ => .ok token

/-- All tokens of a text with their numerals read, the end of the input last. -/
def Grammar.tokenize (grammar : Grammar) (text : String) : Except LexError (List Token) :=
  (grammar.rawTokens text).bind fun tokens => tokens.mapM Token.readNumeral

end WhileLang
