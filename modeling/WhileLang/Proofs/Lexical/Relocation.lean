import Mathlib
import WhileLang.Proofs.Lexical.Layout
import WhileLang.Proofs.Parsing.Relocation

/-!
# Lexing in another place

A text that begins at another offset yields the same tokens, moved, or the same lexical
error, moved.  With the same fact about parsing, a source whose tokens are those of another
one, moved, is the same program or has the same fault.
-/

namespace WhileLang

variable {move : Nat → Nat}

/-! ## Tokens as they stand -/

/-- The same outcome of lexing at other places. -/
def relocateTokens (move : Nat → Nat) (outcome : Except LexError (List Token)) :
    Except LexError (List Token) :=
  (outcome.map (List.map (Token.relocate move))).mapError (LexError.relocate move)

theorem Segment.token?_relocate (segment : Segment) (offset : Nat) :
    (segment.token? offset).map (Token.relocate move) = segment.token? (move offset) := by
  simp only [token?, Option.map_map]
  rfl

/-- Tokens move with the stretch of text that their segments cover. -/
theorem placeTokens_relocate {segments : List Segment} {offset newOffset : Nat}
    (notEmpty : ∀ segment ∈ segments, segment.lexeme ≠ [])
    (moves : ∀ distance < segmentsSize segments, move (offset + distance) = newOffset + distance) :
    (placeTokens segments offset).map (Token.relocate move) = placeTokens segments newOffset := by
  induction segments generalizing offset newOffset with
  | nil => rfl
  | cons segment segments ih =>
      rw [List.forall_mem_cons] at notEmpty
      rw [segmentsSize_cons] at moves
      have atStart : move offset = newOffset :=
        moves 0 (Nat.add_pos_left (utf8Length_pos notEmpty.1) _)
      have behind : (placeTokens segments (offset + segment.size)).map (Token.relocate move) =
          placeTokens segments (newOffset + segment.size) := by
        refine ih notEmpty.2 ?_
        intro distance bounded
        rw [Nat.add_assoc, Nat.add_assoc]
        exact moves _ (Nat.add_lt_add_left bounded _)
      rw [placeTokens, placeTokens, List.map_append, behind, ← atStart,
        ← Segment.token?_relocate, Option.toList_map]

theorem Grammar.lexeme_ne_nil_of_mem {grammar : Grammar} {input : List Char} :
    ∀ segment ∈ (grammar.segmentation input).segments, segment.lexeme ≠ [] := by
  intro segment member
  obtain ⟨text, found⟩ := mem_segmentation member
  exact segment?_lexeme_ne_nil found

theorem lastItem_relocate (stuck : List Char) (offset : Nat) :
    lastItem stuck (move offset) =
      ((lastItem stuck offset).map (Token.relocate move)).mapError (LexError.relocate move) := by
  cases stuck <;> rfl

/-- A text that begins at another offset yields the same tokens, moved. -/
theorem Grammar.rawTokensFrom_relocate (grammar : Grammar) (input : List Char)
    {offset newOffset : Nat} (moves : ∀ distance, move (offset + distance) = newOffset + distance) :
    grammar.rawTokensFrom input newOffset =
      relocateTokens move (grammar.rawTokensFrom input offset) := by
  rw [rawTokensFrom, rawTokensFrom, ← moves, lastItem_relocate,
    ← placeTokens_relocate lexeme_ne_nil_of_mem (fun distance _ => moves distance)]
  cases lastItem _ _ with
  | error error => rfl
  | ok last => simp [relocateTokens, Except.map, Except.mapError]

/-! ## Numerals -/

theorem Token.readNumeral_relocate (token : Token) :
    (token.relocate move).readNumeral =
      (token.readNumeral.map (Token.relocate move)).mapError (LexError.relocate move) := by
  simp only [readNumeral, relocate_value, relocate_toTokenClass]
  split
  · split <;> rfl
  · split <;> rfl
  · rfl

theorem mapM_readNumeral_relocate (tokens : List Token) :
    (tokens.map (Token.relocate move)).mapM Token.readNumeral =
      relocateTokens move (tokens.mapM Token.readNumeral) := by
  induction tokens with
  | nil => rfl
  | cons token tokens ih =>
      rw [List.map_cons, List.mapM_cons, List.mapM_cons, Token.readNumeral_relocate, ih]
      cases token.readNumeral with
      | error error => rfl
      | ok first => cases tokens.mapM Token.readNumeral <;> rfl

/-- Numerals are read in tokens that have been moved as in the tokens as they were. -/
theorem relocateTokens_bind_readNumeral (outcome : Except LexError (List Token)) :
    (relocateTokens move outcome).bind (List.mapM Token.readNumeral) =
      relocateTokens move (outcome.bind (List.mapM Token.readNumeral)) := by
  cases outcome with
  | error error => rfl
  | ok tokens => exact mapM_readNumeral_relocate tokens

/-! ## Sources -/

/-- A source with the tokens of another one, moved, is the same program, or has the same
fault where it has moved to. -/
theorem Source.parseWith_relocate {grammar : Grammar} {source moved : Source}
    (tokens : grammar.tokenize moved.text = relocateTokens move (grammar.tokenize source.text))
    (size : moved.size = move source.size) :
    moved.parseWith grammar = (source.parseWith grammar).mapError (Fault.relocate move) := by
  unfold parseWith
  rw [tokens, size]
  cases grammar.tokenize source.text with
  | error error => rfl
  | ok words =>
      simp only [relocateTokens, Except.map, Except.mapError, parseTokens_relocate]
      cases parseTokens words source.size <;> rfl

end WhileLang
