import Mathlib
import WhileLang.Proofs.Concatenation
import WhileLang.Proofs.Lexical.TokenPlaces
import WhileLang.Proofs.Parsing.ErrorPlaces

/-!
# Faults point into the source

A source that is no program is refused with a label.  Under every token grammar the label
covers whole characters of the source: the character at which no rule matches, or the text
of one token, or nothing where the source ends.  The line of the fault is the one on which
the label begins.
-/

namespace WhileLang

variable {grammar : Grammar} {text : String}

/-! ## Places of a text -/

/-- A stretch of bytes is taken up by some characters of a text. -/
def Span.Covers (span : Span) (text : String) (piece : List Char) : Prop :=
  ∃ before after, text.toList = before ++ piece ++ after ∧ utf8Length before = span.offset ∧
    utf8Length piece = span.length

theorem ContinuesAt.covers {offset : Nat} {piece rest : List Char}
    (continues : ContinuesAt text offset (piece ++ rest)) :
    (Span.mk offset (utf8Length piece)).Covers text piece := by
  rcases continues with ⟨before, whole, size⟩
  exact ⟨before, rest, by rw [whole, List.append_assoc], size, rfl⟩

/-- A place of a text is taken up by the text of a token that the stream of the text yields,
or it is the end of the text. -/
inductive Grammar.Places (grammar : Grammar) (text : String) : Span → Prop
  | token {call : Nat} {token : Token} {piece : List Char}
      (yielded : (Lexer.ofText grammar text).item? call = some (.ok token))
      (covers : token.span.Covers text piece) (notEmpty : 0 < token.span.length)
      (holds : token.value = .text (String.ofList piece)) : Places grammar text token.span
  | ending : Places grammar text ⟨text.utf8ByteSize, 0⟩

theorem Lexer.IsLossless.places {tokens : List Token} {last : Except LexError Token}
    (lossless : Lexer.IsLossless grammar text tokens last) {token : Token}
    (member : token ∈ tokens) : grammar.Places text token.span := by
  obtain ⟨call, isToken⟩ := List.mem_iff_getElem?.mp member
  obtain ⟨lexeme, rest, _, continues, size, holds, _⟩ := lossless.holds token member
  have inTokens : call < tokens.length := (List.getElem?_eq_some_iff.mp isToken).1
  have yielded : (Lexer.ofText grammar text).item? call = some (.ok token) := by
    rw [lossless.items, List.getElem?_append_left (by rwa [List.length_map]),
      List.getElem?_map, isToken]
    rfl
  have covers := continues.covers
  rw [size] at covers
  exact .token yielded covers (lossless.covers call token isToken).1 holds

/-- All tokens of a text stand at its places. -/
theorem Grammar.standsAt_places {tokens : List Token}
    (lexes : grammar.tokenize text = .ok tokens) :
    (Cursor.ofTokens tokens text.utf8ByteSize).StandsAt (grammar.Places text) := by
  obtain ⟨raws, words, lossless, reads, rfl⟩ := exists_isLossless_of_tokenize_eq_ok lexes
  refine ⟨?_, .ending⟩
  intro token member
  rcases List.mem_append.mp member with word | mark
  · obtain ⟨raw, inRaws, read⟩ := exists_of_mem_forall₂ reads word
    rw [Token.span_of_readNumeral read]
    exact lossless.places inRaws
  · rw [List.mem_singleton.mp mark]
    exact .ending

/-! ## Faults -/

/-- A fault points into a source.  Its label begins and ends between characters, and what
lies between is the character at fault or the text of one token of the stream, unless the
label stands at the end of the source. -/
structure Fault.PointsInto (grammar : Grammar) (source : Source) (fault : Fault) (span : Span)
    (before piece after : List Char) : Prop where
  /-- There is one label, and it has this place. -/
  label : ∃ remark, fault.diagnostic.labels = [⟨remark, span⟩]
  parts : source.text.toList = before ++ piece ++ after
  offset : utf8Length before = span.offset
  length : utf8Length piece = span.length
  /-- A label on nothing stands at the end. -/
  empty : span.length = 0 → span.offset = source.size
  character : ∀ c place, fault = .lexical (.invalidCharacter c place) → piece = [c]
  /-- Every other label has the place and the text of a token. -/
  token : (∀ c place, fault ≠ .lexical (.invalidCharacter c place)) → span.length ≠ 0 →
    ∃ call token, (Lexer.ofText grammar source.text).item? call = some (.ok token) ∧
      token.span = span ∧ token.value = .text (String.ofList piece)
  line : fault.line? source = some (1 + before.count '\n')
  lines : 1 + before.count '\n' ≤ 1 + source.text.toList.count '\n'

/-- The line of an offset between two characters counts the newlines before it. -/
theorem Source.lineAt_utf8Length {source : Source} {before after : List Char}
    (parts : source.text.toList = before ++ after) :
    source.lineAt (utf8Length before) = 1 + before.count '\n' := by
  have behind := newlinesBefore_append before after 0
  rw [Nat.zero_add] at behind
  cases after <;> rw [lineAt, parts, behind] <;> rfl

/-- A fault at a place of the source points into it if it is labelled there. -/
theorem Fault.exists_pointsInto {source : Source} {fault : Fault} {span : Span}
    (label : ∃ remark, fault.diagnostic.labels = [⟨remark, span⟩])
    (place : fault.span? = some span) {piece : List Char} (covers : span.Covers source.text piece)
    (empty : span.length = 0 → span.offset = source.size)
    (character : ∀ c place, fault = .lexical (.invalidCharacter c place) → piece = [c])
    (token : (∀ c place, fault ≠ .lexical (.invalidCharacter c place)) → span.length ≠ 0 →
      ∃ call token, (Lexer.ofText grammar source.text).item? call = some (.ok token) ∧
        token.span = span ∧ token.value = .text (String.ofList piece)) :
    ∃ before after, fault.PointsInto grammar source span before piece after := by
  rcases covers with ⟨before, after, parts, offset, length⟩
  refine ⟨before, after, label, parts, offset, length, empty, character, token, ?_, ?_⟩
  · rw [line?, place, Option.map_some, ← offset,
      Source.lineAt_utf8Length (parts.trans (List.append_assoc _ _ _))]
  · rw [parts, List.append_assoc, List.count_append]
    exact Nat.add_le_add_left (Nat.le_add_right _ _) 1

/-- A fault that is no stray character points into the source if it is labelled at one of its
places. -/
theorem Grammar.Places.exists_pointsInto {source : Source} {fault : Fault} {span : Span}
    (places : grammar.Places source.text span)
    (label : ∃ remark, fault.diagnostic.labels = [⟨remark, span⟩])
    (place : fault.span? = some span)
    (noStray : ∀ c place, fault ≠ .lexical (.invalidCharacter c place)) :
    ∃ before piece after, fault.PointsInto grammar source span before piece after := by
  have noCharacter : ∀ piece c place,
      fault = .lexical (.invalidCharacter c place) → piece = [c] :=
    fun _ c place same => absurd same (noStray c place)
  cases places with
  | token yielded covers notEmpty holds =>
      obtain ⟨before, after, pointsInto⟩ := Fault.exists_pointsInto label place covers
        (fun empty => absurd empty notEmpty.ne') (noCharacter _)
        (fun _ _ => ⟨_, _, yielded, rfl, holds⟩)
      exact ⟨before, _, after, pointsInto⟩
  | ending =>
      have covers : (Span.mk source.text.utf8ByteSize 0).Covers source.text [] :=
        ⟨source.text.toList, [], by simp, utf8Length_toList source.text, rfl⟩
      obtain ⟨before, after, pointsInto⟩ := Fault.exists_pointsInto label place covers
        (fun _ => (utf8Length_toList source.text).symm) (noCharacter [])
        (fun _ notEmpty => absurd rfl notEmpty)
      exact ⟨before, [], after, pointsInto⟩

theorem LexError.exists_label (error : LexError) :
    ∃ remark, (Fault.lexical error).diagnostic.labels = [⟨remark, error.span⟩] := by
  cases error <;> exact ⟨_, rfl⟩

theorem SyntaxError.exists_label (error : SyntaxError) :
    ∃ remark, (Fault.syntactic error).diagnostic.labels = [⟨remark, error.span⟩] := by
  cases error <;> exact ⟨_, rfl⟩

theorem LexError.exists_pointsInto {source : Source} {error : LexError}
    (fails : grammar.tokenize source.text = .error error) :
    ∃ before piece after,
      (Fault.lexical error).PointsInto grammar source error.span before piece after := by
  obtain ⟨raws, last, lossless, rfl | ⟨raw, member, failsThere⟩⟩ :=
    Grammar.exists_isLossless_of_tokenize_eq_error fails
  · rcases lossless.ends with ⟨noError, _⟩ | ⟨c, rest, continues, _, same⟩
    · cases noError
    · cases same
      have continues : ContinuesAt source.text _ ([c] ++ rest) := continues
      obtain ⟨before, after, pointsInto⟩ : ∃ before after,
          (Fault.lexical (.invalidCharacter c _)).PointsInto grammar source _ before [c] after :=
        Fault.exists_pointsInto (LexError.exists_label (.invalidCharacter c _)) rfl
          continues.covers (fun empty => absurd empty c.utf8Size_pos.ne')
          (by rintro _ _ ⟨⟩; rfl) (fun noStray => absurd rfl (noStray c _))
      exact ⟨before, [c], after, pointsInto⟩
  · obtain ⟨sameSpan, noStray⟩ := Token.readNumeral_eq_error failsThere
    refine (sameSpan ▸ lossless.places member).exists_pointsInto error.exists_label rfl ?_
    rintro c place ⟨⟩
    exact noStray c place rfl

theorem parseTokens_eq_error_iff {tokens : List Token} {endOffset : Nat} {error : SyntaxError} :
    parseTokens tokens endOffset = .error error ↔
      ∃ next, Parser.program (Cursor.ofTokens tokens endOffset) = .error error next := by
  unfold parseTokens
  cases Parser.program (Cursor.ofTokens tokens endOffset) with
  | ok result next => simp
  | error error next => simp

theorem SyntaxError.exists_pointsInto {source : Source} {tokens : List Token}
    {error : SyntaxError} (lexes : grammar.tokenize source.text = .ok tokens)
    (fails : parseTokens tokens source.size = .error error) :
    ∃ before piece after,
      (Fault.syntactic error).PointsInto grammar source error.span before piece after := by
  obtain ⟨next, refused⟩ := parseTokens_eq_error_iff.mp fails
  have stands := Grammar.standsAt_places lexes
  rw [← utf8Length_toList] at stands
  exact (Parser.program_admits stands refused).exists_pointsInto error.exists_label rfl (by simp)

/-- Whatever the token grammar and the source are, a fault of lexing or parsing points into
the source: its label lies in it and covers whole characters, it is empty only at the end, it
covers exactly the character at fault or exactly the text of one token of the stream, and the
line of the fault is one more than the newlines before the label. -/
theorem Source.exists_pointsInto_of_parseWith {source : Source} {fault : Fault}
    (fails : source.parseWith grammar = .error fault) :
    ∃ span before piece after, fault.PointsInto grammar source span before piece after := by
  unfold parseWith at fails
  cases lexes : grammar.tokenize source.text with
  | error error =>
      rw [lexes] at fails
      cases fails
      exact ⟨error.span, LexError.exists_pointsInto lexes⟩
  | ok tokens =>
      rw [lexes] at fails
      dsimp only at fails
      cases parses : parseTokens tokens source.size with
      | ok program =>
          rw [parses] at fails
          cases fails
      | error error =>
          rw [parses] at fails
          cases fails
          exact ⟨error.span, SyntaxError.exists_pointsInto lexes parses⟩

/-- A source with a comment in which a character takes two bytes, and with two names side by
side. -/
def strayName : Source :=
  Source.ofText none "# é\nx := a b;"

/-- The label covers the second name, whose offset counts bytes. -/
theorem strayName_pointsInto :
    ∃ before piece after,
      (Fault.syntactic (.expected (.terminal (.reserved ";")) (.text "b") ⟨12, 1⟩)).PointsInto
        .standard strayName ⟨12, 1⟩ before piece after := by
  have lexes : Grammar.standard.tokenize strayName.text =
      .ok [nameToken "x" 5, signToken ":=" 0 7, nameToken "a" 10, nameToken "b" 12,
        symbolToken ";" 13, .endOfInput 14] := by decide +kernel
  have fails : strayName.parseWith .standard =
      .error (.syntactic (.expected (.terminal (.reserved ";")) (.text "b") ⟨12, 1⟩)) := by
    simp only [Source.parseWith, lexes]
    rfl
  obtain ⟨span, before, piece, after, pointsInto⟩ := Source.exists_pointsInto_of_parseWith fails
  obtain ⟨remark, labels⟩ := pointsInto.label
  cases labels
  exact ⟨before, piece, after, pointsInto⟩

end WhileLang
