import Mathlib
import WhileLang.Proofs.Lexical.StandardToken
import WhileLang.Proofs.Lexical.Stream

/-!
# The places of tokens

Tokenizing a text collects what the stream of the text yields and reads the numerals in
it.  A numeral keeps its place when it is read, and an error about one is reported at
this place.  So all tokens stand where the stream has found them, one behind the other.
-/

namespace WhileLang

/-! ## The stream yields the tokens of the segments -/

namespace Lexer

theorem item?_congr {first second : Lexer} (same : first.next = second.next) (call : Nat) :
    first.item? call = second.item? call := by
  cases call with
  | zero => exact congrArg Prod.fst same
  | succ call => rw [item?_succ_eq, item?_succ_eq, same]

theorem item?_of_segments (segments : List Segment) (stuck : List Char) (offset call : Nat) :
    (Lexer.mk segments stuck offset false).item? call =
      ((placeTokens segments offset).map .ok ++
        [lastItem stuck (offset + segmentsSize segments)])[call]? := by
  induction segments generalizing offset call with
  | nil =>
      cases call with
      | zero => rfl
      | succ call => rw [item?_succ_eq, item?_of_finished rfl]; rfl
  | cons segment segments ih =>
      rw [segmentsSize_cons, ← Nat.add_assoc, placeTokens, List.map_append, List.append_assoc]
      cases yields : segment.token? offset with
      | none =>
          have skip : next ⟨segment :: segments, stuck, offset, false⟩ =
              next ⟨segments, stuck, offset + segment.size, false⟩ := by
            simp [next, nextItem, yields]
          rw [item?_congr skip, ih]
          rfl
      | some token =>
          cases call with
          | zero => simp [item?, after, next, nextItem, yields]
          | succ call =>
              have rest : (next ⟨segment :: segments, stuck, offset, false⟩).2 =
                  ⟨segments, stuck, offset + segment.size, false⟩ := by
                simp [next, nextItem, yields]
              rw [item?_succ_eq, rest, ih]
              rfl

/-- The tokens of the segments of a text and the last item behind them are what its stream
yields. -/
theorem isLossless_placeTokens (grammar : Grammar) (text : String) :
    IsLossless grammar text (placeTokens (grammar.segmentation text.toList).segments 0)
      (lastItem (grammar.segmentation text.toList).stuck
        (segmentsSize (grammar.segmentation text.toList).segments)) := by
  obtain ⟨tokens, last, lossless⟩ := exists_isLossless grammar text
  have same : tokens.map .ok ++ [last] =
      (placeTokens (grammar.segmentation text.toList).segments 0).map .ok ++
        [lastItem (grammar.segmentation text.toList).stuck
          (segmentsSize (grammar.segmentation text.toList).segments)] := by
    apply List.ext_getElem?
    intro call
    rw [← lossless.items, ofText, item?_of_segments, Nat.zero_add]
  obtain ⟨sameTokens, sameLast⟩ := List.append_inj' same rfl
  have injective : Function.Injective (Except.ok : Token → Except LexError Token) :=
    fun _ _ same => Except.ok.inj same
  cases List.map_injective_iff.mpr injective sameTokens
  cases List.singleton_injective sameLast
  exact lossless

end Lexer

/-- Every token of a stream begins behind the beginnings of those before it, within the
text. -/
theorem Lexer.IsLossless.pairwise_offset_lt {grammar : Grammar} {text : String}
    {raws : List Token} {last : Except LexError Token}
    (lossless : IsLossless grammar text raws last) :
    (raws.Pairwise fun first second => first.span.offset < second.span.offset) ∧
      ∀ raw ∈ raws, raw.span.offset < text.utf8ByteSize := by
  have begins : ∀ raw ∈ raws, raw.span.offset < raw.span.stop ∧
      raw.span.stop ≤ text.utf8ByteSize := by
    intro raw member
    obtain ⟨call, isToken⟩ := List.mem_iff_getElem?.mp member
    obtain ⟨notEmpty, stops⟩ := lossless.covers call raw isToken
    exact ⟨Nat.lt_add_of_pos_right notEmpty, stops ▸ lossless.bounded (call + 1)⟩
  constructor
  · refine lossless.ordered.imp_of_mem ?_
    intro first second inFirst _ apart
    exact lt_of_lt_of_le (begins first inFirst).1 apart
  · exact fun raw member => lt_of_lt_of_le (begins raw member).1 (begins raw member).2

/-! ## Reading numerals -/

theorem Token.span_of_readNumeral {raw token : Token} (reads : raw.readNumeral = .ok token) :
    token.span = raw.span := by
  unfold readNumeral at reads
  split at reads
  · split at reads <;> cases reads
    rfl
  · split at reads <;> cases reads
    rfl
  · cases reads
    rfl

theorem Token.toTokenClass_of_readNumeral {raw token : Token}
    (reads : raw.readNumeral = .ok token) : token.toTokenClass = raw.toTokenClass := by
  unfold readNumeral at reads
  split at reads
  · split at reads <;> cases reads
    rfl
  · split at reads <;> cases reads
    rfl
  · cases reads
    rfl

/-- A token that holds text after its numeral has been read was no numeral. -/
theorem Token.eq_of_readNumeral_of_text {raw token : Token} (reads : raw.readNumeral = .ok token)
    {text : String} (isText : token.value = .text text) : raw = token := by
  unfold readNumeral at reads
  split at reads
  · split at reads <;> cases reads
    cases isText
  · split at reads <;> cases reads
    cases isText
  · exact Except.ok.inj reads

/-- An error about a numeral is reported where the numeral stands. -/
theorem Token.readNumeral_eq_error {raw : Token} {error : LexError}
    (fails : raw.readNumeral = .error error) :
    error.span = raw.span ∧ ∀ c span, error ≠ .invalidCharacter c span := by
  unfold readNumeral at fails
  split at fails
  · split at fails <;> cases fails
    exact ⟨rfl, by simp⟩
  · split at fails <;> cases fails
    exact ⟨rfl, by simp⟩
  · cases fails

/-- A traversal fails with the error of the first entry that fails. -/
theorem exists_first_of_mapM_eq_error {α β ε : Type} {f : α → Except ε β} {inputs : List α}
    {error : ε} (fails : inputs.mapM f = .error error) :
    ∃ before input after, inputs = before ++ input :: after ∧
      (∀ earlier ∈ before, ∃ output, f earlier = .ok output) ∧ f input = .error error := by
  induction inputs with
  | nil => cases fails
  | cons input inputs ih =>
      rw [List.mapM_cons] at fails
      cases first : f input with
      | error other =>
          rw [first] at fails
          cases fails
          exact ⟨[], input, inputs, rfl, by simp, first⟩
      | ok output =>
          cases rest : inputs.mapM f with
          | ok outputs =>
              rw [first, rest] at fails
              cases fails
          | error other =>
              rw [first, rest] at fails
              cases fails
              obtain ⟨before, culprit, after, rfl, fine, failsThere⟩ := ih rest
              exact ⟨input :: before, culprit, after, rfl,
                List.forall_mem_cons.mpr ⟨⟨output, first⟩, fine⟩, failsThere⟩

/-! ## Tokenized texts -/

namespace Grammar

variable {grammar : Grammar} {text : String}

/-- A text that is made of tokens: they are those of its stream with the numerals read, and
the mark of the end follows them where the text ends. -/
theorem exists_isLossless_of_tokenize_eq_ok {tokens : List Token}
    (lexes : grammar.tokenize text = .ok tokens) :
    ∃ raws words, Lexer.IsLossless grammar text raws (.ok (.endOfInput text.utf8ByteSize)) ∧
      List.Forall₂ (fun raw token => raw.readNumeral = .ok token) raws words ∧
        tokens = words ++ [.endOfInput text.utf8ByteSize] := by
  obtain ⟨notStuck, words, reads, rfl⟩ := tokenize_eq_ok_iff.mp lexes
  have lossless := Lexer.isLossless_placeTokens grammar text
  have parts := grammar.spelling_segmentation text.toList
  rw [Segmentation.spelling, notStuck, List.append_nil] at parts
  have size : segmentsSize (grammar.segmentation text.toList).segments = text.utf8ByteSize := by
    rw [segmentsSize_eq_utf8Length, parts, utf8Length_toList]
  rw [notStuck, lastItem, size] at lossless
  exact ⟨_, words, lossless, reads, by rw [size]⟩

/-- A text that is not made of tokens: its stream ends at a stray character, or it ends with
the text but one of its tokens is no numeral that it should be. -/
theorem exists_isLossless_of_tokenize_eq_error {error : LexError}
    (fails : grammar.tokenize text = .error error) :
    ∃ raws last, Lexer.IsLossless grammar text raws last ∧
      (last = .error error ∨ ∃ raw ∈ raws, raw.readNumeral = .error error) := by
  have lossless := Lexer.isLossless_placeTokens grammar text
  refine ⟨_, _, lossless, ?_⟩
  dsimp only [tokenize, rawTokens] at fails
  cases last : lastItem (grammar.segmentation text.toList).stuck
      (segmentsSize (grammar.segmentation text.toList).segments) with
  | error other =>
      rw [last] at fails
      cases fails
      exact .inl rfl
  | ok mark =>
      rw [last] at fails
      obtain ⟨before, raw, after, split, _, failsThere⟩ := exists_first_of_mapM_eq_error fails
      have member : raw ∈ before ++ raw :: after :=
        List.mem_append_right _ List.mem_cons_self
      rw [← split] at member
      rcases List.mem_append.mp member with placed | atEnd
      · exact .inr ⟨raw, placed, failsThere⟩
      · -- The mark of the end is not a numeral.
        cases stuck : (grammar.segmentation text.toList).stuck with
        | nil =>
            rw [stuck, lastItem] at last
            cases last
            rw [List.mem_singleton.mp atEnd] at failsThere
            cases failsThere
        | cons c rest =>
            rw [stuck, lastItem] at last
            cases last

theorem map_span_of_forall₂ {raws words : List Token}
    (reads : List.Forall₂ (fun raw token => raw.readNumeral = .ok token) raws words) :
    words.map Token.span = raws.map Token.span := by
  induction reads with
  | nil => rfl
  | cons first _ ih => rw [List.map_cons, List.map_cons, Token.span_of_readNumeral first, ih]

/-- Every token begins behind the beginnings of those before it, the mark of the end last. -/
theorem sortedLT_offset_of_tokenize {tokens : List Token}
    (lexes : grammar.tokenize text = .ok tokens) :
    (tokens.map fun token => token.span.offset).SortedLT := by
  obtain ⟨raws, words, lossless, reads, rfl⟩ := exists_isLossless_of_tokenize_eq_ok lexes
  have sameSpans : (words.map fun token => token.span.offset) =
      raws.map fun token => token.span.offset := by
    have := congrArg (List.map Span.offset) (map_span_of_forall₂ reads)
    rwa [List.map_map, List.map_map] at this
  obtain ⟨increasing, within⟩ := lossless.pairwise_offset_lt
  rw [List.map_append, sameSpans, List.sortedLT_iff_pairwise, List.pairwise_append]
  refine ⟨List.pairwise_map.mpr increasing, List.pairwise_singleton _ _, ?_⟩
  intro offset member last atEnd
  obtain ⟨raw, inRaws, rfl⟩ := List.mem_map.mp member
  rw [List.map_singleton, List.mem_singleton] at atEnd
  rw [atEnd]
  exact within raw inRaws

end Grammar

end WhileLang
