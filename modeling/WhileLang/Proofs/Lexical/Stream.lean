import Mathlib
import WhileLang.Lexical.Lexer

/-!
# The token stream of a text

Whatever the token grammar is, the stream of a text loses nothing of it.  Every token
stands for the piece of the text at its place and has the class that the first matching
rule gives it, what lies between two tokens is made of skipped lexemes, and the stream
ends once, either where the text ends or at a character at which no rule matches.

Which rule matches first, and when none does, is said beside `Grammar.find?`.

The invariant is that a stream always stands at a place of the text and has before it the
segments of what follows that place.
-/

namespace WhileLang

/-- Behind its first `offset` bytes the text goes on with `rest`. -/
def ContinuesAt (text : String) (offset : Nat) (rest : List Char) : Prop :=
  ∃ before, text.toList = before ++ rest ∧ utf8Length before = offset

namespace ContinuesAt

variable {text : String} {offset : Nat} {rest : List Char}

theorem start (text : String) : ContinuesAt text 0 text.toList :=
  ⟨[], rfl, rfl⟩

theorem behind {piece : List Char} (continues : ContinuesAt text offset (piece ++ rest)) :
    ContinuesAt text (offset + utf8Length piece) rest := by
  rcases continues with ⟨before, whole, size⟩
  exact ⟨before ++ piece, by rw [whole, List.append_assoc], by rw [utf8Length_append, size]⟩

theorem add_eq_size (continues : ContinuesAt text offset rest) :
    offset + utf8Length rest = text.utf8ByteSize := by
  rcases continues with ⟨before, whole, rfl⟩
  rw [← utf8Length_toList, whole, utf8Length_append]

end ContinuesAt

theorem utf8Length_pos {text : List Char} (notEmpty : text ≠ []) : 0 < utf8Length text := by
  obtain ⟨c, rest, rfl⟩ := List.exists_cons_of_ne_nil notEmpty
  rw [utf8Length_cons]
  exact Nat.add_pos_left c.utf8Size_pos _

/-- Before `rest`, a text is made of lexemes that are skipped, each found by the first rule
that matches where the one before it ends. -/
inductive Grammar.Skips (grammar : Grammar) (rest : List Char) : List Char → Prop
  | nil : Skips grammar rest []
  | cons {rule : Rule} {lexeme gap : List Char}
      (found : grammar.find? (lexeme ++ gap ++ rest) = some rule)
      (isLexeme : rule.pattern.lexeme (lexeme ++ gap ++ rest) = lexeme)
      (skipped : rule.tokenClass = none) (skips : Skips grammar rest gap) :
      Skips grammar rest (lexeme ++ gap)

/-! ## Segments in front -/

@[simp]
theorem segmentsSize_nil : segmentsSize [] = 0 :=
  rfl

@[simp]
theorem segmentsSize_cons (segment : Segment) (segments : List Segment) :
    segmentsSize (segment :: segments) = segment.size + segmentsSize segments :=
  rfl

theorem segmentsSize_eq_utf8Length (segments : List Segment) :
    segmentsSize segments = utf8Length (segments.flatMap Segment.lexeme) := by
  induction segments with
  | nil => rfl
  | cons segment segments ih =>
      rw [segmentsSize_cons, List.flatMap_cons, utf8Length_append, ih, Segment.size]

theorem segmentsSize_append (first second : List Segment) :
    segmentsSize (first ++ second) = segmentsSize first + segmentsSize second := by
  rw [segmentsSize_eq_utf8Length, segmentsSize_eq_utf8Length, segmentsSize_eq_utf8Length,
    List.flatMap_append, utf8Length_append]

namespace Grammar

variable {grammar : Grammar}

/-- The first segment of a text is the lexeme of the first rule that matches, and the others
are the segments of what follows it. -/
theorem segmentation_eq_cons {input stuck : List Char} {segment : Segment}
    {segments : List Segment}
    (cut : grammar.segmentation input = ⟨segment :: segments, stuck⟩) :
    ∃ rest, input = segment.lexeme ++ rest ∧ segment.lexeme ≠ [] ∧
      grammar.find? input = some segment.rule ∧ segment.rule.pattern.lexeme input = segment.lexeme ∧
        grammar.segmentation rest = ⟨segments, stuck⟩ := by
  cases found : grammar.segment? input with
  | none => simp [segmentation_of_segment?_eq_none found] at cut
  | some first =>
      rw [segmentation_of_segment?_eq_some found, Segmentation.cons, Segmentation.mk.injEq,
        List.cons.injEq] at cut
      obtain ⟨⟨rfl, rfl⟩, rfl⟩ := cut
      refine ⟨_, (segment?_append_drop found).symm, segment?_lexeme_ne_nil found, ?_⟩
      rcases Option.map_eq_some_iff.mp found with ⟨rule, ruleFound, rfl⟩
      exact ⟨ruleFound, rfl, rfl⟩

/-- A text without segments is stuck where it begins. -/
theorem segmentation_eq_nil {input stuck : List Char}
    (cut : grammar.segmentation input = ⟨[], stuck⟩) :
    stuck = input ∧ grammar.find? input = none := by
  cases found : grammar.segment? input with
  | none =>
      rw [segmentation_of_segment?_eq_none found, Segmentation.mk.injEq] at cut
      exact ⟨cut.2.symm, Option.map_eq_none_iff.mp found⟩
  | some first => simp [segmentation_of_segment?_eq_some found, Segmentation.cons] at cut

/-- Segments in front that yield no token are skipped. -/
theorem skips_of_segmentation {skipped segments : List Segment} {input stuck : List Char}
    (cut : grammar.segmentation input = ⟨skipped ++ segments, stuck⟩)
    (noToken : ∀ segment ∈ skipped, segment.rule.tokenClass = none) :
    ∃ rest, input = skipped.flatMap Segment.lexeme ++ rest ∧
      grammar.Skips rest (skipped.flatMap Segment.lexeme) ∧
        grammar.segmentation rest = ⟨segments, stuck⟩ := by
  induction skipped generalizing input with
  | nil => exact ⟨input, rfl, .nil, cut⟩
  | cons segment skipped ih =>
      obtain ⟨_, rfl, _, found, isLexeme, cutRest⟩ := segmentation_eq_cons cut
      rw [List.forall_mem_cons] at noToken
      obtain ⟨rest, rfl, skips, cutLast⟩ := ih cutRest noToken.2
      rw [← List.append_assoc] at found isLexeme
      refine ⟨rest, ?_, ?_, cutLast⟩
      · rw [List.flatMap_cons, List.append_assoc]
      · exact .cons found isLexeme noToken.1 skips

end Grammar

/-! ## One item -/

namespace Lexer

/-- The next item of a list of segments is the token of the first segment that yields one,
or the last item if none does. -/
theorem nextItem_cases (stuck : List Char) (segments : List Segment) (offset : Nat) :
    ((∀ segment ∈ segments, segment.rule.tokenClass = none) ∧
      nextItem stuck segments offset =
        (lastItem stuck (offset + segmentsSize segments),
          ⟨[], stuck, offset + segmentsSize segments, true⟩)) ∨
    ∃ skipped segment others tokenClass, segments = skipped ++ segment :: others ∧
      (∀ other ∈ skipped, other.rule.tokenClass = none) ∧
      segment.rule.tokenClass = some tokenClass ∧
      nextItem stuck segments offset =
        (.ok ⟨tokenClass, .text (String.ofList segment.lexeme),
            ⟨offset + segmentsSize skipped, segment.size⟩⟩,
          ⟨others, stuck, offset + segmentsSize skipped + segment.size, false⟩) := by
  induction segments generalizing offset with
  | nil => exact .inl ⟨by simp, rfl⟩
  | cons segment segments ih =>
      cases classed : segment.rule.tokenClass with
      | some tokenClass =>
          refine .inr ⟨[], segment, segments, tokenClass, rfl, by simp, classed, ?_⟩
          simp [nextItem, Segment.token?, classed]
      | none =>
          have skip : nextItem stuck (segment :: segments) offset =
              nextItem stuck segments (offset + segment.size) := by
            simp [nextItem, Segment.token?, classed]
          rw [skip, segmentsSize_cons, ← Nat.add_assoc]
          rcases ih (offset + segment.size) with ⟨noToken, last⟩ |
            ⟨skipped, found, others, tokenClass, rfl, noToken, foundClass, next⟩
          · exact .inl ⟨List.forall_mem_cons.mpr ⟨classed, noToken⟩, last⟩
          · refine .inr ⟨segment :: skipped, found, others, tokenClass, rfl,
              List.forall_mem_cons.mpr ⟨classed, noToken⟩, foundClass, ?_⟩
            rw [next, segmentsSize_cons, ← Nat.add_assoc]

/-- From a byte offset on, a text yields an item and leads to another offset.  Behind
skipped lexemes there is a token that holds a lexeme, the end of the text, or a character
at which no rule matches; the last two items are final. -/
inductive Yields (grammar : Grammar) (text : String) (start : Nat) :
    Except LexError Token → Nat → Bool → Prop
  | token {gap lexeme rest : List Char} {rule : Rule} {tokenClass : TokenClass}
      (continues : ContinuesAt text start (gap ++ (lexeme ++ rest)))
      (skips : grammar.Skips (lexeme ++ rest) gap) (notEmpty : lexeme ≠ [])
      (found : grammar.find? (lexeme ++ rest) = some rule)
      (isLexeme : rule.pattern.lexeme (lexeme ++ rest) = lexeme)
      (classed : rule.tokenClass = some tokenClass) :
      Yields grammar text start
        (.ok ⟨tokenClass, .text (String.ofList lexeme),
          ⟨start + utf8Length gap, utf8Length lexeme⟩⟩)
        (start + utf8Length gap + utf8Length lexeme) false
  | endOfInput {gap : List Char} (continues : ContinuesAt text start gap)
      (skips : grammar.Skips [] gap) :
      Yields grammar text start (.ok (.endOfInput (start + utf8Length gap)))
        (start + utf8Length gap) true
  | stray {gap rest : List Char} {c : Char} (continues : ContinuesAt text start (gap ++ c :: rest))
      (skips : grammar.Skips (c :: rest) gap) (unmatched : grammar.find? (c :: rest) = none) :
      Yields grammar text start
        (.error (.invalidCharacter c ⟨start + utf8Length gap, c.utf8Size⟩))
        (start + utf8Length gap) true

/-- The stream stands at a place of the text and has before it the segments of what follows
that place. -/
def StandsIn (lexer : Lexer) (grammar : Grammar) (text : String) : Prop :=
  ∃ rest, ContinuesAt text lexer.offset rest ∧
    grammar.segmentation rest = ⟨lexer.segments, lexer.stuck⟩

theorem standsIn_ofText (grammar : Grammar) (text : String) :
    (ofText grammar text).StandsIn grammar text :=
  ⟨text.toList, .start text, rfl⟩

theorem next_of_finished {lexer : Lexer} (finished : lexer.finished = true) :
    lexer.next = (none, lexer) := by
  simp [next, finished]

/-- A stream that is not finished yields an item of the text and stands behind it then. -/
theorem StandsIn.next {lexer : Lexer} {grammar : Grammar} {text : String}
    (stands : lexer.StandsIn grammar text) (unfinished : lexer.finished = false) :
    ∃ item, lexer.next.1 = some item ∧
      Yields grammar text lexer.offset item lexer.next.2.offset lexer.next.2.finished ∧
        lexer.next.2.StandsIn grammar text := by
  rcases lexer with ⟨segments, stuck, offset, finished⟩
  cases unfinished
  rcases stands with ⟨input, continues, cut⟩
  have call : Lexer.next ⟨segments, stuck, offset, false⟩ =
      (some (nextItem stuck segments offset).1, (nextItem stuck segments offset).2) := rfl
  rw [call]
  refine ⟨_, rfl, ?_⟩
  rcases nextItem_cases stuck segments offset with ⟨noToken, last⟩ |
    ⟨skipped, segment, others, tokenClass, rfl, noToken, classed, next⟩
  · rw [last, segmentsSize_eq_utf8Length]
    obtain ⟨rest, rfl, skips, cutRest⟩ :=
      Grammar.skips_of_segmentation (by rwa [List.append_nil]) noToken
    obtain ⟨rfl, unmatched⟩ := Grammar.segmentation_eq_nil cutRest
    refine ⟨?_, stuck, continues.behind, cutRest⟩
    cases stuck with
    | nil => exact .endOfInput (by rwa [List.append_nil] at continues) skips
    | cons c rest => exact .stray continues skips unmatched
  · rw [next, segmentsSize_eq_utf8Length]
    obtain ⟨_, rfl, skips, cutRest⟩ := Grammar.skips_of_segmentation cut noToken
    obtain ⟨rest, rfl, notEmpty, found, isLexeme, cutLast⟩ :=
      Grammar.segmentation_eq_cons cutRest
    exact ⟨.token continues skips notEmpty found isLexeme classed, rest,
      continues.behind.behind, cutLast⟩

/-! ## The whole stream -/

/-- The stream after a number of calls. -/
def after (lexer : Lexer) : Nat → Lexer
  | 0 => lexer
  | calls + 1 => (lexer.after calls).next.2

/-- What a call yields, counted from zero. -/
def item? (lexer : Lexer) (call : Nat) : Option (Except LexError Token) :=
  (lexer.after call).next.1

theorem after_succ_eq (lexer : Lexer) (calls : Nat) :
    lexer.after (calls + 1) = lexer.next.2.after calls := by
  induction calls with
  | zero => rfl
  | succ calls ih => rw [after, ih, after]

theorem item?_succ_eq (lexer : Lexer) (call : Nat) :
    lexer.item? (call + 1) = lexer.next.2.item? call := by
  rw [item?, after_succ_eq, item?]

theorem after_of_finished {lexer : Lexer} (finished : lexer.finished = true) (calls : Nat) :
    lexer.after calls = lexer := by
  induction calls with
  | zero => rfl
  | succ calls ih => rw [after, ih, next_of_finished finished]

theorem item?_of_finished {lexer : Lexer} (finished : lexer.finished = true) (call : Nat) :
    lexer.item? call = none := by
  rw [item?, after_of_finished finished, next_of_finished finished]

/-- No call is left to a finished stream, and every other call leaves fewer segments or
finishes the stream. -/
theorem next_shortens {lexer : Lexer} (unfinished : lexer.finished = false) :
    ∃ item, lexer.next.1 = some item ∧ (lexer.next.2.finished = true ∨
      lexer.next.2.finished = false ∧ (∃ token, item = .ok token) ∧
        lexer.next.2.segments.length < lexer.segments.length) := by
  rcases lexer with ⟨segments, stuck, offset, finished⟩
  cases unfinished
  have call : Lexer.next ⟨segments, stuck, offset, false⟩ =
      (some (nextItem stuck segments offset).1, (nextItem stuck segments offset).2) := rfl
  rw [call]
  refine ⟨_, rfl, ?_⟩
  rcases nextItem_cases stuck segments offset with ⟨_, last⟩ |
    ⟨skipped, segment, others, tokenClass, rfl, _, _, next⟩
  · exact .inl (by rw [last])
  · refine .inr ⟨by rw [next], ⟨_, by rw [next]⟩, ?_⟩
    rw [next]
    simp only [List.length_append, List.length_cons]
    omega

/-- A stream yields finitely many tokens, one item more, and then nothing. -/
theorem exists_items (lexer : Lexer) (unfinished : lexer.finished = false) :
    ∃ (tokens : List Token) (last : Except LexError Token),
      ∀ call, lexer.item? call = (tokens.map .ok ++ [last])[call]? := by
  induction left : lexer.segments.length using Nat.strongRecOn generalizing lexer with
  | ind n ih =>
      obtain ⟨item, first, finished | ⟨unfinished', ⟨token, rfl⟩, shorter⟩⟩ :=
        next_shortens unfinished
      · refine ⟨[], item, fun call => ?_⟩
        cases call with
        | zero => exact first
        | succ call => rw [item?_succ_eq, item?_of_finished finished]; rfl
      · obtain ⟨tokens, last, others⟩ := ih _ (left ▸ shorter) lexer.next.2 unfinished' rfl
        refine ⟨token :: tokens, last, fun call => ?_⟩
        cases call with
        | zero => exact first
        | succ call => rw [item?_succ_eq, others]; rfl

theorem standsIn_after {lexer : Lexer} {grammar : Grammar} {text : String}
    (stands : lexer.StandsIn grammar text) (calls : Nat) :
    (lexer.after calls).StandsIn grammar text := by
  induction calls with
  | zero => exact stands
  | succ calls ih =>
      rw [after]
      cases finished : (lexer.after calls).finished with
      | true => rwa [next_of_finished finished]
      | false =>
          obtain ⟨_, _, _, standsNext⟩ := ih.next finished
          exact standsNext

/-- A call yields an item if and only if the stream is not finished. -/
theorem item?_eq_none_iff {lexer : Lexer} {call : Nat} :
    lexer.item? call = none ↔ (lexer.after call).finished = true := by
  constructor
  · intro noItem
    by_contra unfinished
    obtain ⟨item, first, _⟩ := next_shortens (Bool.not_eq_true _ ▸ unfinished)
    rw [item?, first] at noItem
    cases noItem
  · intro finished
    rw [item?, next_of_finished finished]

/-- An item that a call yields is one of the text. -/
theorem yields_of_item? {lexer : Lexer} {grammar : Grammar} {text : String} {call : Nat}
    {item : Except LexError Token} (stands : lexer.StandsIn grammar text)
    (called : lexer.item? call = some item) :
    Yields grammar text (lexer.after call).offset item (lexer.after (call + 1)).offset
      (lexer.after (call + 1)).finished := by
  have unfinished : (lexer.after call).finished = false := by
    by_contra finished
    rw [item?_eq_none_iff.mpr (Bool.not_eq_false _ ▸ finished)] at called
    cases called
  obtain ⟨item', first, yields, _⟩ := (standsIn_after stands call).next unfinished
  rw [item?, first] at called
  cases called
  exact yields

end Lexer

/-- The byte offset at which an item is reported. -/
def itemOffset : Except LexError Token → Nat
  | .ok token => token.span.offset
  | .error error => error.span.offset

namespace Lexer.Yields

variable {grammar : Grammar} {text : String} {start stop : Nat} {item : Except LexError Token}
  {final : Bool}

theorem exists_gap (yields : Yields grammar text start item stop final) :
    ∃ gap rest, ContinuesAt text start (gap ++ rest) ∧ grammar.Skips rest gap ∧
      start + utf8Length gap = itemOffset item := by
  cases yields with
  | token continues skips => exact ⟨_, _, continues, skips, rfl⟩
  | endOfInput continues skips => exact ⟨_, [], by rwa [List.append_nil], skips, rfl⟩
  | stray continues skips => exact ⟨_, _, continues, skips, rfl⟩

theorem le (yields : Yields grammar text start item stop final) : start ≤ stop := by
  cases yields <;> omega

end Lexer.Yields

/-! ## Nothing is lost -/

namespace Lexer

/-- The byte offset at which the stream of a text stands after a number of calls. -/
def offsetAfter (grammar : Grammar) (text : String) (calls : Nat) : Nat :=
  ((ofText grammar text).after calls).offset

/-- The stream of a text yields some tokens and a last item, and it loses nothing of the
text. -/
structure IsLossless (grammar : Grammar) (text : String) (tokens : List Token)
    (last : Except LexError Token) : Prop where
  /-- The calls yield the tokens one by one, then the last item, and from then on nothing. -/
  items : ∀ call, (ofText grammar text).item? call = (tokens.map .ok ++ [last])[call]?
  /-- After every call the stream stands between two characters of the text or at an end. -/
  stands : ∀ calls, ∃ rest, ContinuesAt text (offsetAfter grammar text calls) rest
  /-- It never goes beyond the text. -/
  bounded : ∀ calls, offsetAfter grammar text calls ≤ text.utf8ByteSize
  /-- It never goes back. -/
  monotone : ∀ calls, offsetAfter grammar text calls ≤ offsetAfter grammar text (calls + 1)
  /-- It stays where the last item has left it. -/
  rests : ∀ calls, tokens.length < calls →
    offsetAfter grammar text calls = offsetAfter grammar text (tokens.length + 1)
  /-- A token covers some bytes up to where the stream stands behind it. -/
  covers : ∀ call token, tokens[call]? = some token →
    0 < token.span.length ∧ token.span.stop = offsetAfter grammar text (call + 1)
  /-- A token holds the piece of the text at its place, which is the lexeme of the first rule
  that matches there, and has the class that this rule gives. -/
  holds : ∀ token ∈ tokens, ∃ lexeme rest rule,
    ContinuesAt text token.span.offset (lexeme ++ rest) ∧
      utf8Length lexeme = token.span.length ∧ token.value = .text (String.ofList lexeme) ∧
        grammar.find? (lexeme ++ rest) = some rule ∧
          rule.pattern.lexeme (lexeme ++ rest) = lexeme ∧
            rule.tokenClass = some token.toTokenClass
  /-- The places of the tokens are apart and in order. -/
  ordered : tokens.Pairwise fun first second => first.span.stop ≤ second.span.offset
  /-- From where the stream stands up to the next item there are only skipped lexemes. -/
  gaps : ∀ call item, (ofText grammar text).item? call = some item →
    ∃ gap rest, ContinuesAt text (offsetAfter grammar text call) (gap ++ rest) ∧
      grammar.Skips rest gap ∧
        offsetAfter grammar text call + utf8Length gap = itemOffset item
  /-- The last item is the end of the input, where the text ends, or the character where the
  stream stands then, and no rule matches there. -/
  ends : (last = .ok (.endOfInput text.utf8ByteSize) ∧
      offsetAfter grammar text (tokens.length + 1) = text.utf8ByteSize) ∨
    ∃ c rest, ContinuesAt text (offsetAfter grammar text (tokens.length + 1)) (c :: rest) ∧
      grammar.find? (c :: rest) = none ∧
        last = .error (.invalidCharacter c
          ⟨offsetAfter grammar text (tokens.length + 1), c.utf8Size⟩)

/-- A token that is not the last item is a lexeme of the text. -/
theorem Yields.holds {grammar : Grammar} {text : String} {start stop : Nat} {token : Token}
    (yields : Yields grammar text start (.ok token) stop false) :
    0 < token.span.length ∧ token.span.stop = stop ∧ ∃ lexeme rest rule,
      ContinuesAt text token.span.offset (lexeme ++ rest) ∧
        utf8Length lexeme = token.span.length ∧ token.value = .text (String.ofList lexeme) ∧
          grammar.find? (lexeme ++ rest) = some rule ∧
            rule.pattern.lexeme (lexeme ++ rest) = lexeme ∧
              rule.tokenClass = some token.toTokenClass := by
  cases yields with
  | token continues skips notEmpty found isLexeme classed =>
      refine ⟨utf8Length_pos notEmpty, rfl, _, _, _, continues.behind, rfl, rfl, found, isLexeme,
        classed⟩

/-- The last item is the end of the input or a stray character. -/
theorem Yields.ends {grammar : Grammar} {text : String} {start stop : Nat}
    {last : Except LexError Token} (yields : Yields grammar text start last stop true) :
    (last = .ok (.endOfInput text.utf8ByteSize) ∧ stop = text.utf8ByteSize) ∨
      ∃ c rest, ContinuesAt text stop (c :: rest) ∧ grammar.find? (c :: rest) = none ∧
        last = .error (.invalidCharacter c ⟨stop, c.utf8Size⟩) := by
  cases yields with
  | endOfInput continues _ =>
      rw [continues.add_eq_size]
      exact .inl ⟨rfl, rfl⟩
  | stray continues _ unmatched => exact .inr ⟨_, _, continues.behind, unmatched, rfl⟩

section

variable {grammar : Grammar} {text : String} {tokens : List Token} {last : Except LexError Token}

theorem yields_of_call {call : Nat} {item : Except LexError Token}
    (called : (ofText grammar text).item? call = some item) :
    Yields grammar text (offsetAfter grammar text call) item
      (offsetAfter grammar text (call + 1)) ((ofText grammar text).after (call + 1)).finished :=
  yields_of_item? (standsIn_ofText grammar text) called

theorem offsetAfter_le_succ (calls : Nat) :
    offsetAfter grammar text calls ≤ offsetAfter grammar text (calls + 1) := by
  cases called : (ofText grammar text).item? calls with
  | some item => exact (yields_of_call called).le
  | none => rw [offsetAfter, offsetAfter, after, next_of_finished (item?_eq_none_iff.mp called)]

theorem offsetAfter_mono {fewer more : Nat} (le : fewer ≤ more) :
    offsetAfter grammar text fewer ≤ offsetAfter grammar text more :=
  monotone_nat_of_le_succ offsetAfter_le_succ le

/-- The items before the last one are tokens, and the stream goes on behind them. -/
theorem yields_token
    (items : ∀ call, (ofText grammar text).item? call = (tokens.map .ok ++ [last])[call]?)
    {call : Nat} {token : Token} (isToken : tokens[call]? = some token) :
    Yields grammar text (offsetAfter grammar text call) (.ok token)
      (offsetAfter grammar text (call + 1)) false := by
  have inTokens : call < tokens.length := (List.getElem?_eq_some_iff.mp isToken).1
  have called : (ofText grammar text).item? call = some (.ok token) := by
    rw [items, List.getElem?_append_left (by rwa [List.length_map]), List.getElem?_map, isToken]
    rfl
  have goesOn : ((ofText grammar text).after (call + 1)).finished = false := by
    by_contra finished
    have noItem := item?_eq_none_iff.mpr (Bool.not_eq_false _ ▸ finished)
    rw [items, List.getElem?_eq_none_iff, List.length_append, List.length_map] at noItem
    simp only [List.length_singleton] at noItem
    omega
  exact goesOn ▸ yields_of_call called

/-- Behind the last item the stream is finished. -/
theorem finished_of_length_lt
    (items : ∀ call, (ofText grammar text).item? call = (tokens.map .ok ++ [last])[call]?)
    {calls : Nat} (behind : tokens.length < calls) :
    ((ofText grammar text).after calls).finished = true := by
  rw [← item?_eq_none_iff, items, List.getElem?_eq_none_iff]
  simpa using behind

theorem yields_last
    (items : ∀ call, (ofText grammar text).item? call = (tokens.map .ok ++ [last])[call]?) :
    Yields grammar text (offsetAfter grammar text tokens.length) last
      (offsetAfter grammar text (tokens.length + 1)) true := by
  have called : (ofText grammar text).item? tokens.length = some last := by
    rw [items, List.getElem?_append_right (by rw [List.length_map]), List.length_map,
      Nat.sub_self]
    rfl
  exact finished_of_length_lt items (Nat.lt_succ_self _) ▸ yields_of_call called

/-- Once the stream is finished, calls do not move it. -/
theorem offsetAfter_eq_of_length_lt
    (items : ∀ call, (ofText grammar text).item? call = (tokens.map .ok ++ [last])[call]?)
    {calls : Nat} (behind : tokens.length < calls) :
    offsetAfter grammar text calls = offsetAfter grammar text (tokens.length + 1) := by
  induction behind with
  | refl => rfl
  | step behind ih =>
      rw [← ih, offsetAfter, after, next_of_finished (finished_of_length_lt items behind)]
      rfl

/-- The places of the tokens are apart and in order, since each ends where the stream stands
behind it and begins no earlier than where the stream stands before it. -/
theorem pairwise_stop_le
    (items : ∀ call, (ofText grammar text).item? call = (tokens.map .ok ++ [last])[call]?) :
    tokens.Pairwise fun first second => first.span.stop ≤ second.span.offset := by
  rw [List.pairwise_iff_getElem]
  intro call later inTokens laterInTokens before
  have first := yields_token items (List.getElem?_eq_getElem inTokens)
  have second := yields_token items (List.getElem?_eq_getElem laterInTokens)
  obtain ⟨gap, _, _, _, gapEnds⟩ := second.exists_gap
  calc tokens[call].span.stop
      = offsetAfter grammar text (call + 1) := first.holds.2.1
    _ ≤ offsetAfter grammar text later := offsetAfter_mono before
    _ ≤ offsetAfter grammar text later + utf8Length gap := Nat.le_add_right _ _
    _ = tokens[later].span.offset := gapEnds

end

/-- Whatever the grammar and the text are, the stream loses nothing of the text. -/
theorem exists_isLossless (grammar : Grammar) (text : String) :
    ∃ tokens last, IsLossless grammar text tokens last := by
  obtain ⟨tokens, last, items⟩ := exists_items (ofText grammar text) rfl
  have stands : ∀ calls, ∃ rest, ContinuesAt text (offsetAfter grammar text calls) rest := by
    intro calls
    obtain ⟨rest, continues, _⟩ := standsIn_after (standsIn_ofText grammar text) calls
    exact ⟨rest, continues⟩
  exact ⟨tokens, last, {
    items := items
    stands := stands
    bounded := by
      intro calls
      obtain ⟨rest, continues⟩ := stands calls
      exact Nat.le.intro continues.add_eq_size
    monotone := offsetAfter_le_succ
    rests := fun calls behind => offsetAfter_eq_of_length_lt items behind
    covers := by
      intro call token isToken
      obtain ⟨notEmpty, stops, _⟩ := (yields_token items isToken).holds
      exact ⟨notEmpty, stops⟩
    holds := by
      intro token member
      obtain ⟨call, isToken⟩ := List.mem_iff_getElem?.mp member
      exact (yields_token items isToken).holds.2.2
    ordered := pairwise_stop_le items
    gaps := fun call item called => (yields_of_call called).exists_gap
    ends := (yields_last items).ends }⟩

end Lexer

end WhileLang
