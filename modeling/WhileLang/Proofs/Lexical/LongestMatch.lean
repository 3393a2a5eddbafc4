import Mathlib
import WhileLang.Proofs.Lexical.Lookahead
import WhileLang.Proofs.Lexical.TokenPlaces

/-!
# The first match is the longest one

A token grammar takes the first rule that matches, wherever others would find a longer
lexeme.  In the grammar of the language none would.  Most rules never match the same text,
since their lexemes begin with characters of different sorts.  Of two signs the earlier one
is no beginning of the later one, decimals stand before integers, and a reserved word is as
long as the name that it would be otherwise, and stands before it.
-/

namespace WhileLang

/-! ## Beginnings of a text in bytes -/

/-- Two beginnings of a text with the same number of bytes are the same. -/
theorem eq_of_prefix_of_utf8Length_eq {first second text : List Char} (isFirst : first <+: text)
    (isSecond : second <+: text) (same : utf8Length first = utf8Length second) :
    first = second := by
  have eq_of_longer : ∀ {short long : List Char}, short <+: long →
      utf8Length short = utf8Length long → short = long := by
    rintro short _ ⟨more, rfl⟩ same
    rw [utf8Length_append, left_eq_add] at same
    by_contra longer
    have notEmpty : more ≠ [] := by
      rintro rfl
      exact longer (List.append_nil short).symm
    exact (utf8Length_pos notEmpty).ne' same
  rcases List.prefix_or_prefix_of_prefix isFirst isSecond with longer | shorter
  · exact eq_of_longer longer same
  · exact (eq_of_longer shorter same.symm).symm

theorem utf8Length_le_of_prefix {first second : List Char} (begins : first <+: second) :
    utf8Length first ≤ utf8Length second := by
  rcases begins with ⟨rest, rfl⟩
  rw [utf8Length_append]
  exact Nat.le_add_right _ _

/-- A text goes on in one way only. -/
theorem ContinuesAt.unique {text : String} {offset : Nat} {rest rest' : List Char}
    (first : ContinuesAt text offset rest) (second : ContinuesAt text offset rest') :
    rest = rest' := by
  rcases first with ⟨before, whole, size⟩
  rcases second with ⟨before', whole', size'⟩
  have sameBefore : before = before' :=
    eq_of_prefix_of_utf8Length_eq ⟨rest, whole.symm⟩ ⟨rest', whole'.symm⟩ (size.trans size'.symm)
  subst sameBefore
  exact List.append_cancel_left (whole.symm.trans whole')

/-! ## How lexemes begin -/

/-- The sorts of characters that tell lexemes of different kinds apart. -/
inductive Beginning where
  | blank
  | digit
  | word
  | sign (c : Char)
deriving DecidableEq

/-- The sort of a character. -/
def Beginning.ofChar (c : Char) : Beginning :=
  if isBlank c then .blank
  else if c.isDigit then .digit
  else if isWordStart c then .word
  else .sign c

namespace Beginning

variable {c : Char}

theorem ofChar_of_isBlank (blank : isBlank c) : ofChar c = .blank :=
  if_pos blank

theorem ofChar_of_isDigit (digit : c.isDigit) : ofChar c = .digit := by
  have notBlank : isBlank c = false :=
    isBlank_eq_false_of_isWordChar (by simp [isWordChar, Char.isAlphanum, digit])
  simp [ofChar, notBlank, digit]

theorem ofChar_of_isWordStart (start : isWordStart c) : ofChar c = .word := by
  have notBlank := isBlank_eq_false_of_isWordChar (isWordChar_of_isWordStart start)
  have notDigit := isDigit_eq_false_of_isWordStart start
  simp [ofChar, notBlank, notDigit, start]

end Beginning

theorem isWordChar_of_mem_reservedWords {word : String} (reserved : word ∈ reservedWords) :
    ∀ c ∈ word.toList, isWordChar c := by
  have isWord : ∀ word ∈ reservedWords, word.toList.all isWordChar := by decide
  exact List.all_eq_true.mp (isWord word reserved)

namespace Pattern

/-- The sort of character with which the lexemes of a pattern begin, if it has any. -/
def beginning? : Pattern → Option Beginning
  | .whitespace => some .blank
  | .lineComment marker => some (.ofChar marker)
  | .exact text => text.toList.head?.map .ofChar
  | .keyword text => text.toList.head?.map .ofChar
  | .identifier => some .word
  | .digits => some .digit
  | .decimal => some .digit

variable {pattern first second : Pattern} {input : List Char}

/-- Where a pattern has a lexeme, the text begins with a character of its sort. -/
theorem beginning?_eq_of_lexeme_ne_nil (found : pattern.lexeme input ≠ []) :
    pattern.beginning? = input.head?.map .ofChar := by
  have ofFixed : ∀ {text : String}, text.toList <+: input → text.toList ≠ [] →
      text.toList.head?.map Beginning.ofChar = input.head?.map .ofChar := by
    rintro text ⟨rest, rfl⟩ notEmpty
    rw [List.head?_append_of_ne_nil _ notEmpty]
  have ofRun : ∀ {p : Char → Bool} {sort : Beginning}, input.takeWhile p ≠ [] →
      (∀ c, p c → Beginning.ofChar c = sort) → some sort = input.head?.map .ofChar := by
    intro p sort notEmpty sorted
    cases input with
    | nil => exact absurd rfl notEmpty
    | cons c rest =>
        have holds : p c := by
          by_contra fails
          simp [fails] at notEmpty
        rw [List.head?_cons, Option.map_some, sorted c holds]
  cases pattern with
  | whitespace => exact ofRun found fun _ => Beginning.ofChar_of_isBlank
  | digits => exact ofRun found fun _ => Beginning.ofChar_of_isDigit
  | lineComment marker =>
      simp only [lexeme] at found
      split at found
      case isTrue begins => rw [beginning?, begins, Option.map_some]
      case isFalse => exact absurd rfl found
  | exact text =>
      simp only [lexeme, List.isPrefixOf_iff_prefix] at found
      split at found
      case isTrue begins => exact ofFixed begins found
      case isFalse => exact absurd rfl found
  | keyword text =>
      simp only [lexeme, List.isPrefixOf_iff_prefix] at found
      split at found
      case isTrue begins => exact ofFixed begins.1 found
      case isFalse => exact absurd rfl found
  | identifier =>
      simp only [lexeme] at found
      split at found
      case isTrue begins =>
        cases input with
        | nil => cases begins
        | cons c rest =>
            rw [beginning?, List.head?_cons, Option.map_some,
              Beginning.ofChar_of_isWordStart begins]
      case isFalse => exact absurd rfl found
  | decimal =>
      obtain ⟨whole, rest, rfl, digits, notEmpty, _⟩ := exists_point_of_decimalLexeme_ne_nil found
      rw [List.head?_append_of_ne_nil _ notEmpty]
      obtain ⟨c, more, rfl⟩ := List.exists_cons_of_ne_nil notEmpty
      rw [beginning?, List.head?_cons, Option.map_some,
        Beginning.ofChar_of_isDigit (digits c List.mem_cons_self)]

/-! ## Two patterns that match -/

theorem lexeme_keyword_eq {word : String} (found : (keyword word).lexeme input ≠ []) :
    (keyword word).lexeme input = word.toList := by
  simp only [lexeme] at found ⊢
  split
  case isTrue => rfl
  case isFalse fails =>
    rw [if_neg fails] at found
    exact absurd rfl found

/-- A word that is matched as a keyword is the whole run of word characters. -/
theorem lexeme_keyword_eq_takeWhile {word : String} (isWord : ∀ c ∈ word.toList, isWordChar c)
    (found : (keyword word).lexeme input ≠ []) :
    (keyword word).lexeme input = input.takeWhile isWordChar := by
  simp only [lexeme, List.isPrefixOf_iff_prefix] at found ⊢
  split
  case isFalse fails =>
    rw [if_neg fails] at found
    exact absurd rfl found
  case isTrue begins =>
    obtain ⟨⟨rest, rfl⟩, stops⟩ := begins
    rw [List.drop_left] at stops
    refine (takeWhile_append_of_stops isWord ?_).1.symm
    intro c head
    by_contra wordChar
    rw [Option.mem_def] at head
    simp [head, wordChar] at stops

/-- The first pattern may stand before the second one: they never match the same text, or the
first one has the longer lexeme, or they are a reserved word and the pattern of names. -/
def outranks (first second : Pattern) : Bool :=
  first.beginning? ≠ second.beginning? ||
    match first, second with
    | .exact first, .exact second => !first.toList.isPrefixOf second.toList
    | .keyword first, .keyword second =>
        reservedWords.contains first && reservedWords.contains second && first ≠ second
    | .keyword word, .identifier => reservedWords.contains word
    | .decimal, .digits => true
    | _, _ => false

/-- Where both patterns match, the second one has the shorter lexeme, or a reserved word is
matched as a name. -/
theorem shorter_or_tie (outranks : first.outranks second) (isFirst : first.lexeme input ≠ [])
    (isSecond : second.lexeme input ≠ []) :
    (second ≠ .identifier ∧ (second.lexeme input).length < (first.lexeme input).length) ∨
      ∃ word ∈ reservedWords, first = .keyword word ∧ second = .identifier ∧
        first.lexeme input = second.lexeme input := by
  have sameBeginning : first.beginning? = second.beginning? := by
    rw [beginning?_eq_of_lexeme_ne_nil isFirst, beginning?_eq_of_lexeme_ne_nil isSecond]
  simp only [Pattern.outranks, sameBeginning, ne_eq, not_true_eq_false, decide_false,
    Bool.false_or] at outranks
  split at outranks
  next text other =>
    -- Both texts begin the input, so one begins the other.
    simp only [lexeme, List.isPrefixOf_iff_prefix] at isFirst isSecond ⊢
    split at isFirst
    case isFalse => exact absurd rfl isFirst
    case isTrue begins =>
      split at isSecond
      case isFalse => exact absurd rfl isSecond
      case isTrue begins' =>
        rw [if_pos begins, if_pos begins']
        refine .inl ⟨by simp, ?_⟩
        by_contra notShorter
        have earlier := List.prefix_of_prefix_length_le begins begins' (Nat.not_lt.mp notShorter)
        rw [Bool.not_eq_true', ← Bool.not_eq_true, List.isPrefixOf_iff_prefix] at outranks
        exact outranks earlier
  next word other =>
    simp only [Bool.and_eq_true, List.contains_iff_mem, decide_eq_true_eq] at outranks
    obtain ⟨⟨reserved, reserved'⟩, different⟩ := outranks
    have same : (keyword word).lexeme input = (keyword other).lexeme input := by
      rw [lexeme_keyword_eq_takeWhile (isWordChar_of_mem_reservedWords reserved) isFirst,
        lexeme_keyword_eq_takeWhile (isWordChar_of_mem_reservedWords reserved') isSecond]
    rw [lexeme_keyword_eq isFirst, lexeme_keyword_eq isSecond, String.toList_inj] at same
    exact absurd same different
  next word =>
    have reserved : word ∈ reservedWords := by simpa using outranks
    refine .inr ⟨word, reserved, rfl, rfl, ?_⟩
    rw [lexeme_keyword_eq_takeWhile (isWordChar_of_mem_reservedWords reserved) isFirst]
    simp only [lexeme] at isSecond ⊢
    split at isSecond
    case isTrue begins => rw [if_pos begins]
    case isFalse => exact absurd rfl isSecond
  next =>
    obtain ⟨whole, rest, rfl, digits, notEmpty, fraction⟩ :=
      exists_point_of_decimalLexeme_ne_nil isFirst
    have point : Char.isDigit '.' = false := by decide
    rw [lexeme, lexeme, decimalLexeme_at_point digits, if_pos ⟨notEmpty, fraction⟩,
      takeWhile_append_cons_of_stops point, List.takeWhile_eq_self_iff.mpr digits]
    exact .inl ⟨by simp, by simp⟩
  next => cases outranks

end Pattern

/-! ## The grammar of the language -/

namespace Grammar

/-- Every rule may stand before the rules behind it. -/
theorem standard_outranks :
    standard.rules.Pairwise fun first second => first.pattern.outranks second.pattern := by
  decide +kernel

variable {input : List Char} {rule : Rule}

/-- Among the rules that match, the first one is followed only by rules that it outranks. -/
theorem eq_or_outranks_of_find? (found : standard.find? input = some rule) {other : Rule}
    (member : other ∈ standard.rules) (isMatch : other.pattern.lexeme input ≠ []) :
    other = rule ∨ rule.pattern.outranks other.pattern := by
  obtain ⟨before, after, split, _, misses⟩ := find?_eq_some_iff.mp found
  rw [split, List.mem_append, List.mem_cons] at member
  rcases member with early | rfl | late
  · exact absurd (Pattern.matchLength?_eq_none_iff.mp (misses other early)) isMatch
  · exact .inl rfl
  · have ordered := standard_outranks
    rw [split, List.pairwise_append] at ordered
    exact .inr (List.rel_of_pairwise_cons ordered.2.1 late)

/-- No rule has a longer lexeme than the first one that matches. -/
theorem lexeme_prefix_of_find? (found : standard.find? input = some rule) {other : Rule}
    (member : other ∈ standard.rules) (isMatch : other.pattern.lexeme input ≠ []) :
    other.pattern.lexeme input <+: rule.pattern.lexeme input := by
  rcases eq_or_outranks_of_find? found member isMatch with rfl | outranks
  · exact List.prefix_refl _
  · rcases Pattern.shorter_or_tie outranks (lexeme_ne_nil_of_find? found) isMatch with
      ⟨_, shorter⟩ | ⟨_, _, _, _, same⟩
    · exact List.prefix_of_prefix_length_le (other.pattern.lexeme_prefix_input input)
        (rule.pattern.lexeme_prefix_input input) shorter.le
    · rw [same]

/-- Where names match, the first rule that matches has the same lexeme. -/
theorem lexeme_eq_of_find?_of_identifier (found : standard.find? input = some rule) {names : Rule}
    (member : names ∈ standard.rules) (isIdentifier : names.pattern = .identifier)
    (isMatch : names.pattern.lexeme input ≠ []) :
    names.pattern.lexeme input = rule.pattern.lexeme input := by
  rcases eq_or_outranks_of_find? found member isMatch with rfl | outranks
  · rfl
  · rcases Pattern.shorter_or_tie outranks (lexeme_ne_nil_of_find? found) isMatch with
      ⟨notIdentifier, _⟩ | ⟨_, _, _, _, same⟩
    · exact absurd isIdentifier notIdentifier
    · exact same.symm

/-- Where a rule and one behind it have the same lexeme, the first is that of a reserved
word, the second that of names, and the first is taken. -/
theorem find?_of_tie {first second : Rule} (isFirst : first ∈ standard.rules)
    (isSecond : second ∈ standard.rules) (outranks : first.pattern.outranks second.pattern)
    (isMatch : first.pattern.lexeme input ≠ [])
    (same : first.pattern.lexeme input = second.pattern.lexeme input) :
    (∃ word ∈ reservedWords, first.pattern = .keyword word) ∧ second.pattern = .identifier ∧
      standard.find? input = some first := by
  have isMatch' : second.pattern.lexeme input ≠ [] := same ▸ isMatch
  rcases Pattern.shorter_or_tie outranks isMatch isMatch' with
    ⟨_, shorter⟩ | ⟨word, reserved, isKeyword, isIdentifier, _⟩
  · rw [same] at shorter
    exact absurd shorter (Nat.lt_irrefl _)
  · refine ⟨⟨word, reserved, isKeyword⟩, isIdentifier, ?_⟩
    cases found : standard.find? input with
    | none =>
        have missing := find?_eq_none_iff.mp found first isFirst
        exact absurd (Pattern.matchLength?_eq_none_iff.mp missing) isMatch
    | some rule =>
        rcases eq_or_outranks_of_find? found isFirst isMatch with rfl | earlier
        · rfl
        · -- An earlier rule would have a longer lexeme than that of names.
          exfalso
          have sameRule := lexeme_eq_of_find?_of_identifier found isSecond isIdentifier isMatch'
          rcases Pattern.shorter_or_tie earlier (lexeme_ne_nil_of_find? found) isMatch with
            ⟨_, shorter⟩ | ⟨_, _, _, notKeyword, _⟩
          · rw [same, sameRule] at shorter
            exact Nat.lt_irrefl _ shorter
          · rw [isKeyword] at notKeyword
            cases notKeyword

/-! ## Tokens of the language -/

/-- The rules of reserved words and of names are those whose lexemes are words. -/
theorem pattern_cases_of_word (member : rule ∈ standard.rules)
    (isWord : rule.pattern.beginning? = some .word) :
    rule.pattern = .identifier ∨ ∃ word ∈ reservedWords, rule.pattern = .keyword word := by
  have known : ∀ rule ∈ standard.rules, rule.pattern.beginning? = some .word →
      rule.pattern = .identifier ∨ ∃ word ∈ reservedWords, rule.pattern = .keyword word := by
    decide +kernel
  exact known rule member isWord

/-- No word character stands behind the lexeme of a word. -/
theorem any_isWordChar_behind_lexeme {lexeme rest : List Char} (member : rule ∈ standard.rules)
    (isWord : rule.pattern.beginning? = some .word) (notEmpty : lexeme ≠ [])
    (isLexeme : rule.pattern.lexeme (lexeme ++ rest) = lexeme) :
    rest.head?.any isWordChar = false := by
  have isMatch : rule.pattern.lexeme (lexeme ++ rest) ≠ [] := isLexeme.symm ▸ notEmpty
  have run : (lexeme ++ rest).takeWhile isWordChar = lexeme := by
    rcases pattern_cases_of_word member isWord with isIdentifier | ⟨word, reserved, isKeyword⟩
    · rw [isIdentifier] at isLexeme isMatch
      simp only [Pattern.lexeme] at isLexeme isMatch
      split at isMatch
      case isTrue begins => rwa [if_pos begins] at isLexeme
      case isFalse => exact absurd rfl isMatch
    · rw [isKeyword] at isLexeme isMatch
      rwa [Pattern.lexeme_keyword_eq_takeWhile (isWordChar_of_mem_reservedWords reserved) isMatch]
        at isLexeme
  have stops := any_isWordChar_behind_word (lexeme ++ rest)
  rwa [run, ← List.head?_drop, List.drop_left] at stops

end Grammar

/-- A token of the category of names holds a name. -/
theorem Token.IsStandard.exists_name {token : Token} (isStandard : token.IsStandard)
    (isName : token.category = .identifier) :
    ∃ name, token.value = .text name ∧ name ∉ reservedWords := by
  cases isStandard with
  | name value isName' _ => exact ⟨_, value, isName'.notReserved⟩
  | fixed value listed =>
      have known : ∀ entry ∈ Grammar.standard.fixedTokens, entry.2.category ≠ .identifier := by
        decide
      exact absurd isName (known _ listed)
  | integer _ _ isClass => simp [isClass, integerClass] at isName
  | float _ isClass => simp [isClass, floatClass] at isName

/-- A reserved token holds a fixed word or sign. -/
theorem Token.IsStandard.exists_fixedWord {token : Token} (isStandard : token.IsStandard)
    (isReserved : token.category = .reserved) :
    ∃ word ∈ Grammar.standard.fixedWords, token.value = .text word := by
  cases isStandard with
  | fixed value listed => exact ⟨_, List.mem_map_of_mem listed, value⟩
  | name _ _ isClass => simp [isClass, nameClass] at isReserved
  | integer _ _ isClass => simp [isClass, integerClass] at isReserved
  | float _ isClass => simp [isClass, floatClass] at isReserved

namespace Grammar

/-- Behind a token that is a name or a reserved word the text does not go on with a word
character. -/
theorem any_isWordChar_behind_token {text : String} {tokens : List Token} {token : Token}
    {rest : List Char} (lexes : standard.tokenize text = .ok tokens) (member : token ∈ tokens)
    (isWord : token.category = .identifier ∨ ∃ word ∈ reservedWords, token.value = .text word)
    (continues : ContinuesAt text token.span.stop rest) : rest.head?.any isWordChar = false := by
  obtain ⟨raws, words, lossless, reads, rfl⟩ := exists_isLossless_of_tokenize_eq_ok lexes
  rcases List.mem_append.mp member with inWords | atEnd
  · obtain ⟨raw, inRaws, read⟩ := exists_of_mem_forall₂ reads inWords
    obtain ⟨lexeme, rest', rule, continues', size, holds, found, isLexeme, classed⟩ :=
      lossless.holds raw inRaws
    have isRule := mem_rules_of_find? found
    have isMatch := lexeme_ne_nil_of_find? found
    have notEmpty : lexeme ≠ [] := isLexeme ▸ isMatch
    have stop : raw.span.offset + utf8Length lexeme = token.span.stop := by
      rw [Token.span_of_readNumeral read, size, Span.stop]
    have behind : ContinuesAt text token.span.stop rest' := stop ▸ continues'.behind
    rw [← behind.unique continues]
    refine any_isWordChar_behind_lexeme isRule ?_ notEmpty isLexeme
    rcases isWord with isName | ⟨word, reserved, isText⟩
    · have known : ∀ rule ∈ standard.rules, (rule.tokenClass.any (·.category = .identifier)) →
          rule.pattern.beginning? = some .word := by decide +kernel
      apply known rule isRule
      rw [classed, Option.any_some, ← Token.toTokenClass_of_readNumeral read, isName]
      rfl
    · have known : ∀ word ∈ reservedWords,
          word.toList ≠ [] ∧ word.toList.head?.map Beginning.ofChar = some .word := by
        decide +kernel
      have spelled : lexeme = word.toList := by
        rw [Token.eq_of_readNumeral_of_text read isText, isText] at holds
        rw [TokenValue.text.inj holds, String.toList_ofList]
      rw [Pattern.beginning?_eq_of_lexeme_ne_nil isMatch, spelled,
        List.head?_append_of_ne_nil _ (known word reserved).1, (known word reserved).2]
  · rw [List.mem_singleton.mp atEnd] at isWord
    rcases isWord with isName | ⟨word, reserved, isText⟩
    · cases isName
    · cases isText
      exact absurd reserved (by decide)

/-- The first rule of the language that matches has the longest lexeme of all rules.  No rule
is found where none matches, and where one is found, no other has a lexeme of more bytes.  The
only two rules with lexemes of the same size are that of a reserved word and that of names, and
the reserved word is taken.  So in a text that is made of tokens no name is spelled like a
reserved word, a reserved token other than the mark of the end holds a text of the grammar,
no word character stands behind a name or a reserved word, and there is one mark of the end,
the last token. -/
theorem standard_finds_longest :
    (∀ input, standard.find? input = none ↔
      ∀ rule ∈ standard.rules, rule.pattern.matchLength? input = none) ∧
    (∀ input rule, standard.find? input = some rule → rule ∈ standard.rules ∧
      ∃ length, rule.pattern.matchLength? input = some length ∧
        ∀ other ∈ standard.rules, ∀ otherLength,
          other.pattern.matchLength? input = some otherLength → otherLength ≤ length) ∧
    (standard.rules.Pairwise fun first second => ∀ input length,
      first.pattern.matchLength? input = some length →
      second.pattern.matchLength? input = some length →
        (∃ word ∈ reservedWords, first.pattern = .keyword word) ∧
          second.pattern = .identifier ∧ standard.find? input = some first) ∧
    ∀ text tokens, standard.tokenize text = .ok tokens →
      (∀ token ∈ tokens, token.category = .identifier →
        ∃ name, token.value = .text name ∧ name ∉ reservedWords) ∧
      (∀ token ∈ tokens, token.category = .reserved → token.isEnd = false →
        ∃ word ∈ standard.fixedWords, token.value = .text word) ∧
      (∀ token ∈ tokens,
        (token.category = .identifier ∨ ∃ word ∈ reservedWords, token.value = .text word) →
          ∀ rest, ContinuesAt text token.span.stop rest → rest.head?.any isWordChar = false) ∧
      ∃ words mark, tokens = words ++ [mark] ∧ mark.isEnd ∧
        ∀ token ∈ words, token.isEnd = false := by
  refine ⟨fun input => find?_eq_none_iff, ?_, ?_, ?_⟩
  · intro input rule found
    have isMatch := lexeme_ne_nil_of_find? found
    refine ⟨mem_rules_of_find? found, _, Pattern.matchLength?_eq_some_iff.mpr ⟨isMatch, rfl⟩, ?_⟩
    intro other member otherLength matches_
    rw [Pattern.matchLength?_eq_some_iff] at matches_
    rw [← matches_.2]
    exact utf8Length_le_of_prefix (lexeme_prefix_of_find? found member matches_.1)
  · refine standard_outranks.imp_of_mem ?_
    intro first second isFirst isSecond outranks input length matches_ matches'
    rw [Pattern.matchLength?_eq_some_iff] at matches_ matches'
    refine find?_of_tie isFirst isSecond outranks matches_.1 ?_
    exact eq_of_prefix_of_utf8Length_eq (first.pattern.lexeme_prefix_input input)
      (second.pattern.lexeme_prefix_input input) (matches_.2.trans matches'.2.symm)
  · intro text tokens lexes
    obtain ⟨words, offset, rfl, standard⟩ := Token.isStandard_of_tokenize lexes
    refine ⟨?_, ?_, fun token member isWord rest => any_isWordChar_behind_token lexes member isWord,
      words, _, rfl, Token.isEnd_endOfInput offset,
      fun token member => (standard token member).isEnd_eq_false⟩
    · intro token member isName
      rcases List.mem_append.mp member with inWords | atEnd
      · exact (standard token inWords).exists_name isName
      · rw [List.mem_singleton.mp atEnd] at isName
        cases isName
    · intro token member isReserved notEnd
      rcases List.mem_append.mp member with inWords | atEnd
      · exact (standard token inWords).exists_fixedWord isReserved
      · rw [List.mem_singleton.mp atEnd, Token.isEnd_endOfInput] at notEnd
        cases notEnd

/-- The mark of the end is the exception among the reserved tokens: it holds no text of the
grammar, so that no token made from the text can be mistaken for it. -/
theorem not_forall_reserved_listed :
    ¬∀ text tokens, standard.tokenize text = .ok tokens →
      ∀ token ∈ tokens, token.category = .reserved →
        ∃ word ∈ standard.fixedWords, token.value = .text word := by
  intro claim
  have lexes : standard.tokenize "" = .ok [Token.endOfInput 0] := by decide +kernel
  obtain ⟨word, listed, holds⟩ :=
    claim "" [Token.endOfInput 0] lexes (Token.endOfInput 0) (List.mem_singleton_self _) rfl
  have isMark : Token.endMark = word := TokenValue.text.inj holds
  rw [← isMark] at listed
  revert listed
  decide +kernel

-- A name that is spelled like the mark is a token of its own.
example :
    standard.tokenize "EOF" =
      .ok [{ nameClass with value := .text "EOF", span := ⟨0, 3⟩ }, .endOfInput 3] := by
  decide +kernel

end Grammar

end WhileLang
