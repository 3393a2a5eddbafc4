import WhileLang.Proofs.Lexical.StandardToken

/-!
# Lexing words that stand apart

When the words of a text are separated by single spaces, every word is a token of its
own.  A space belongs to no lexeme but white space, so what stands behind a word has
no influence on the lexeme that begins the word, and it is enough to know how each
word is read alone.
-/

namespace WhileLang

/-- The token is what a word stands for in the language, wherever it stands. -/
inductive Token.IsWrittenAs (token : Token) (word : String) : Prop
  | fixed (value : token.value = .text word)
      (listed : (word, token.toTokenClass) ∈ Grammar.standard.fixedTokens)
  | name (value : token.value = .text word) (isName : IsName word)
      (isClass : token.toTokenClass = nameClass)
  | integer {number : Int64} (value : token.value = .int number) (nonnegative : 0 ≤ number.toInt)
      (isNumeral : word = toString number.toInt) (isClass : token.toTokenClass = integerClass)

/-! ## Numerals -/

theorem toList_toString_of_nonneg {number : Int64} (nonnegative : 0 ≤ number.toInt) :
    ∃ natural : Nat, number.toInt = natural ∧
      (toString number.toInt).toList = Nat.toDigits 10 natural := by
  obtain ⟨natural, same⟩ := Int.eq_ofNat_of_zero_le nonnegative
  refine ⟨natural, same, ?_⟩
  rw [same]
  exact Nat.toList_repr

theorem isDigit_of_mem_toDigits (natural : Nat) :
    ∀ c ∈ Nat.toDigits 10 natural, c.isDigit = true :=
  fun _ member => Nat.isDigit_of_mem_toDigits (by decide) (by decide) member

theorem head?_toString_isDigit {number : Int64} (nonnegative : 0 ≤ number.toInt) :
    (toString number.toInt).toList.head?.any Char.isDigit := by
  obtain ⟨natural, _, digits⟩ := toList_toString_of_nonneg nonnegative
  obtain ⟨c, rest, same⟩ :=
    List.exists_cons_of_ne_nil (Nat.toDigits_ne_nil (b := 10) (n := natural))
  rw [digits, same]
  exact isDigit_of_mem_toDigits natural c (by simp [same])

/-- A text that begins with a digit is read as an integer without a sign. -/
theorem Decimal.readInteger_eq_readNonnegative {c : Char} (digit : c.isDigit)
    (rest : List Char) : Decimal.readInteger (c :: rest) = Decimal.readNonnegative (c :: rest) := by
  have notSign : c ≠ '+' ∧ c ≠ '-' :=
    ⟨fun plus => absurd (plus ▸ digit) (by decide), fun minus => absurd (minus ▸ digit) (by decide)⟩
  unfold Decimal.readInteger
  split
  next empty => cases empty
  next plus => exact absurd (List.cons.inj plus).1 notSign.1
  next minus => exact absurd (List.cons.inj minus).1 notSign.2
  next plus => exact absurd (List.cons.inj plus).1 notSign.1
  next minus => exact absurd (List.cons.inj minus).1 notSign.2
  next => rfl

/-- A run of digits denotes its value if this fits into a word, and is too large otherwise. -/
theorem Decimal.readInteger_digits {digits : List Char} (notEmpty : digits ≠ [])
    (allDigits : ∀ c ∈ digits, c.isDigit) :
    Decimal.readInteger digits =
      if Decimal.natOfDigits digits < Nat.pow 2 63 then
        .ok (Int64.ofInt (Decimal.natOfDigits digits))
      else
        .error .tooLarge := by
  have whole : digits.takeWhile Char.isDigit = digits :=
    List.takeWhile_eq_self_iff.mpr allDigits
  have all : digits.all Char.isDigit = true := List.all_eq_true.mpr allDigits
  have inRange : Decimal.natOfDigits digits ≤ Nat.pow 2 63 - 1 ↔
      Decimal.natOfDigits digits < Nat.pow 2 63 :=
    Nat.le_sub_one_iff_lt (Nat.pow_pos (Nat.succ_pos 1))
  obtain ⟨c, rest, rfl⟩ := List.exists_cons_of_ne_nil notEmpty
  rw [readInteger_eq_readNonnegative (allDigits c List.mem_cons_self)]
  simp only [Decimal.readNonnegative, Decimal.readDigits, whole, all, if_true, inRange]
  split
  case isTrue => rfl
  case isFalse => rfl

/-- A run of digits whose value fits into a word denotes this value. -/
theorem Decimal.readInteger_of_isDigit {digits : List Char} (notEmpty : digits ≠ [])
    (allDigits : ∀ c ∈ digits, c.isDigit)
    (bounded : Decimal.natOfDigits digits < Nat.pow 2 63) :
    Decimal.readInteger digits = .ok (Int64.ofInt (Decimal.natOfDigits digits)) := by
  rw [readInteger_digits notEmpty allDigits, if_pos bounded]

theorem Decimal.readInteger_toString {number : Int64} (nonnegative : 0 ≤ number.toInt) :
    Decimal.readInteger (toString number.toInt).toList = .ok number := by
  obtain ⟨natural, same, digits⟩ := toList_toString_of_nonneg nonnegative
  have value : Decimal.natOfDigits (Nat.toDigits 10 natural) = natural :=
    Nat.ofDigitChars_ten_toDigits
  have bounded : natural < Nat.pow 2 63 := by
    have below := number.toInt_lt
    rw [Nat.pow_eq]
    omega
  rw [digits, readInteger_of_isDigit Nat.toDigits_ne_nil (isDigit_of_mem_toDigits natural)
    (by rwa [value]), value, ← same, Int64.ofInt_toInt]

/-! ## One word alone -/

/-- The text is one lexeme without separators, and it is read as a token that is written
so. -/
structure IsWord (word : String) : Prop where
  notEmpty : word.toList ≠ []
  compact : ∀ c ∈ word.toList, isBlank c = false ∧ c ≠ '#'
  alone : ∃ rule tokenClass, Grammar.standard.segment? word.toList = some ⟨rule, word.toList⟩ ∧
    rule.tokenClass = some tokenClass ∧
      ∀ span, ∃ token, Token.readNumeral ⟨tokenClass, .text word, span⟩ = .ok token ∧
        token.IsWrittenAs word

/-- A word begins with a character that is no separator. -/
theorem IsWord.exists_cons {word : String} (isWord : IsWord word) :
    ∃ c more, word.toList = c :: more ∧ isBlank c = false ∧ c ≠ '#' := by
  obtain ⟨c, more, text⟩ := List.exists_cons_of_ne_nil isWord.notEmpty
  exact ⟨c, more, text, isWord.compact c (by simp [text])⟩

/-- A fixed text alone is cut as a whole, with the class that its rule gives it. -/
theorem Grammar.segment?_of_mem_fixedTokens {word : String} {tokenClass : TokenClass}
    (listed : (word, tokenClass) ∈ standard.fixedTokens) :
    ∃ rule, standard.segment? word.toList = some ⟨rule, word.toList⟩ ∧
      rule.tokenClass = some tokenClass := by
  have cut : ∀ entry ∈ standard.fixedTokens, ∃ rule ∈ standard.rules,
      standard.segment? entry.1.toList = some ⟨rule, entry.1.toList⟩ ∧
        rule.tokenClass = some entry.2 := by decide +kernel
  obtain ⟨rule, _, alone, classed⟩ := cut _ listed
  exact ⟨rule, alone, classed⟩

/-- No fixed text is a numeral. -/
theorem Token.readNumeral_of_mem_fixedTokens {word : String} {tokenClass : TokenClass}
    (listed : (word, tokenClass) ∈ Grammar.standard.fixedTokens) (value : TokenValue)
    (span : Span) :
    Token.readNumeral ⟨tokenClass, value, span⟩ = .ok ⟨tokenClass, value, span⟩ := by
  have noNumeral : ∀ entry ∈ Grammar.standard.fixedTokens,
      entry.2.subcategory ≠ some .int ∧ entry.2.subcategory ≠ some .float := by decide
  obtain ⟨notInt, notFloat⟩ := noNumeral _ listed
  exact Token.readNumeral_eq_self notInt notFloat

theorem isWord_of_mem_fixedTokens {word : String} {tokenClass : TokenClass}
    (listed : (word, tokenClass) ∈ Grammar.standard.fixedTokens) : IsWord word := by
  have spelled : ∀ entry ∈ Grammar.standard.fixedTokens, entry.1.toList ≠ [] ∧
      entry.1.toList.all fun c => isBlank c = false ∧ c ≠ '#' := by decide +kernel
  obtain ⟨notEmpty, compact⟩ := spelled _ listed
  obtain ⟨rule, alone, classed⟩ := Grammar.segment?_of_mem_fixedTokens listed
  refine ⟨notEmpty, by simpa using compact, rule, tokenClass, alone, classed, ?_⟩
  intro span
  exact ⟨_, Token.readNumeral_of_mem_fixedTokens listed _ span, .fixed rfl listed⟩

/-- The first rule that matches is the one that stands behind rules without a match. -/
theorem Grammar.find?_of_append {grammar : Grammar} {before after : List Rule} {rule : Rule}
    {input : List Char} (split : grammar.rules = before ++ rule :: after)
    (misses : ∀ other ∈ before, other.pattern.lexeme input = [])
    (isMatch : rule.pattern.lexeme input ≠ []) : grammar.find? input = some rule :=
  find?_eq_some_iff.mpr ⟨before, after, split, mt Pattern.matchLength?_eq_none_iff.mp isMatch,
    fun other member => Pattern.matchLength?_eq_none_iff.mpr (misses other member)⟩

theorem isBlank_eq_false_of_isWordChar {c : Char} (word : isWordChar c) : isBlank c = false := by
  by_contra blank
  simp only [isBlank, Bool.or_eq_true, decide_eq_true_eq, Bool.not_eq_false] at blank
  rcases blank with ((rfl | rfl) | rfl) | rfl <;> exact absurd word (by decide)

theorem isDigit_eq_false_of_isWordStart {c : Char} (start : isWordStart c) :
    c.isDigit = false := by
  simp only [isWordStart, Char.isAlpha, Char.isUpper, Char.isLower, Char.isDigit, ge_iff_le,
    Bool.or_eq_true, Bool.and_eq_true, decide_eq_true_eq, Bool.and_eq_false_iff,
    decide_eq_false_iff_not, UInt32.le_iff_toNat_le, Char.reduceVal, UInt32.reduceToNat] at start ⊢
  rcases start with (upper | lower) | rfl
  · omega
  · omega
  · decide

/-- A fixed text has a lexeme only in texts that begin with the same character. -/
theorem head?_eq_of_isPrefixOf {text input : List Char} (notEmpty : text ≠ [])
    (begins : text.isPrefixOf input) : input.head? = text.head? := by
  rcases List.isPrefixOf_iff_prefix.mp begins with ⟨rest, rfl⟩
  exact List.head?_append_of_ne_nil text notEmpty

theorem Pattern.lexeme_exact_eq_nil_of_head? {text : String} {input : List Char}
    (other : input.head? ≠ text.toList.head?) : (Pattern.exact text).lexeme input = [] := by
  simp only [Pattern.lexeme]
  split
  case isFalse => rfl
  case isTrue begins =>
    by_contra notEmpty
    exact other (head?_eq_of_isPrefixOf notEmpty begins)

theorem Pattern.lexeme_keyword_eq_nil_of_head? {text : String} {input : List Char}
    (other : input.head? ≠ text.toList.head?) : (Pattern.keyword text).lexeme input = [] := by
  simp only [Pattern.lexeme]
  split
  case isFalse => rfl
  case isTrue begins =>
    by_contra notEmpty
    exact other (head?_eq_of_isPrefixOf notEmpty begins.1)

/-- A pattern that has no lexeme at the head of a name. -/
def Pattern.missesNames : Pattern → Bool
  | .exact text => !text.toList.head?.any isWordStart
  | .keyword text => reservedWords.contains text
  | .lineComment marker => !isWordStart marker
  | .identifier => false
  | .whitespace => true
  | .digits => true
  | .decimal => true

theorem Pattern.lexeme_eq_nil_of_missesNames {pattern : Pattern} {word : String}
    (misses : pattern.missesNames) (isName : IsName word) : pattern.lexeme word.toList = [] := by
  have start := isName.start
  cases text : word.toList with
  | nil => simp [text] at start
  | cons c rest =>
      have start : isWordStart c := by simpa [text] using start
      have notBlank := isBlank_eq_false_of_isWordChar (isWordChar_of_isWordStart start)
      have notDigit := isDigit_eq_false_of_isWordStart start
      cases pattern with
      | whitespace => simp [Pattern.lexeme, notBlank]
      | lineComment marker =>
          have other : c ≠ marker := by
            rintro rfl
            simp [Pattern.missesNames, start] at misses
          simp [Pattern.lexeme, other]
      | exact fixed =>
          apply lexeme_exact_eq_nil_of_head?
          intro sameHead
          simp [Pattern.missesNames, ← sameHead, start] at misses
      | keyword fixed =>
          rw [← text]
          simp only [Pattern.lexeme]
          split
          case isFalse => rfl
          case isTrue begins =>
            -- Nothing but word characters can follow, so nothing follows.
            exfalso
            rcases List.isPrefixOf_iff_prefix.mp begins.1 with ⟨rest, whole⟩
            have reserved : fixed ∈ reservedWords := by
              simpa [Pattern.missesNames] using misses
            have behind := begins.2
            rw [← whole, List.drop_left] at behind
            cases rest with
            | nil =>
                have same : fixed = word := String.toList_inj.mp (by simpa using whole)
                exact isName.notReserved (same ▸ reserved)
            | cons next rest =>
                have nextWord := isName.word next (by simp [← whole])
                simp [nextWord] at behind
      | identifier => simp [Pattern.missesNames] at misses
      | digits => simp [Pattern.lexeme, notDigit]
      | decimal =>
          simp only [Pattern.lexeme, decimalLexeme, notDigit, List.takeWhile_cons]
          split <;> simp

theorem IsName.toList_ne_nil {word : String} (isName : IsName word) : word.toList ≠ [] := by
  intro empty
  simpa [empty] using isName.start

/-- A name alone is cut as a whole by the rule of names. -/
theorem Grammar.segment?_of_isName {word : String} (isName : IsName word) :
    standard.segment? word.toList = some ⟨⟨.identifier, some nameClass⟩, word.toList⟩ := by
  have misses : ∀ rule ∈ standard.rules.dropLast, rule.pattern.missesNames := by decide
  have last : standard.rules =
      standard.rules.dropLast ++ [⟨.identifier, some nameClass⟩] := by decide
  have lexeme : Pattern.identifier.lexeme word.toList = word.toList := by
    simp only [Pattern.lexeme, isName.start, if_true]
    exact List.takeWhile_eq_self_iff.mpr isName.word
  have found : standard.find? word.toList = some ⟨.identifier, some nameClass⟩ :=
    find?_of_append last
      (fun other member => Pattern.lexeme_eq_nil_of_missesNames (misses other member) isName)
      (by simpa only [lexeme] using isName.toList_ne_nil)
  simp [segment?, found, lexeme]

theorem isWord_of_isName {word : String} (isName : IsName word) : IsWord word := by
  refine ⟨isName.toList_ne_nil, ?_, ⟨.identifier, some nameClass⟩, nameClass,
    Grammar.segment?_of_isName isName, rfl, ?_⟩
  · intro c member
    have word := isName.word c member
    refine ⟨isBlank_eq_false_of_isWordChar word, ?_⟩
    rintro rfl
    exact absurd word (by decide)
  · intro span
    exact ⟨_, rfl, .name rfl isName rfl⟩

/-- A pattern that has no lexeme in a run of digits. -/
def Pattern.missesDigits : Pattern → Bool
  | .exact text => !text.toList.head?.any Char.isDigit
  | .keyword text => !text.toList.head?.any Char.isDigit
  | .lineComment marker => !marker.isDigit
  | .digits => false
  | .whitespace => true
  | .identifier => true
  | .decimal => true

/-- Of the patterns that have no lexeme in a run of digits only that of decimals has one in
any text that begins with a digit. -/
theorem Pattern.lexeme_eq_nil_of_isDigit {pattern : Pattern} {c : Char}
    (misses : pattern.missesDigits) (notDecimal : pattern ≠ .decimal) (digit : c.isDigit)
    (rest : List Char) : pattern.lexeme (c :: rest) = [] := by
  have notStart : isWordStart c = false := by
    by_contra start
    exact absurd digit (by simp [isDigit_eq_false_of_isWordStart (by simpa using start)])
  cases pattern with
  | whitespace =>
      have word : isWordChar c := by simp [isWordChar, Char.isAlphanum, digit]
      simp [Pattern.lexeme, isBlank_eq_false_of_isWordChar word]
  | lineComment marker =>
      have other : c ≠ marker := by
        rintro rfl
        simp [Pattern.missesDigits, digit] at misses
      simp [Pattern.lexeme, other]
  | exact fixed =>
      apply lexeme_exact_eq_nil_of_head?
      intro sameHead
      simp [Pattern.missesDigits, ← sameHead, digit] at misses
  | keyword fixed =>
      apply lexeme_keyword_eq_nil_of_head?
      intro sameHead
      simp [Pattern.missesDigits, ← sameHead, digit] at misses
  | identifier => simp [Pattern.lexeme, notStart]
  | digits => simp [Pattern.missesDigits] at misses
  | decimal => exact absurd rfl notDecimal

theorem Pattern.lexeme_eq_nil_of_missesDigits {pattern : Pattern} {c : Char} {rest : List Char}
    (misses : pattern.missesDigits) (digits : ∀ d ∈ c :: rest, d.isDigit) :
    pattern.lexeme (c :: rest) = [] := by
  by_cases isDecimal : pattern = .decimal
  · subst isDecimal
    have allDropped : (c :: rest).dropWhile Char.isDigit = [] :=
      List.dropWhile_eq_nil_iff.mpr digits
    simp [Pattern.lexeme, decimalLexeme, allDropped]
  · exact lexeme_eq_nil_of_isDigit misses isDecimal (digits c List.mem_cons_self) rest

/-- The rules that stand before those of numerals have no lexeme in numerals, and the rule
of decimals stands before that of integers. -/
theorem Grammar.standard_rules_numerals : ∃ before,
    (∀ rule ∈ before, rule.pattern.missesDigits ∧ rule.pattern ≠ .decimal) ∧
      standard.rules = before ++ [⟨.decimal, some floatClass⟩, ⟨.digits, some integerClass⟩,
        ⟨.identifier, some nameClass⟩] :=
  ⟨standard.rules.dropLast.dropLast.dropLast, by decide, by decide⟩

/-- A run of digits alone is cut as a whole by the rule of integers. -/
theorem Grammar.segment?_of_isDigit {digits : List Char} (notEmpty : digits ≠ [])
    (allDigits : ∀ c ∈ digits, c.isDigit) :
    standard.segment? digits = some ⟨⟨.digits, some integerClass⟩, digits⟩ := by
  obtain ⟨before, misses, rules⟩ := standard_rules_numerals
  have lexeme : Pattern.digits.lexeme digits = digits :=
    List.takeWhile_eq_self_iff.mpr allDigits
  have split : standard.rules = (before ++ [⟨.decimal, some floatClass⟩]) ++
      ⟨.digits, some integerClass⟩ :: [⟨.identifier, some nameClass⟩] := by
    rw [rules, List.append_assoc]
    rfl
  have found : standard.find? digits = some ⟨.digits, some integerClass⟩ := by
    refine find?_of_append split ?_ (by rwa [lexeme])
    intro other member
    obtain ⟨c, rest, rfl⟩ := List.exists_cons_of_ne_nil notEmpty
    refine Pattern.lexeme_eq_nil_of_missesDigits ?_ allDigits
    rcases List.mem_append.mp member with earlier | decimal
    · exact (misses other earlier).1
    · rw [List.mem_singleton.mp decimal]
      rfl
  simp only [segment?, found, Option.map_some, lexeme]

theorem isWord_of_toString {number : Int64} (nonnegative : 0 ≤ number.toInt) :
    IsWord (toString number.toInt) := by
  obtain ⟨natural, _, digits⟩ := toList_toString_of_nonneg nonnegative
  have allDigits : ∀ c ∈ (toString number.toInt).toList, c.isDigit :=
    digits ▸ isDigit_of_mem_toDigits natural
  have notEmpty : (toString number.toInt).toList ≠ [] := digits ▸ Nat.toDigits_ne_nil
  refine ⟨notEmpty, ?_, ⟨.digits, some integerClass⟩, integerClass,
    Grammar.segment?_of_isDigit notEmpty allDigits, rfl, ?_⟩
  · intro c member
    have digit := allDigits c member
    refine ⟨isBlank_eq_false_of_isWordChar (by simp [isWordChar, Char.isAlphanum, digit]), ?_⟩
    rintro rfl
    exact absurd digit (by decide)
  · intro span
    refine ⟨⟨integerClass, .int number, span⟩, ?_, .integer rfl nonnegative rfl rfl⟩
    simp only [Token.readNumeral, integerClass, Decimal.readInteger_toString nonnegative]

/-! ## A word before a separator -/

/-- A character that no lexeme holds but white space and comments. -/
def isSeparator (c : Char) : Bool :=
  isBlank c || c = '#'

theorem isSeparator_cases {c : Char} (separates : isSeparator c) :
    c = ' ' ∨ c = '\t' ∨ c = '\r' ∨ c = '\n' ∨ c = '#' := by
  simpa [isSeparator, isBlank, or_assoc] using separates

/-- A separator continues no word and no numeral. -/
theorem isWordChar_eq_false_of_isSeparator {c : Char} (separates : isSeparator c) :
    isWordChar c = false ∧ c.isDigit = false ∧ c ≠ '.' := by
  rcases isSeparator_cases separates with rfl | rfl | rfl | rfl | rfl <;> decide

theorem takeWhile_append_cons_of_stops {p : Char → Bool} {c : Char} (stops : p c = false)
    (word rest : List Char) : (word ++ c :: rest).takeWhile p = word.takeWhile p := by
  induction word with
  | nil => simp [stops]
  | cons first word ih =>
      rw [List.cons_append, List.takeWhile_cons, List.takeWhile_cons, ih]

theorem dropWhile_append_cons_of_stops {p : Char → Bool} {c : Char} (stops : p c = false)
    (word rest : List Char) :
    (word ++ c :: rest).dropWhile p = word.dropWhile p ++ c :: rest := by
  induction word with
  | nil => simp [stops]
  | cons first word ih =>
      rw [List.cons_append, List.dropWhile_cons, List.dropWhile_cons, ih]
      split <;> rfl

/-- A run of characters with a property is told apart from what follows it without the
property. -/
theorem takeWhile_append_of_stops {p : Char → Bool} {word rest : List Char}
    (within : ∀ c ∈ word, p c = true) (stops : ∀ c ∈ rest.head?, p c = false) :
    (word ++ rest).takeWhile p = word ∧ (word ++ rest).dropWhile p = rest := by
  rw [List.takeWhile_append_of_pos within, List.dropWhile_append_of_pos within]
  cases rest with
  | nil => simp
  | cons c rest => simp [stops c rfl]

/-- What does not hold a character begins a text exactly if it begins the text up to that
character. -/
theorem prefix_append_cons_iff {c : Char} {text word rest : List Char} (missing : c ∉ text) :
    text <+: word ++ c :: rest ↔ text <+: word := by
  constructor
  · intro begins
    rcases List.prefix_or_prefix_of_prefix begins (List.prefix_append word _) with short | long
    · exact short
    · rcases long with ⟨more, rfl⟩
      have further := (List.prefix_append_right_inj word).mp begins
      cases more with
      | nil => simp
      | cons first more =>
          have same : first = c := (List.cons_prefix_cons.mp further).1
          simp [same] at missing
  · intro begins
    exact begins.trans (List.prefix_append word _)

/-- A pattern whose lexemes hold no separator, white space and comments aside. -/
def Pattern.isCompact : Pattern → Bool
  | .exact text => !text.toList.any isSeparator
  | .keyword text => !text.toList.any isSeparator
  | .lineComment marker => marker = '#'
  | _ => true

theorem decimalLexeme_append_separator {separator : Char} (separates : isSeparator separator)
    (word rest : List Char) : decimalLexeme (word ++ separator :: rest) = decimalLexeme word := by
  obtain ⟨_, stops, notPoint⟩ := isWordChar_eq_false_of_isSeparator separates
  unfold decimalLexeme
  rw [takeWhile_append_cons_of_stops stops, dropWhile_append_cons_of_stops stops]
  cases dropped : word.dropWhile Char.isDigit with
  | nil =>
      rw [List.nil_append]
      split
      next same => exact absurd (List.cons.inj same).1 notPoint
      next => rfl
  | cons c more =>
      by_cases point : c = '.'
      · subst point
        simp only [List.cons_append, takeWhile_append_cons_of_stops stops]
      · rw [List.cons_append]
        split
        next same => exact absurd (List.cons.inj same).1 point
        next =>
          split
          next same => exact absurd (List.cons.inj same).1 point
          next => rfl

/-- What stands behind a separator has no influence on a lexeme before it that is neither
white space nor a comment. -/
theorem Pattern.lexeme_append_separator {pattern : Pattern} {c separator : Char}
    (separates : isSeparator separator) (isCompact : pattern.isCompact)
    (begins : isSeparator c = false) (more rest : List Char) :
    pattern.lexeme (c :: more ++ separator :: rest) = pattern.lexeme (c :: more) := by
  obtain ⟨notWord, notDigit, _⟩ := isWordChar_eq_false_of_isSeparator separates
  have notSkipped : isBlank c = false ∧ c ≠ '#' := by simpa [isSeparator] using begins
  -- A fixed text does not reach up to the separator.
  have missing : ∀ text : String, text.toList.any isSeparator = false →
      separator ∉ text.toList := by
    intro text noSeparator member
    exact absurd (List.any_eq_true.mpr ⟨separator, member, separates⟩) (by simp [noSeparator])
  cases pattern with
  | whitespace => simp [Pattern.lexeme, notSkipped.1]
  | lineComment marker =>
      have isMarker : marker = '#' := by simpa [Pattern.isCompact] using isCompact
      subst isMarker
      simp [Pattern.lexeme, notSkipped.2]
  | exact text =>
      have missing := missing text (by simpa [Pattern.isCompact] using isCompact)
      simp only [Pattern.lexeme, List.isPrefixOf_iff_prefix, prefix_append_cons_iff missing]
  | keyword text =>
      have missing := missing text (by simpa [Pattern.isCompact] using isCompact)
      simp only [Pattern.lexeme, List.isPrefixOf_iff_prefix, prefix_append_cons_iff missing]
      by_cases begins : text.toList <+: c :: more
      · rcases begins with ⟨behind, whole⟩
        rw [← whole, List.append_assoc, List.drop_left, List.drop_left]
        cases behind with
        | nil => simp [notWord]
        | cons next behind => rfl
      · simp [begins]
  | identifier =>
      simp only [Pattern.lexeme, takeWhile_append_cons_of_stops notWord]
      rfl
  | digits => exact takeWhile_append_cons_of_stops notDigit _ _
  | decimal => exact decimalLexeme_append_separator separates _ _

namespace Grammar

/-- What stands behind a separator has no influence on the rule that matches before it,
unless the text begins with a separator itself. -/
theorem segment?_append_separator {c separator : Char} (separates : isSeparator separator)
    (begins : isSeparator c = false) (more rest : List Char) :
    standard.segment? (c :: more ++ separator :: rest) = standard.segment? (c :: more) := by
  have rulesCompact : ∀ rule ∈ standard.rules, rule.pattern.isCompact := by decide
  have sameLexeme : ∀ rule ∈ standard.rules,
      rule.pattern.lexeme (c :: more ++ separator :: rest) = rule.pattern.lexeme (c :: more) :=
    fun rule member =>
      Pattern.lexeme_append_separator separates (rulesCompact rule member) begins more rest
  have sameRule : standard.find? (c :: more ++ separator :: rest) =
      standard.find? (c :: more) := by
    refine List.find?_congr ?_
    intro rule member
    rw [Pattern.isMatch, Pattern.isMatch, sameLexeme rule member]
  unfold segment?
  rw [sameRule]
  cases found : standard.find? (c :: more) with
  | none => rfl
  | some rule => simp only [Option.map_some, sameLexeme rule (mem_rules_of_find? found)]

/-- White space is skipped up to the next character that is not blank. -/
theorem segment?_blank {c : Char} (blank : isBlank c) (text : List Char) :
    standard.segment? (c :: text) =
      some ⟨.skip .whitespace, c :: text.takeWhile isBlank⟩ := by
  have lexeme : Pattern.whitespace.lexeme (c :: text) = c :: text.takeWhile isBlank := by
    simp [Pattern.lexeme, blank]
  have first : standard.rules = [] ++ Rule.skip .whitespace :: standard.rules.tail := rfl
  have found : standard.find? (c :: text) = some (.skip .whitespace) :=
    find?_of_append first (by simp) (by rw [Rule.skip, lexeme]; simp)
  simp only [segment?, found, Option.map_some, Rule.skip, lexeme]

end Grammar

/-! ## Words between spaces -/

/-- A text is cut to its end into lexemes that are read, wherever the text begins, as
tokens that are written as the words. -/
def LexesAs (text : List Char) (words : List String) : Prop :=
  (Grammar.standard.segmentation text).stuck = [] ∧
    ∀ offset, ∃ tokens,
      List.Forall₂ (fun raw token => raw.readNumeral = .ok token)
        (placeTokens (Grammar.standard.segmentation text).segments offset) tokens ∧
      List.Forall₂ (fun word token => token.IsWrittenAs word) words tokens

theorem lexesAs_nil : LexesAs [] [] := by
  have cut := Grammar.segmentation_of_segment?_eq_none Grammar.standard.segment?_nil
  rw [LexesAs, cut]
  exact ⟨rfl, fun offset => ⟨[], .nil, .nil⟩⟩

/-- A word goes before what is cut behind it. -/
theorem LexesAs.cons {word : String} {words : List String} {text : List Char} {rule : Rule}
    {tokenClass : TokenClass}
    (found : Grammar.standard.segment? (word.toList ++ text) = some ⟨rule, word.toList⟩)
    (classed : rule.tokenClass = some tokenClass)
    (reads : ∀ span, ∃ token, Token.readNumeral ⟨tokenClass, .text word, span⟩ = .ok token ∧
      token.IsWrittenAs word)
    (lexes : LexesAs text words) : LexesAs (word.toList ++ text) (word :: words) := by
  have cut := Grammar.segmentation_of_segment?_eq_some found
  simp only [List.drop_left] at cut
  rcases lexes with ⟨atEnd, placed⟩
  rw [LexesAs, cut]
  refine ⟨atEnd, ?_⟩
  intro offset
  obtain ⟨tokens, read, written⟩ := placed (offset + utf8Length word.toList)
  obtain ⟨token, readFirst, writtenFirst⟩ := reads ⟨offset, utf8Length word.toList⟩
  refine ⟨token :: tokens, ?_, .cons writtenFirst written⟩
  simp only [Segmentation.cons, placeTokens, Segment.token?, classed, Option.map_some,
    Option.toList_some, List.singleton_append, String.ofList_toList]
  exact .cons readFirst read

/-- A space is skipped. -/
theorem LexesAs.space {words : List String} {text : List Char}
    (notBlank : text.head?.any isBlank = false) (lexes : LexesAs text words) :
    LexesAs (' ' :: text) words := by
  have stops : text.takeWhile isBlank = [] := by
    cases text with
    | nil => rfl
    | cons c rest =>
        have notBlank : isBlank c = false := by simpa using notBlank
        simp [notBlank]
  have cut := Grammar.segmentation_of_segment?_eq_some (Grammar.segment?_blank (c := ' ') rfl text)
  rw [stops] at cut
  rcases lexes with ⟨atEnd, placed⟩
  rw [LexesAs, cut]
  exact ⟨atEnd, fun offset => placed (offset + 1)⟩

theorem IsWord.head?_intercalate {word : String} (isWord : IsWord word) (words : List String) :
    (" ".intercalate (word :: words)).toList.head?.any isBlank = false := by
  obtain ⟨c, more, text, notBlank, _⟩ := isWord.exists_cons
  cases words with
  | nil => simp [text, notBlank]
  | cons next words => simp [String.intercalate_cons_cons, text, notBlank]

/-- Words between single spaces are read one by one. -/
theorem lexesAs_intercalate {words : List String} (each : ∀ word ∈ words, IsWord word) :
    LexesAs (" ".intercalate words).toList words := by
  induction words with
  | nil => simpa using lexesAs_nil
  | cons word words ih =>
      have isWord := each word List.mem_cons_self
      rcases isWord.alone with ⟨rule, tokenClass, found, classed, reads⟩
      cases words with
      | nil =>
          have alone : LexesAs (word.toList ++ []) [word] :=
            LexesAs.cons (by simpa using found) classed reads lexesAs_nil
          simpa using alone
      | cons next words =>
          have rest := ih (fun other member => each other (List.mem_cons_of_mem _ member))
          have notBlank := (each next (by simp)).head?_intercalate words
          have before : Grammar.standard.segment?
              (word.toList ++ ' ' :: (" ".intercalate (next :: words)).toList) =
                some ⟨rule, word.toList⟩ := by
            obtain ⟨c, more, text, begins⟩ := isWord.exists_cons
            rw [text] at found ⊢
            rw [Grammar.segment?_append_separator (by decide) (by simp [isSeparator, begins]),
              found]
          have whole := LexesAs.cons before classed reads (rest.space notBlank)
          simpa [String.intercalate_cons_cons] using whole

/-- Words between single spaces are tokens that are written as the words. -/
theorem Grammar.tokenize_intercalate {words : List String} (each : ∀ word ∈ words, IsWord word) :
    ∃ tokens offset,
      standard.tokenize (" ".intercalate words) = .ok (tokens ++ [.endOfInput offset]) ∧
        List.Forall₂ (fun word token => token.IsWrittenAs word) words tokens := by
  obtain ⟨atEnd, placed⟩ := lexesAs_intercalate each
  obtain ⟨tokens, read, written⟩ := placed 0
  exact ⟨tokens, _, tokenize_eq_ok_iff.mpr ⟨atEnd, tokens, read, rfl⟩, written⟩

theorem Token.IsWrittenAs.isStandard {token : Token} {word : String}
    (written : token.IsWrittenAs word) : token.IsStandard := by
  cases written with
  | fixed value listed => exact .fixed value listed
  | name value isName isClass => exact .name value isName isClass
  | integer value nonnegative _ isClass => exact .integer value nonnegative isClass

/-- Every word is emitted as a token. -/
theorem IsWord.exists_emits {word : String} (isWord : IsWord word) :
    ∃ token, Grammar.standard.Emits token ∧ token.IsWrittenAs word := by
  have each : ∀ other ∈ [word], IsWord other := by simpa using isWord
  obtain ⟨tokens, offset, lexes, written⟩ := Grammar.tokenize_intercalate each
  cases written with
  | cons first _ =>
      exact ⟨_, ⟨_, _, lexes, by simp, first.isStandard.isEnd_eq_false⟩, first⟩

end WhileLang
