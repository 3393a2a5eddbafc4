import Mathlib
import WhileLang.Lexical.Lexer

/-!
# The tokens of the language

The token grammar of the language yields tokens of four kinds: fixed words and signs,
each with the class that its rule gives it, names, integers without a sign, and
floats.  Every token that some text yields is of one of these kinds.
-/

namespace WhileLang

/-- The words that are no names. -/
def reservedWords : List String :=
  ["and", "or", "not", "print", "if", "then", "else", "while", "done", "do"]

/-- The text is a name: a word that is not reserved. -/
structure IsName (text : String) : Prop where
  start : text.toList.head?.any isWordStart
  word : ∀ c ∈ text.toList, isWordChar c
  notReserved : text ∉ reservedWords

instance (text : String) : Decidable (IsName text) :=
  decidable_of_iff (text.toList.head?.any isWordStart ∧ text.toList.all isWordChar ∧
      text ∉ reservedWords)
    ⟨fun parts => ⟨parts.1, List.all_eq_true.mp parts.2.1, parts.2.2⟩,
      fun isName => ⟨isName.start, List.all_eq_true.mpr isName.word, isName.notReserved⟩⟩

/-- The class of names. -/
def nameClass : TokenClass where
  category := .identifier
  subcategory := none
  precedence := 0

/-- The class of integers. -/
def integerClass : TokenClass where
  category := .number
  subcategory := some .int
  precedence := 0

/-- The class of floats. -/
def floatClass : TokenClass where
  category := .number
  subcategory := some .float
  precedence := 0

namespace Grammar

/-- A fixed text of a rule with the class that the rule gives it. -/
def fixedToken? (rule : Rule) : Option (String × TokenClass) :=
  match rule.pattern with
  | .exact text => rule.tokenClass.map fun tokenClass => (text, tokenClass)
  | .keyword text => rule.tokenClass.map fun tokenClass => (text, tokenClass)
  | _ => none

/-- The fixed words and signs of a grammar with their classes. -/
def fixedTokens (grammar : Grammar) : List (String × TokenClass) :=
  grammar.rules.filterMap fixedToken?

/-- The fixed words and signs themselves. -/
def fixedWords (grammar : Grammar) : List String :=
  grammar.fixedTokens.map Prod.fst

/-- The token is yielded by some text, and it does not mark the end of the text. -/
def Emits (grammar : Grammar) (token : Token) : Prop :=
  ∃ text tokens, grammar.tokenize text = .ok tokens ∧ token ∈ tokens ∧ token.isEnd = false

end Grammar

/-- The token is one of the language, wherever it stands. -/
inductive Token.IsStandard (token : Token) : Prop
  | fixed {text : String} (value : token.value = .text text)
      (listed : (text, token.toTokenClass) ∈ Grammar.standard.fixedTokens)
  | name {text : String} (value : token.value = .text text) (isName : IsName text)
      (isClass : token.toTokenClass = nameClass)
  | integer {number : Int64} (value : token.value = .int number) (nonnegative : 0 ≤ number.toInt)
      (isClass : token.toTokenClass = integerClass)
  | float {number : Float} (value : token.value = .float number)
      (isClass : token.toTokenClass = floatClass)

/-- No token of the language marks the end of the input, not even a name that is spelled
like the mark. -/
theorem Token.IsStandard.isEnd_eq_false {token : Token} (isStandard : token.IsStandard) :
    token.isEnd = false := by
  cases isStandard with
  | fixed value listed =>
      have known : ∀ entry ∈ Grammar.standard.fixedTokens, entry.1 ≠ Token.endMark := by decide
      simp [Token.isEnd, Token.text?, value, known _ listed]
  | name _ _ isClass => simp [Token.isEnd, isClass, nameClass]
  | integer _ _ isClass => simp [Token.isEnd, isClass, integerClass]
  | float _ isClass => simp [Token.isEnd, isClass, floatClass]

/-! ## Lexemes of the language -/

theorem isWordChar_of_isWordStart {c : Char} (start : isWordStart c) : isWordChar c := by
  simp only [isWordStart, isWordChar, Char.isAlphanum, Bool.or_eq_true] at start ⊢
  tauto

/-- What follows the longest run of word characters is no word character. -/
theorem any_isWordChar_behind_word (input : List Char) :
    (input[(input.takeWhile isWordChar).length]?).any isWordChar = false := by
  have rest : input.drop (input.takeWhile isWordChar).length = input.dropWhile isWordChar :=
    List.append_cancel_left ((List.prefix_iff_eq_append.mp (List.takeWhile_prefix _)).trans
      List.takeWhile_append_dropWhile.symm)
  have stops := List.head?_dropWhile_not isWordChar input
  rw [← List.head?_drop, rest]
  cases head : (input.dropWhile isWordChar).head? with
  | none => rfl
  | some c => simpa [head] using stops

namespace Grammar

/-- The rule of names is the last one, so it decides only where no other rule matches. -/
theorem lexeme_eq_nil_of_find?_identifier {input : List Char} {rule : Rule}
    (found : standard.find? input = some rule) (isIdentifier : rule.pattern = .identifier) :
    ∀ other ∈ standard.rules.dropLast, other.pattern.lexeme input = [] := by
  obtain ⟨before, after, split, _, misses⟩ := find?_eq_some_iff.mp found
  have single : ∀ other ∈ standard.rules.dropLast, other.pattern ≠ .identifier := by decide
  cases after with
  | nil =>
      intro other member
      rw [split, List.dropLast_concat] at member
      exact Pattern.matchLength?_eq_none_iff.mp (misses other member)
  | cons next after =>
      have early : rule ∈ standard.rules.dropLast := by
        rw [split, List.dropLast_append_of_ne_nil (List.cons_ne_nil _ _)]
        simp
      exact absurd isIdentifier (single rule early)

/-- A lexeme of the rule of names is a name. -/
theorem isName_of_find?_identifier {input : List Char} {rule : Rule}
    (found : standard.find? input = some rule) (isIdentifier : rule.pattern = .identifier) :
    IsName (String.ofList (rule.pattern.lexeme input)) := by
  have isMatch := lexeme_ne_nil_of_find? found
  have begins : input.head?.any isWordStart = true := by
    by_contra notWord
    simp [isIdentifier, Pattern.lexeme, notWord] at isMatch
  have lexeme : rule.pattern.lexeme input = input.takeWhile isWordChar := by
    simp [isIdentifier, Pattern.lexeme, begins]
  rw [lexeme]
  constructor
  · rw [String.toList_ofList]
    cases input with
    | nil => simp at begins
    | cons c rest =>
        have start : isWordStart c := begins
        simpa [List.takeWhile_cons, isWordChar_of_isWordStart start] using start
  · rw [String.toList_ofList]
    exact fun c member => List.mem_takeWhile_imp member
  · intro reserved
    -- The rule of the reserved word comes earlier, and it would have matched.
    have keyword : ∀ word ∈ reservedWords, word.toList ≠ [] ∧
        ∃ rule ∈ standard.rules.dropLast, rule.pattern = .keyword word := by decide
    obtain ⟨notEmpty, other, member, pattern⟩ := keyword _ reserved
    rw [String.toList_ofList] at notEmpty
    have noMatch := lexeme_eq_nil_of_find?_identifier found isIdentifier other member
    simp [pattern, Pattern.lexeme, List.takeWhile_prefix,
      any_isWordChar_behind_word, notEmpty] at noMatch

/-- The lexeme of a fixed text is the text. -/
theorem lexeme_of_fixedToken? {rule : Rule} {text : String} {tokenClass : TokenClass}
    {input : List Char} (isFixed : fixedToken? rule = some (text, tokenClass))
    (isMatch : rule.pattern.lexeme input ≠ []) :
    String.ofList (rule.pattern.lexeme input) = text ∧ rule.tokenClass = some tokenClass := by
  unfold fixedToken? at isFixed
  cases pattern : rule.pattern with
  | exact literal =>
      simp only [pattern, Option.map_eq_some_iff, Prod.mk.injEq] at isFixed
      rcases isFixed with ⟨_, classed, rfl, rfl⟩
      simp only [pattern, Pattern.lexeme] at isMatch ⊢
      split at isMatch <;> simp_all
  | keyword literal =>
      simp only [pattern, Option.map_eq_some_iff, Prod.mk.injEq] at isFixed
      rcases isFixed with ⟨_, classed, rfl, rfl⟩
      simp only [pattern, Pattern.lexeme] at isMatch ⊢
      split at isMatch <;> simp_all
  | whitespace => simp [pattern] at isFixed
  | lineComment marker => simp [pattern] at isFixed
  | identifier => simp [pattern] at isFixed
  | digits => simp [pattern] at isFixed
  | decimal => simp [pattern] at isFixed

/-- A lexeme with a class is a fixed text, a name, a run of digits or a decimal. -/
theorem lexeme_cases {input : List Char} {segment : Segment} {tokenClass : TokenClass}
    (found : standard.segment? input = some segment)
    (classed : segment.rule.tokenClass = some tokenClass) :
    (String.ofList segment.lexeme, tokenClass) ∈ standard.fixedTokens ∨
      (IsName (String.ofList segment.lexeme) ∧ tokenClass = nameClass) ∨
      ((∀ c ∈ segment.lexeme, c.isDigit) ∧ tokenClass = integerClass) ∨
      (segment.lexeme = decimalLexeme input ∧ tokenClass = floatClass) := by
  rcases Option.map_eq_some_iff.mp found with ⟨rule, ruleFound, rfl⟩
  have classed : rule.tokenClass = some tokenClass := classed
  have member := mem_rules_of_find? ruleFound
  have isMatch := lexeme_ne_nil_of_find? ruleFound
  have known : ∀ rule ∈ standard.rules, (fixedToken? rule).isSome ∨ rule.tokenClass = none ∨
      rule = ⟨.identifier, some nameClass⟩ ∨ rule = ⟨.digits, some integerClass⟩ ∨
      rule = ⟨.decimal, some floatClass⟩ := by decide
  rcases known rule member with isFixed | skips | rfl | rfl | rfl
  · rcases Option.isSome_iff_exists.mp isFixed with ⟨⟨text, fixedClass⟩, isFixed⟩
    obtain ⟨lexeme, fixedClassed⟩ := lexeme_of_fixedToken? isFixed isMatch
    have sameClass : fixedClass = tokenClass := by simpa [fixedClassed] using classed
    subst sameClass
    exact .inl (List.mem_filterMap.mpr ⟨rule, member, by rw [lexeme, isFixed]⟩)
  · simp [skips] at classed
  · exact .inr (.inl ⟨isName_of_find?_identifier ruleFound rfl, (Option.some.inj classed).symm⟩)
  · refine .inr (.inr (.inl ⟨?_, (Option.some.inj classed).symm⟩))
    exact fun c digit => List.mem_takeWhile_imp digit
  · exact .inr (.inr (.inr ⟨rfl, (Option.some.inj classed).symm⟩))

end Grammar

/-! ## From lexemes to tokens -/

theorem bind_eq_ok_iff {α β ε : Type} {outcome : Except ε α} {next : α → Except ε β} {result : β} :
    (outcome >>= next) = .ok result ↔ ∃ value, outcome = .ok value ∧ next value = .ok result := by
  cases outcome with
  | error error => simp [bind, Except.bind]
  | ok value => simp [bind, Except.bind]

theorem mapM_eq_ok_iff_forall₂ {α β ε : Type} {f : α → Except ε β} {inputs : List α}
    {outputs : List β} :
    inputs.mapM f = .ok outputs ↔
      List.Forall₂ (fun input output => f input = .ok output) inputs outputs := by
  induction inputs generalizing outputs with
  | nil =>
      rw [List.mapM_nil, List.forall₂_nil_left_iff]
      exact ⟨fun same => (Except.ok.inj same).symm, fun same => same ▸ rfl⟩
  | cons input inputs ih =>
      simp only [List.mapM_cons, bind_eq_ok_iff, ih, List.forall₂_cons_left_iff]
      constructor
      · rintro ⟨output, first, others, rest, same⟩
        exact ⟨output, others, first, rest, (Except.ok.inj same).symm⟩
      · rintro ⟨output, others, first, rest, rfl⟩
        exact ⟨output, first, others, rest, rfl⟩

/-- A text is made of tokens if it is cut to its end and all numerals denote numbers, and
the mark of the end follows the tokens. -/
theorem Grammar.tokenize_eq_ok_iff {grammar : Grammar} {text : String} {tokens : List Token} :
    grammar.tokenize text = .ok tokens ↔
      (grammar.segmentation text.toList).stuck = [] ∧
        ∃ words, List.Forall₂ (fun raw token => raw.readNumeral = .ok token)
            (placeTokens (grammar.segmentation text.toList).segments 0) words ∧
          tokens = words ++
            [.endOfInput (segmentsSize (grammar.segmentation text.toList).segments)] := by
  unfold tokenize rawTokens
  generalize grammar.segmentation text.toList = cut
  rcases cut with ⟨segments, stuck⟩
  cases stuck with
  | cons c rest => simp [lastItem, Except.map, Except.bind]
  | nil =>
      have last : List.mapM Token.readNumeral [.endOfInput (segmentsSize segments)] =
          .ok [.endOfInput (segmentsSize segments)] := rfl
      simp only [lastItem, Except.map, Except.bind, List.mapM_append, last, bind_eq_ok_iff,
        mapM_eq_ok_iff_forall₂, true_and]
      constructor
      · rintro ⟨words, read, mark, sameMark, same⟩
        cases sameMark
        exact ⟨words, read, (Except.ok.inj same).symm⟩
      · rintro ⟨words, read, rfl⟩
        exact ⟨words, read, _, rfl, rfl⟩

theorem exists_of_mem_forall₂ {α β : Type} {relation : α → β → Prop} {inputs : List α}
    {outputs : List β} (related : List.Forall₂ relation inputs outputs) {output : β}
    (member : output ∈ outputs) : ∃ input ∈ inputs, relation input output := by
  induction related with
  | nil => simp at member
  | cons first _ ih =>
      rcases List.mem_cons.mp member with rfl | later
      · exact ⟨_, List.mem_cons_self, first⟩
      · obtain ⟨input, found, same⟩ := ih later
        exact ⟨input, List.mem_cons_of_mem _ found, same⟩

theorem mem_placeTokens {segments : List Segment} {offset : Nat} {token : Token}
    (member : token ∈ placeTokens segments offset) :
    ∃ segment ∈ segments, ∃ place, segment.token? place = some token := by
  induction segments generalizing offset with
  | nil => simp [placeTokens] at member
  | cons segment segments ih =>
      rcases List.mem_append.mp member with first | later
      · exact ⟨segment, List.mem_cons_self, offset, by simpa using first⟩
      · obtain ⟨segment', member', place, same⟩ := ih later
        exact ⟨segment', List.mem_cons_of_mem _ member', place, same⟩

theorem Grammar.mem_segmentation {grammar : Grammar} {input : List Char} {segment : Segment}
    (member : segment ∈ (grammar.segmentation input).segments) :
    ∃ text, grammar.segment? text = some segment := by
  induction input using grammar.segmentation_induction with
  | stuck input none => simp [segmentation_of_segment?_eq_none none] at member
  | cut input first found ih =>
      rw [segmentation_of_segment?_eq_some found] at member
      rcases List.mem_cons.mp member with rfl | later
      · exact ⟨input, found⟩
      · exact ih later

theorem Decimal.le_of_readDigits {range magnitude : Nat} {fault : Decimal.IntegerFault}
    {digits : List Char} (reads : Decimal.readDigits range fault digits = .ok magnitude) :
    magnitude ≤ range := by
  by_contra tooLarge
  unfold Decimal.readDigits at reads
  dsimp only at reads
  split_ifs at reads with bounded
  cases reads
  exact tooLarge bounded

theorem Decimal.toInt_nonneg_of_readNonnegative {digits : List Char} {number : Int64}
    (reads : Decimal.readNonnegative digits = .ok number) : 0 ≤ number.toInt := by
  unfold Decimal.readNonnegative at reads
  cases magnitude : Decimal.readDigits (Nat.pow 2 63 - 1) .tooLarge digits with
  | error fault =>
      rw [magnitude] at reads
      cases reads
  | ok natural =>
      have bounded : natural ≤ 2 ^ 63 - 1 := Decimal.le_of_readDigits magnitude
      rw [magnitude] at reads
      cases reads
      rw [Int64.toInt_ofInt_of_le (by omega) (by omega)]
      exact Int.natCast_nonneg natural

/-- A run of digits denotes no negative number. -/
theorem Decimal.toInt_nonneg_of_readInteger {digits : List Char} {number : Int64}
    (allDigits : ∀ c ∈ digits, c.isDigit) (reads : Decimal.readInteger digits = .ok number) :
    0 ≤ number.toInt := by
  unfold Decimal.readInteger at reads
  split at reads
  · cases reads
  · cases reads
  · cases reads
  · exact Decimal.toInt_nonneg_of_readNonnegative reads
  · exact absurd (allDigits '-' List.mem_cons_self) (by decide)
  · exact Decimal.toInt_nonneg_of_readNonnegative reads

theorem Token.readNumeral_eq_self {token : Token} (notInt : token.subcategory ≠ some .int)
    (notFloat : token.subcategory ≠ some .float) : token.readNumeral = .ok token := by
  unfold readNumeral
  split <;> simp_all

theorem Token.IsStandard.of_readNumeral {segment : Segment} {input : List Char} {offset : Nat}
    {raw token : Token} (found : Grammar.standard.segment? input = some segment)
    (yields : segment.token? offset = some raw) (reads : raw.readNumeral = .ok token) :
    token.IsStandard := by
  rcases Option.map_eq_some_iff.mp yields with ⟨tokenClass, classed, rfl⟩
  rcases Grammar.lexeme_cases found classed with
    fixed | ⟨isName, rfl⟩ | ⟨digits, rfl⟩ | ⟨_, rfl⟩
  · have noNumeral : ∀ entry ∈ Grammar.standard.fixedTokens,
        entry.2.subcategory ≠ some .int ∧ entry.2.subcategory ≠ some .float := by decide
    obtain ⟨notInt, notFloat⟩ := noNumeral _ fixed
    rw [Token.readNumeral_eq_self notInt notFloat] at reads
    cases reads
    exact .fixed rfl fixed
  · cases reads
    exact .name rfl isName rfl
  · simp only [Token.readNumeral, integerClass] at reads
    split at reads
    next number read =>
      cases reads
      rw [String.toList_ofList] at read
      exact .integer rfl (Decimal.toInt_nonneg_of_readInteger digits read) rfl
    next => cases reads
  · simp only [Token.readNumeral, floatClass] at reads
    split at reads
    next number read =>
      cases reads
      exact .float rfl rfl
    next => cases reads

/-- Every token of a text is one of the language, except the mark of the end. -/
theorem Token.isStandard_of_tokenize {text : String} {tokens : List Token}
    (lexes : Grammar.standard.tokenize text = .ok tokens) :
    ∃ words offset, tokens = words ++ [.endOfInput offset] ∧
      ∀ token ∈ words, token.IsStandard := by
  rcases Grammar.tokenize_eq_ok_iff.mp lexes with ⟨_, words, read, rfl⟩
  refine ⟨words, _, rfl, ?_⟩
  intro token member
  obtain ⟨raw, placed, reads⟩ := exists_of_mem_forall₂ read member
  obtain ⟨segment, inSegments, offset, yields⟩ := mem_placeTokens placed
  obtain ⟨input, found⟩ := Grammar.mem_segmentation inSegments
  exact .of_readNumeral found yields reads

theorem Token.IsStandard.of_emits {token : Token} (emitted : Grammar.standard.Emits token) :
    token.IsStandard := by
  rcases emitted with ⟨text, tokens, lexes, member, notEnd⟩
  obtain ⟨words, offset, rfl, standard⟩ := Token.isStandard_of_tokenize lexes
  rcases List.mem_append.mp member with word | mark
  · exact standard token word
  · rw [List.mem_singleton.mp mark, Token.isEnd_endOfInput] at notEnd
    cases notEnd

end WhileLang
