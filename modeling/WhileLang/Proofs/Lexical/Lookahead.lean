import WhileLang.Proofs.Lexical.WordLexing

/-!
# How far a lexeme looks ahead

A lexeme is recognized by what stands behind it, so it could depend on the whole text.
It does not: what is found at the head of a text is found there too when the text ends
behind the lexeme, or when a separator stands there.  Only keywords make this more than a
law of longest matches, since a longer word can lose its end and become one.
-/

namespace WhileLang

/-! ## Longest matches in a beginning of the text -/

theorem takeWhile_prefix_takeWhile_append (p : Char → Bool) (word rest : List Char) :
    word.takeWhile p <+: (word ++ rest).takeWhile p := by
  rw [List.takeWhile_append]
  split
  · exact (List.takeWhile_prefix p).trans (List.prefix_append word _)
  · exact List.prefix_refl _

/-- A run that ends within the beginning of a text is the run of the beginning. -/
theorem takeWhile_eq_of_length_le (p : Char → Bool) {word rest : List Char}
    (within : ((word ++ rest).takeWhile p).length ≤ word.length) :
    word.takeWhile p = (word ++ rest).takeWhile p := by
  rw [List.takeWhile_append] at within ⊢
  split
  case isTrue whole =>
    rw [if_pos whole, List.length_append] at within
    have nothing : rest.takeWhile p = [] := List.eq_nil_of_length_eq_zero (by omega)
    rw [nothing, List.append_nil]
    exact (List.takeWhile_prefix p).eq_of_length whole
  case isFalse => rfl

theorem decimalLexeme_at_point {whole : List Char} (digits : ∀ c ∈ whole, c.isDigit)
    (rest : List Char) :
    decimalLexeme (whole ++ '.' :: rest) =
      if whole ≠ [] ∧ rest.takeWhile Char.isDigit ≠ [] then
        whole ++ '.' :: rest.takeWhile Char.isDigit
      else [] := by
  have stops : Char.isDigit '.' = false := by decide
  simp only [decimalLexeme, takeWhile_append_cons_of_stops stops,
    dropWhile_append_cons_of_stops stops, List.takeWhile_eq_self_iff.mpr digits,
    List.dropWhile_eq_nil_iff.mpr digits, List.nil_append]

theorem exists_point_of_decimalLexeme_ne_nil {input : List Char}
    (notEmpty : decimalLexeme input ≠ []) :
    ∃ whole rest, input = whole ++ '.' :: rest ∧ (∀ c ∈ whole, c.isDigit) ∧ whole ≠ [] ∧
      rest.takeWhile Char.isDigit ≠ [] := by
  have parts := List.takeWhile_append_dropWhile (p := Char.isDigit) (l := input)
  have digits : ∀ c ∈ input.takeWhile Char.isDigit, c.isDigit :=
    fun c member => List.mem_takeWhile_imp member
  unfold decimalLexeme at notEmpty
  split at notEmpty
  next rest atPoint =>
    dsimp only at notEmpty
    split at notEmpty
    next both =>
      rw [atPoint] at parts
      exact ⟨_, rest, parts.symm, digits, both⟩
    next => exact absurd rfl notEmpty
  next => exact absurd rfl notEmpty

theorem decimalLexeme_prefix_append (word rest : List Char) :
    decimalLexeme word <+: decimalLexeme (word ++ rest) := by
  by_cases empty : decimalLexeme word = []
  · rw [empty]
    exact List.nil_prefix
  · obtain ⟨whole, more, rfl, digits, notEmpty, fraction⟩ :=
      exists_point_of_decimalLexeme_ne_nil empty
    have longer := takeWhile_prefix_takeWhile_append Char.isDigit more rest
    have fraction' : (more ++ rest).takeWhile Char.isDigit ≠ [] := by
      intro nothing
      rw [nothing] at longer
      exact fraction (List.prefix_nil.mp longer)
    rw [List.append_assoc, List.cons_append, decimalLexeme_at_point digits,
      decimalLexeme_at_point digits, if_pos ⟨notEmpty, fraction⟩, if_pos ⟨notEmpty, fraction'⟩]
    exact (List.prefix_append_right_inj whole).mpr (List.cons_prefix_cons.mpr ⟨rfl, longer⟩)

theorem decimalLexeme_eq_of_length_le {word rest : List Char}
    (found : decimalLexeme (word ++ rest) ≠ [])
    (within : (decimalLexeme (word ++ rest)).length ≤ word.length) :
    decimalLexeme word = decimalLexeme (word ++ rest) := by
  obtain ⟨whole, tail, text, digits, notEmpty, fraction⟩ :=
    exists_point_of_decimalLexeme_ne_nil found
  rw [text, decimalLexeme_at_point digits, if_pos ⟨notEmpty, fraction⟩] at within ⊢
  have begins : whole ++ ['.'] <+: word := by
    have toPoint : whole ++ ['.'] <+: word ++ rest :=
      ⟨tail, by rw [text, List.append_assoc, List.singleton_append]⟩
    refine List.prefix_of_prefix_length_le toPoint (List.prefix_append _ _) ?_
    simp only [List.length_append, List.length_cons, List.length_nil] at within ⊢
    omega
  obtain ⟨more, rfl⟩ := begins
  simp only [List.append_assoc, List.cons_append, List.nil_append, List.append_cancel_left_eq,
    List.cons.injEq, true_and] at text
  subst text
  simp only [List.length_append, List.length_cons, List.append_assoc, List.length_nil] at within
  have same : more.takeWhile Char.isDigit = (more ++ rest).takeWhile Char.isDigit :=
    takeWhile_eq_of_length_le _ (by omega)
  rw [List.append_assoc, List.singleton_append, decimalLexeme_at_point digits, same,
    if_pos ⟨notEmpty, fraction⟩]

namespace Pattern

/-- A lexeme that ends within the beginning of a text is the lexeme of the beginning. -/
theorem lexeme_eq_of_length_le {pattern : Pattern} {word rest : List Char}
    (found : pattern.lexeme (word ++ rest) ≠ [])
    (within : (pattern.lexeme (word ++ rest)).length ≤ word.length) :
    pattern.lexeme word = pattern.lexeme (word ++ rest) := by
  have sameHead : (word ++ rest).head? = word.head? := by
    refine List.head?_append_of_ne_nil _ ?_
    rintro rfl
    exact found (List.eq_nil_of_length_eq_zero (Nat.le_zero.mp within))
  cases pattern with
  | whitespace => exact takeWhile_eq_of_length_le _ within
  | lineComment marker =>
      simp only [lexeme, sameHead] at found within ⊢
      split
      case isTrue begins =>
        rw [if_pos begins] at within
        exact takeWhile_eq_of_length_le _ within
      case isFalse => rfl
  | exact text =>
      simp only [lexeme, List.isPrefixOf_iff_prefix] at found within ⊢
      split at found
      case isTrue begins =>
        rw [if_pos begins] at within
        rw [if_pos begins,
          if_pos (List.prefix_of_prefix_length_le begins (List.prefix_append _ _) within)]
      case isFalse => exact absurd rfl found
  | keyword text =>
      simp only [lexeme, List.isPrefixOf_iff_prefix] at found within ⊢
      split at found
      case isTrue begins =>
        rw [if_pos begins] at within
        obtain ⟨behind, rfl⟩ :=
          List.prefix_of_prefix_length_le begins.1 (List.prefix_append _ _) within
        rw [if_pos begins, if_pos]
        refine ⟨List.prefix_append _ _, ?_⟩
        have noWord := begins.2
        rw [List.append_assoc, List.drop_left] at noWord
        rw [List.drop_left]
        cases behind with
        | nil => simp
        | cons next behind => exact noWord
      case isFalse => exact absurd rfl found
  | identifier =>
      simp only [lexeme, sameHead] at found within ⊢
      split
      case isTrue begins =>
        rw [if_pos begins] at within
        exact takeWhile_eq_of_length_le _ within
      case isFalse => rfl
  | digits => exact takeWhile_eq_of_length_le _ within
  | decimal => exact decimalLexeme_eq_of_length_le found within

/-- A pattern other than a keyword that has no lexeme in a text has none in a beginning of
the text.  A keyword has one only if it is the whole beginning and a word goes on behind
it. -/
theorem lexeme_eq_nil_of_append {pattern : Pattern} {word rest : List Char}
    (missing : pattern.lexeme (word ++ rest) = []) :
    pattern.lexeme word = [] ∨
      pattern = .keyword (String.ofList word) ∧ rest.head?.any isWordChar := by
  -- The lexemes of most patterns only become longer.
  have shortens : pattern.lexeme word <+: pattern.lexeme (word ++ rest) →
      pattern.lexeme word = [] := by
    intro longer
    rw [missing] at longer
    exact List.prefix_nil.mp longer
  cases pattern with
  | whitespace => exact .inl (shortens (takeWhile_prefix_takeWhile_append _ _ _))
  | lineComment marker =>
      refine .inl (shortens ?_)
      simp only [lexeme]
      by_cases begins : word.head? = some marker
      · have begins' : (word ++ rest).head? = some marker := by
          rw [List.head?_append, begins]
          rfl
        rw [if_pos begins, if_pos begins']
        exact takeWhile_prefix_takeWhile_append _ word rest
      · rw [if_neg begins]
        exact List.nil_prefix
  | exact text =>
      refine .inl ?_
      simp only [lexeme, List.isPrefixOf_iff_prefix] at missing ⊢
      split
      case isTrue begins => rwa [if_pos (begins.trans (List.prefix_append word rest))] at missing
      case isFalse => rfl
  | keyword text =>
      simp only [lexeme, List.isPrefixOf_iff_prefix] at missing ⊢
      split
      case isFalse => exact .inl rfl
      case isTrue begins =>
        obtain ⟨⟨behind, rfl⟩, noWord⟩ := begins
        rw [List.drop_left] at noWord
        rw [List.append_assoc, List.drop_left] at missing
        split at missing
        case isTrue => exact .inl missing
        case isFalse fails =>
          have goesOn : (behind ++ rest).head?.any isWordChar := by
            by_contra stops
            exact fails ⟨List.prefix_append _ _, stops⟩
          cases behind with
          | nil => exact .inr ⟨by simp, goesOn⟩
          | cons next behind => exact absurd goesOn noWord
  | identifier =>
      refine .inl (shortens ?_)
      simp only [lexeme]
      by_cases begins : word.head?.any isWordStart
      · have begins' : (word ++ rest).head?.any isWordStart := by
          cases word with
          | nil => simp at begins
          | cons c more => exact begins
        rw [if_pos begins, if_pos begins']
        exact takeWhile_prefix_takeWhile_append _ word rest
      · rw [if_neg begins]
        exact List.nil_prefix
  | digits => exact .inl (shortens (takeWhile_prefix_takeWhile_append _ _ _))
  | decimal => exact .inl (shortens (decimalLexeme_prefix_append _ _))

/-- Within a longer word no rule of the language finds a lexeme that ends before the word
does. -/
theorem length_lt_of_word {pattern : Pattern} {c next : Char} {more rest : List Char}
    (known : pattern.missesNames ∨ pattern = .identifier) (start : isWordStart c)
    (word : ∀ d ∈ c :: more, isWordChar d) (goesOn : isWordChar next)
    (found : pattern.lexeme (c :: more ++ next :: rest) ≠ []) :
    (c :: more).length < (pattern.lexeme (c :: more ++ next :: rest)).length := by
  have notBlank := isBlank_eq_false_of_isWordChar (isWordChar_of_isWordStart start)
  have notDigit := isDigit_eq_false_of_isWordStart start
  rcases known with misses | rfl
  · cases pattern with
    | whitespace => simp [lexeme, notBlank] at found
    | lineComment marker =>
        have other : c ≠ marker := by
          rintro rfl
          simp [missesNames, start] at misses
        simp [lexeme, other] at found
    | exact fixed =>
        refine absurd (lexeme_exact_eq_nil_of_head? ?_) found
        intro sameHead
        simp [missesNames, ← sameHead, start] at misses
    | keyword fixed =>
        simp only [lexeme, List.isPrefixOf_iff_prefix] at found ⊢
        split at found
        case isFalse => exact absurd rfl found
        case isTrue begins =>
          rw [if_pos begins]
          by_contra short
          -- A shorter keyword would end before a word character.
          obtain ⟨behind, whole⟩ :=
            List.prefix_of_prefix_length_le begins.1 (List.prefix_append (c :: more) _) (by omega)
          have noWord := begins.2
          rw [← whole, List.append_assoc, List.drop_left] at noWord
          cases behind with
          | nil => simp [goesOn] at noWord
          | cons d behind =>
              have inWord := word d (by simp [← whole])
              simp [inWord] at noWord
    | identifier => simp [missesNames] at misses
    | digits => simp [lexeme, notDigit] at found
    | decimal =>
        obtain ⟨whole, tail, text, digits, notEmpty, _⟩ :=
          exists_point_of_decimalLexeme_ne_nil found
        obtain ⟨d, others, rfl⟩ := List.exists_cons_of_ne_nil notEmpty
        have same : c = d := (List.cons.inj text).1
        have digit := digits d List.mem_cons_self
        rw [← same, notDigit] at digit
        cases digit
  · have run : (c :: more ++ next :: rest).takeWhile isWordChar =
        c :: more ++ (next :: rest).takeWhile isWordChar := List.takeWhile_append_of_pos word
    have begins : (c :: more ++ next :: rest).head?.any isWordStart := start
    rw [lexeme, if_pos begins, run, List.length_append, List.takeWhile_cons, if_pos goesOn]
    simp

end Pattern

namespace Grammar

/-- What the language finds at the head of a text is found there too when the text ends
behind the lexeme. -/
theorem segment?_of_append {word rest : List Char} {segment : Segment}
    (found : standard.segment? (word ++ rest) = some segment)
    (within : segment.lexeme.length ≤ word.length) : standard.segment? word = some segment := by
  rcases Option.map_eq_some_iff.mp found with ⟨rule, ruleFound, rfl⟩
  have member := mem_rules_of_find? ruleFound
  have notEmpty := lexeme_ne_nil_of_find? ruleFound
  have same := Pattern.lexeme_eq_of_length_le notEmpty within
  obtain ⟨before, after, split, _, misses⟩ := find?_eq_some_iff.mp ruleFound
  have ruleFound' : standard.find? word = some rule := by
    refine find?_of_append split ?_ (same ▸ notEmpty)
    intro other earlier
    have missing := Pattern.matchLength?_eq_none_iff.mp (misses other earlier)
    rcases Pattern.lexeme_eq_nil_of_append missing with nothing | ⟨keyword, goesOn⟩
    · exact nothing
    · -- The beginning of the text is a reserved word, but the text goes on with the word.
      exfalso
      have isMember : other ∈ standard.rules := split ▸ List.mem_append_left _ earlier
      have known : ∀ rule ∈ standard.rules,
          rule.pattern.missesNames ∨ rule.pattern = .identifier := by decide
      have reserved : String.ofList word ∈ reservedWords := by
        simpa [keyword, Pattern.missesNames] using known other isMember
      have isWord : ∀ text ∈ reservedWords,
          text.toList.head?.any isWordStart ∧ text.toList.all isWordChar := by decide
      obtain ⟨start, isWord⟩ := isWord _ reserved
      rw [String.toList_ofList] at start isWord
      cases word with
      | nil => simp at start
      | cons c more =>
          cases rest with
          | nil => simp at goesOn
          | cons next rest =>
              have longer := Pattern.length_lt_of_word (known rule member) (by simpa using start)
                (List.all_eq_true.mp isWord) (by simpa using goesOn) notEmpty
              exact absurd within (Nat.not_le.mpr longer)
  rw [segment?, ruleFound', Option.map_some, same]

end Grammar

end WhileLang
