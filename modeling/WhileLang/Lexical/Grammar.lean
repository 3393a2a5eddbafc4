import WhileLang.Lexical.Pattern
import WhileLang.Token.Basic

/-!
# Token grammars

A token grammar is a list of rules.  The first rule with a lexeme at the head of
the text decides what is found there, so a fixed text has to come before its own
beginnings and a reserved word before the rule for identifiers.
-/

namespace WhileLang

/-- A pattern with the class of the tokens made from its lexemes.  Without a class
the lexemes are skipped. -/
structure Rule where
  pattern : Pattern
  tokenClass : Option TokenClass
deriving DecidableEq

namespace Rule

/-- A rule whose lexemes leave no token. -/
def skip (pattern : Pattern) : Rule :=
  { pattern, tokenClass := none }

/-- A punctuation sign. -/
def symbol (text : String) : Rule :=
  { pattern := .exact text
    tokenClass := some { category := .reserved, subcategory := some .symbol, precedence := 0 } }

/-- An operator written with signs. -/
def operator (text : String) (precedence : Nat) : Rule :=
  { pattern := .exact text
    tokenClass := some { category := .reserved, subcategory := some .operator, precedence } }

/-- An operator written as a word. -/
def wordOperator (text : String) (precedence : Nat) : Rule :=
  { pattern := .keyword text
    tokenClass := some { category := .reserved, subcategory := some .operator, precedence } }

/-- A word that structures statements. -/
def statement (text : String) : Rule :=
  { pattern := .keyword text
    tokenClass := some { category := .reserved, subcategory := some .statement, precedence := 0 } }

end Rule

/-- An ordered list of rules. -/
structure Grammar where
  rules : List Rule
deriving DecidableEq

/-- The first rule with a lexeme at the head of a text. -/
def Grammar.find? (grammar : Grammar) (input : List Char) : Option Rule :=
  grammar.rules.find? fun rule => rule.pattern.isMatch input

/-- No rule is found exactly where none of the rules matches. -/
theorem Grammar.find?_eq_none_iff {grammar : Grammar} {input : List Char} :
    grammar.find? input = none ↔
      ∀ rule ∈ grammar.rules, rule.pattern.matchLength? input = none := by
  simp [find?, List.find?_eq_none, Pattern.isMatch_iff, Pattern.matchLength?_eq_none_iff]

/-- The rule that is found is the first one that matches: it stands in the list behind rules
that do not. -/
theorem Grammar.find?_eq_some_iff {grammar : Grammar} {input : List Char} {rule : Rule} :
    grammar.find? input = some rule ↔
      ∃ before after, grammar.rules = before ++ rule :: after ∧
        rule.pattern.matchLength? input ≠ none ∧
          ∀ other ∈ before, other.pattern.matchLength? input = none := by
  have fails : ∀ other : Rule,
      (!other.pattern.isMatch input) = true ↔ other.pattern.matchLength? input = none := by
    intro other
    rw [Bool.not_eq_true', ← Bool.not_eq_true, Pattern.isMatch_iff,
      Pattern.matchLength?_eq_none_iff, Classical.not_not]
  rw [find?, List.find?_eq_some_iff_append, Pattern.isMatch_iff, ne_eq,
    ← Pattern.matchLength?_eq_none_iff]
  simp only [fails]
  constructor
  · rintro ⟨isMatch, before, after, split, misses⟩
    exact ⟨before, after, split, isMatch, misses⟩
  · rintro ⟨before, after, split, isMatch, misses⟩
    exact ⟨isMatch, before, after, split, misses⟩

theorem Grammar.mem_rules_of_find? {grammar : Grammar} {input : List Char} {rule : Rule}
    (found : grammar.find? input = some rule) : rule ∈ grammar.rules := by
  obtain ⟨before, after, split, _⟩ := find?_eq_some_iff.mp found
  exact split ▸ List.mem_append_right before List.mem_cons_self

theorem Grammar.lexeme_ne_nil_of_find? {grammar : Grammar} {input : List Char} {rule : Rule}
    (found : grammar.find? input = some rule) : rule.pattern.lexeme input ≠ [] := by
  obtain ⟨_, _, _, isMatch, _⟩ := find?_eq_some_iff.mp found
  rwa [ne_eq, Pattern.matchLength?_eq_none_iff] at isMatch

/-- The token grammar of the language. -/
def Grammar.standard : Grammar where
  rules :=
    [ .skip .whitespace,
      .skip (.lineComment '#'),
      .symbol ";",
      .operator ":=" 0,
      .operator "(" 9,
      .operator ")" 0,
      .operator "+" 2,
      .operator "-" 2,
      .operator "*" 3,
      .operator "/" 3,
      .operator "%" 4,
      .operator "<=" 2,
      .operator "<" 2,
      .operator ">=" 2,
      .operator ">" 2,
      .operator "==" 2,
      .operator "!=" 2,
      .wordOperator "and" 1,
      .wordOperator "or" 1,
      .wordOperator "not" 1,
      .statement "print",
      .statement "if",
      .statement "then",
      .statement "else",
      .statement "while",
      .statement "done",
      .statement "do",
      { pattern := .decimal
        tokenClass := some { category := .number, subcategory := some .float, precedence := 0 } },
      { pattern := .digits
        tokenClass := some { category := .number, subcategory := some .int, precedence := 0 } },
      { pattern := .identifier
        tokenClass := some { category := .identifier, subcategory := none, precedence := 0 } } ]

end WhileLang
