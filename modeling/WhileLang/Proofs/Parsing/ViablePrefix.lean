import WhileLang.Proofs.Parsing.Acceptance

/-!
# Where a syntax error is found

When a program cannot be parsed, the parser stops at the first token that is wrong.
The tokens before it begin a program: some continuation of them is accepted.  With the
token itself they begin none, whatever follows.  An error that names the token it has
found names this one.
-/

namespace WhileLang

/-- A token that a parser passed before it failed cannot be the mark of the end. -/
theorem isEnd_eq_false_of_begins {tokens : List Token}
    (begins : Phrases.Begins SpellsBlock tokens) : ∀ token ∈ tokens, token.isEnd = false := by
  rcases begins with ⟨completion, program, _, isBlock⟩
  intro token member
  exact isBlock.isEnd_eq_false token (List.mem_append_left completion member)

/-- The beginning of a block can be completed to a list that is parsed. -/
theorem exists_parseTokens_of_begins {tokens : List Token}
    (begins : Phrases.Begins SpellsBlock tokens) (regular : ∀ token ∈ tokens, token.IsRegular) :
    ∃ completion program, Grammar.standard.EmitsAll completion ∧ ∀ mark endOffset,
      parseTokens (tokens ++ completion ++ [.endOfInput mark]) endOffset = .ok program := by
  rcases begins with ⟨completion, program, emitted, isBlock⟩
  refine ⟨completion, program, emitted, ?_⟩
  apply isBlock.parseTokens_eq
  intro token member
  rcases List.mem_append.mp member with before | later
  · exact regular token before
  · exact (Token.IsStandard.of_emits (emitted token later)).isRegular

/-- Whatever follows the token at which a program fails, it fails there. -/
theorem parseTokens_ne_ok_of_fails {tokens passed : List Token} {wrong : Token}
    {size : Nat} {error : SyntaxError} {cursor : Cursor}
    (fails : Parser.program (Cursor.ofTokens tokens size) = .error error cursor)
    (passes : (Cursor.ofTokens tokens size).Passes passed cursor)
    (atWrong : cursor.current = wrong) (continuation : List Token) (endOffset : Nat)
    (program : Block) :
    parseTokens (passed ++ wrong :: continuation) endOffset ≠ .ok program := by
  obtain ⟨tokens', passes', elsewhere⟩ := Parser.isLocal_program (Cursor.ofTokens tokens size)
  rw [fails] at passes' elsewhere
  obtain rfl := passes.tokens_unique passes'
  have other : (Cursor.ofTokens (passed ++ wrong :: continuation) endOffset).Passes passed
      ⟨wrong :: continuation, passed.length, endOffset⟩ := ⟨rfl, by simp [Cursor.ofTokens], rfl⟩
  have failsThere := elsewhere _ _ other atWrong.symm
  intro parses
  rcases parseTokens_eq_ok_iff.mp parses with ⟨next, succeeds⟩
  rw [failsThere] at succeeds
  cases succeeds

/-- A program that is made of tokens and cannot be parsed fails at its first wrong token.
Let the parser stop at the token in some position.  The tokens before that position can
be completed by tokens of the language to a list that is accepted, wherever its mark of
the end stands.  No list that begins with these tokens and the token in that position is
accepted.  And if the error tells what was found, it tells of that token and its place. -/
theorem fails_at_first_wrong_token {source : Source} {tokens : List Token} {error : SyntaxError}
    {cursor : Cursor} (lexes : Grammar.standard.tokenize source.text = .ok tokens)
    (fails : Parser.program (Cursor.ofTokens tokens source.size) = .error error cursor) :
    ∃ wrong, tokens[cursor.position]? = some wrong ∧
      (∃ completion program, (∀ token ∈ completion, Grammar.standard.Emits token) ∧
        ∀ mark endOffset,
          parseTokens (tokens.take cursor.position ++ completion ++ [.endOfInput mark]) endOffset =
            .ok program) ∧
      (∀ continuation endOffset program,
        parseTokens (tokens.take (cursor.position + 1) ++ continuation) endOffset ≠
          .ok program) ∧
      ∀ wanted found span, error = .expected wanted found span →
        found = wrong.value ∧ span = wrong.span := by
  obtain ⟨words, mark, rfl, standard⟩ := Token.isStandard_of_tokenize lexes
  have regular := Cursor.isRegular_ofTokens
    (fun token member => (standard token member).isRegular) mark source.size
  obtain ⟨passed, passes, begins⟩ := Parser.program_viable regular fails
  have position : cursor.position = passed.length := by
    simpa [Cursor.ofTokens] using passes.position
  have split : words ++ [.endOfInput mark] = passed ++ cursor.rest := passes.rest
  cases rest : cursor.rest with
  | nil =>
      -- The mark of the end would have been passed.
      rw [rest, List.append_nil] at split
      have markPassed := isEnd_eq_false_of_begins begins (.endOfInput mark) (by simp [← split])
      simp at markPassed
  | cons wrong others =>
      rw [rest] at split
      have atWrong : cursor.current = wrong := by simp [Cursor.current, rest]
      have before : (words ++ [Token.endOfInput mark]).take cursor.position = passed := by
        rw [split, position, List.take_left]
      have through : (words ++ [Token.endOfInput mark]).take (cursor.position + 1) =
          passed ++ [wrong] := by
        rw [split, position, List.take_length_add_append]
        simp
      refine ⟨wrong, by simp [split, position], ?_, ?_, ?_⟩
      · rw [before]
        apply exists_parseTokens_of_begins begins
        intro token member
        exact regular token (by simp [Cursor.ofTokens, split, member])
      · intro continuation endOffset program
        rw [through, List.append_assoc]
        exact parseTokens_ne_ok_of_fails fails passes atWrong continuation endOffset program
      · rw [← atWrong]
        exact Parser.program_blames regular fails

/-- A source in which the second operand of a sum is missing. -/
def missingOperand : Source :=
  Source.ofText none "x := not a + ;"

/-- The tokens before the missing operand. -/
def beforeMissingOperand : List Token :=
  [nameToken "x" 0, signToken ":=" 0 2, signToken "not" 1 5, nameToken "a" 9, signToken "+" 2 11]

/-- The tokens before the missing operand begin a program, and the sign behind them is
wrong. -/
theorem missingOperand_fails_at_first_wrong_token :
    (∃ completion program, (∀ token ∈ completion, Grammar.standard.Emits token) ∧
      ∀ mark endOffset,
        parseTokens (beforeMissingOperand ++ completion ++ [.endOfInput mark]) endOffset =
          .ok program) ∧
    ∀ continuation endOffset program,
      parseTokens (beforeMissingOperand ++ [symbolToken ";" 13] ++ continuation) endOffset ≠
        .ok program := by
  have lexes : Grammar.standard.tokenize missingOperand.text =
      .ok (beforeMissingOperand ++ [symbolToken ";" 13, .endOfInput 14]) := by decide +kernel
  have fails : Parser.program (Cursor.ofTokens
      (beforeMissingOperand ++ [symbolToken ";" 13, .endOfInput 14]) missingOperand.size) =
        .error (.expected .expression (.text ";") ⟨13, 1⟩)
          ⟨[symbolToken ";" 13, .endOfInput 14], 5, missingOperand.size⟩ := rfl
  obtain ⟨_, _, viable, wrong, _⟩ := fails_at_first_wrong_token lexes fails
  exact ⟨viable, wrong⟩

end WhileLang
