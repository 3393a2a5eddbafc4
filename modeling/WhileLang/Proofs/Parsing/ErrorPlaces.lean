import Mathlib
import WhileLang.Proofs.Parsing.Origin

/-!
# The places of syntax errors

Whatever tokens a parser is given, it reports an error at the place of one of them or at
the end of the input.  The tokens are arbitrary here: their texts and classes need not
belong to the language, and the numbers in them need not have been read.

A pass over an expression keeps the tokens that it has taken, in its output and among the
operators that wait.  So the invariant is that all tokens of a pass, like those from the
cursor on, stand at places of some given kind.
-/

namespace WhileLang

variable {admits : Span → Prop}

/-! ## Trees in postorder -/

theorem numberLeaf_eq_error {token : Token} {error : SyntaxError}
    (fails : numberLeaf token = .error error) : error.span = token.span := by
  unfold numberLeaf at fails
  split at fails
  · cases fails
  · cases fails
  · split at fails <;> cases fails
    rfl

theorem operatorNode_eq_error {operator : Token} {left? : Option Expr} {right : Expr}
    {error : SyntaxError} (fails : operatorNode operator left? right = .error error) :
    error.span = operator.span := by
  simp only [operatorNode] at fails
  split at fails
  · cases fails
  · cases left? with
    | none =>
        cases fails
        rfl
    | some left =>
        dsimp only at fails
        split_ifs at fails
        split at fails <;> cases fails
        rfl

theorem map_eq_error_iff {α β ε : Type} {outcome : Except ε α} {f : α → β} {error : ε} :
    outcome.map f = .error error ↔ outcome = .error error := by
  cases outcome <;> simp [Except.map]

theorem reduceToken_eq_error {trees : List Expr} {token : Token} {error : SyntaxError}
    (fails : reduceToken trees token = .error error) : error.span = token.span := by
  unfold reduceToken at fails
  cases category : token.category with
  | number =>
      rw [category] at fails
      exact numberLeaf_eq_error (map_eq_error_iff.mp fails)
  | identifier =>
      rw [category] at fails
      cases fails
  | reserved =>
      rw [category] at fails
      dsimp only at fails
      split_ifs at fails with _ isNot
      · rcases trees with _ | ⟨right, rest⟩
        · cases fails
          rfl
        · exact operatorNode_eq_error (map_eq_error_iff.mp fails)
      · rcases trees with _ | ⟨right, _ | ⟨left, rest⟩⟩
        · cases fails
          rfl
        · cases fails
          rfl
        · exact operatorNode_eq_error (map_eq_error_iff.mp fails)
      · cases fails
        rfl

theorem foldlM_reduceToken_eq_error {tokens : List Token} {trees : List Expr}
    {error : SyntaxError} (fails : tokens.foldlM reduceToken trees = .error error) :
    ∃ token ∈ tokens, error.span = token.span := by
  induction tokens generalizing trees with
  | nil => cases fails
  | cons token tokens ih =>
      rw [List.foldlM_cons] at fails
      cases reduced : reduceToken trees token with
      | error other =>
          rw [reduced] at fails
          cases fails
          exact ⟨token, List.mem_cons_self, reduceToken_eq_error reduced⟩
      | ok trees =>
          rw [reduced] at fails
          obtain ⟨culprit, member, same⟩ := ih fails
          exact ⟨culprit, List.mem_cons_of_mem token member, same⟩

theorem exprOfPostorder_eq_error {following : Token} {tokens : List Token} {error : SyntaxError}
    (fails : exprOfPostorder following tokens = .error error) :
    ∃ token ∈ following :: tokens, error.span = token.span := by
  unfold exprOfPostorder at fails
  split at fails
  next other reduced =>
    cases fails
    obtain ⟨token, member, same⟩ := foldlM_reduceToken_eq_error reduced
    exact ⟨token, List.mem_cons_of_mem following member, same⟩
  next =>
    cases fails
    exact ⟨following, List.mem_cons_self, rfl⟩
  next => cases fails
  next =>
    cases fails
    exact ⟨following, List.mem_cons_self, rfl⟩

/-! ## Passes over expressions -/

namespace OperatorScan

/-- All tokens that a pass has taken stand at admitted places. -/
def StandsAt (admits : Span → Prop) (scan : OperatorScan) : Prop :=
  ∀ token ∈ scan.output ++ scan.waiting, admits token.span

theorem standsAt_start : start.StandsAt admits := by
  simp [StandsAt, start]

theorem StandsAt.of_proceeds {scan after : OperatorScan} {token : Token}
    (stands : scan.StandsAt admits) (admitted : admits token.span)
    (proceeds : Proceeds token scan after) : after.StandsAt admits := by
  intro other member
  rcases proceeds.mem_of_mem member with rfl | earlier
  · exact admitted
  · exact stands other earlier

theorem StandsAt.of_finish_eq_error {scan : OperatorScan} {following : Token}
    {error : SyntaxError} (stands : scan.StandsAt admits) (admitted : admits following.span)
    (fails : scan.finish following = .error error) : admits error.span := by
  unfold OperatorScan.finish at fails
  split_ifs at fails
  · cases fails
    exact admitted
  · cases innermost : scan.waiting.find? Token.opensGroup with
    | some parenthesis =>
        rw [innermost] at fails
        cases fails
        exact stands parenthesis (List.mem_append_right _ (List.mem_of_find?_eq_some innermost))
    | none =>
        rw [innermost] at fails
        cases fails

theorem StandsAt.of_finish_eq_ok {scan : OperatorScan} {following : Token}
    {sequence : List Token} (stands : scan.StandsAt admits)
    (ends : scan.finish following = .ok sequence) : ∀ token ∈ sequence, admits token.span := by
  obtain ⟨_, _, rfl⟩ := finish_eq_ok_iff.mp ends
  intro token member
  rcases List.mem_append.mp member with output | waiting
  · exact stands token (List.mem_append_left _ (List.mem_reverse.mp output))
  · exact stands token (List.mem_append_right _ waiting)

end OperatorScan

/-! ## Parsers -/

/-- All tokens from the cursor on stand at admitted places, and so does the end of the
input. -/
structure Cursor.StandsAt (admits : Span → Prop) (cursor : Cursor) : Prop where
  tokens : ∀ token ∈ cursor.rest, admits token.span
  mark : admits ⟨cursor.endOffset, 0⟩

namespace Cursor.StandsAt

variable {cursor next : Cursor} {tokens : List Token}

theorem current (stands : cursor.StandsAt admits) : admits cursor.current.span := by
  unfold Cursor.current
  cases rest : cursor.rest with
  | nil => exact stands.mark
  | cons token others => exact stands.tokens token (by simp [rest])

theorem of_passes (stands : cursor.StandsAt admits) (passes : cursor.Passes tokens next) :
    next.StandsAt admits where
  tokens token member := stands.tokens token (by simp [passes.rest, member])
  mark := passes.endOffset ▸ stands.mark

end Cursor.StandsAt

namespace Parser

/-- What is built from a pass that ended before a token fails at an admitted place. -/
theorem build_admits {scan : OperatorScan} {following : Token} {error : SyntaxError}
    (stands : scan.StandsAt admits) (admitted : admits following.span)
    (fails : (scan.finish following).bind (exprOfPostorder following) = .error error) :
    admits error.span := by
  cases ends : scan.finish following with
  | error other =>
      rw [ends] at fails
      cases fails
      exact stands.of_finish_eq_error admitted ends
  | ok sequence =>
      rw [ends] at fails
      obtain ⟨token, member, same⟩ := exprOfPostorder_eq_error fails
      rw [same]
      rcases List.mem_cons.mp member with rfl | inSequence
      · exact admitted
      · exact stands.of_finish_eq_ok ends token inSequence

/-- A pass from the cursor on gives no tree for a reason at an admitted place. -/
theorem toTree_admits {scan : OperatorScan} {cursor last : Cursor} {error : SyntaxError}
    (stands : scan.StandsAt admits) (cursorStands : cursor.StandsAt admits)
    (fails : scan.toTree cursor = .error error last) : admits error.span := by
  induction length : cursor.rest.length using Nat.strongRecOn generalizing scan cursor with
  | ind n ih =>
      cases step : scan.step cursor.current with
      | stop =>
          rw [OperatorScan.toTree_of_stop step] at fails
          cases built : (scan.finish cursor.current).bind (exprOfPostorder cursor.current) with
          | ok tree =>
              rw [built] at fails
              cases fails
          | error other =>
              rw [built] at fails
              cases fails
              exact build_admits stands cursorStands.current built
      | fail other =>
          rw [OperatorScan.toTree_of_fail step] at fails
          cases fails
          rw [OperatorScan.eq_of_step_eq_fail step]
          exact cursorStands.current
      | proceed after =>
          have passes := passes_of_proceed step
          have shorter : cursor.advance.rest.length < n :=
            length ▸ length_advance_lt_of_proceed step
          rw [OperatorScan.toTree_congr (OperatorScan.goOn_of_proceed step)] at fails
          have standsAfter :=
            stands.of_proceeds cursorStands.current (OperatorScan.proceeds_of_step step)
          exact ih _ shorter standsAfter (cursorStands.of_passes passes) fails rfl

/-- A program that cannot be parsed is refused at the place of one of its tokens or at the
end of the input. -/
theorem program_admits {cursor last : Cursor} {error : SyntaxError}
    (stands : cursor.StandsAt admits) (fails : program cursor = .error error last) :
    admits error.span := by
  obtain ⟨tokens, passes, _⟩ := isLocal_program cursor
  rw [fails] at passes
  cases tracesErrors_program fails with
  | token wanted same =>
      rw [same]
      exact (stands.of_passes passes).current
  | expression passesFirst failsThere =>
      exact toTree_admits OperatorScan.standsAt_start (stands.of_passes passesFirst) failsThere

end Parser

end WhileLang
