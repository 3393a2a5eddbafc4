import WhileLang.Proofs.Parsing.Combinators
import WhileLang.Proofs.Parsing.Role

/-!
# The pass over operands and operators

An expression is read in one pass with a stack of waiting operators.  Here it is
said what the pass does from any state on, by what the token under the cursor is.
-/

namespace WhileLang

namespace OperatorScan

/-! ## One pass from any state on -/

/-- Goes on with a pass from the cursor on. -/
def goOn (scan : OperatorScan) : Parser OperatorScan :=
  fun cursor => run cursor.endOffset cursor.rest cursor.position scan

/-- Goes on with a pass and builds the tree of what comes out. -/
def toTree (scan : OperatorScan) : Parser Expr := do
  let scan ← scan.goOn
  let following ← Parser.peek
  let sequence ← MonadExcept.ofExcept (scan.finish following)
  MonadExcept.ofExcept (exprOfPostorder following sequence)

theorem expression_eq_toTree_start : Parser.expression = start.toTree :=
  rfl

@[simp]
theorem step_endOfInput (scan : OperatorScan) (offset : Nat) :
    scan.step (.endOfInput offset) = .stop := by
  simp [step, Token.role]

theorem goOn_of_stop {scan : OperatorScan} {cursor : Cursor}
    (stops : scan.step cursor.current = .stop) : scan.goOn cursor = .ok scan cursor := by
  rcases cursor with ⟨rest, position, endOffset⟩
  cases rest with
  | nil => rfl
  | cons token tokens =>
      have stops : scan.step token = .stop := stops
      simp [goOn, run, stops]

theorem goOn_of_fail {scan : OperatorScan} {cursor : Cursor} {error : SyntaxError}
    (fails : scan.step cursor.current = .fail error) : scan.goOn cursor = .error error cursor := by
  rcases cursor with ⟨rest, position, endOffset⟩
  cases rest with
  | nil => simp [Cursor.current] at fails
  | cons token tokens =>
      have fails : scan.step token = .fail error := fails
      simp [goOn, run, fails]

theorem goOn_of_proceed {scan after : OperatorScan} {cursor : Cursor}
    (proceeds : scan.step cursor.current = .proceed after) :
    scan.goOn cursor = after.goOn cursor.advance := by
  rcases cursor with ⟨rest, position, endOffset⟩
  cases rest with
  | nil => simp [Cursor.current] at proceeds
  | cons token tokens =>
      have proceeds : scan.step token = .proceed after := proceeds
      simp [goOn, run, proceeds, Cursor.advance]

theorem toTree_congr {first second : OperatorScan} {firstCursor secondCursor : Cursor}
    (same : first.goOn firstCursor = second.goOn secondCursor) :
    first.toTree firstCursor = second.toTree secondCursor := by
  simp only [toTree, Parser.bind_apply, same]

/-- A pass that ends before a token is judged there. -/
theorem toTree_of_stop {scan : OperatorScan} {cursor : Cursor}
    (stops : scan.step cursor.current = .stop) :
    scan.toTree cursor =
      match (scan.finish cursor.current).bind (exprOfPostorder cursor.current) with
      | .ok tree => .ok tree cursor
      | .error error => .error error cursor := by
  simp only [toTree, Parser.bind_apply, goOn_of_stop stops, Parser.peek_apply,
    Parser.ofExcept_apply]
  cases scan.finish cursor.current with
  | error error => rfl
  | ok sequence =>
      simp only [Except.bind]
      cases exprOfPostorder cursor.current sequence <;> rfl

theorem toTree_of_fail {scan : OperatorScan} {cursor : Cursor} {error : SyntaxError}
    (fails : scan.step cursor.current = .fail error) :
    scan.toTree cursor = .error error cursor := by
  simp only [toTree, Parser.bind_apply, goOn_of_fail fails]

/-! ## Where an operand has to come next -/

/-- Without an operand a pass fails where the operand should begin, either at once or
when it is judged. -/
theorem toTree_of_missing {output waiting : List Token} {cursor : Cursor}
    (meaning : cursor.current.HasMeaning) (missing : ¬cursor.current.BeginsOperand) :
    toTree ⟨output, waiting, true⟩ cursor =
      .error (.atToken .expression cursor.current) cursor := by
  have stopsOrFails : step ⟨output, waiting, true⟩ cursor.current = .stop ∨
      step ⟨output, waiting, true⟩ cursor.current =
        .fail (.atToken .expression cursor.current) := by
    unfold step
    cases role : cursor.current.role with
    | outside => exact .inl rfl
    | operand => exact absurd (Token.beginsOperand_of_role meaning (.inl role)) missing
    | opening => exact absurd (Token.beginsOperand_of_role meaning (.inr role)) missing
    | closing =>
        by_cases open_ : waiting.any Token.opensGroup
        · exact .inr (by simp [open_])
        · exact .inl (by simp [open_])
    | binary => exact .inr rfl
  rcases stopsOrFails with stops | fails
  · rw [toTree_of_stop stops]
    rfl
  · exact toTree_of_fail fails

theorem step_leaf {output waiting : List Token} {token : Token} {tree : Expr}
    (isLeaf : token.leaf? = some tree) :
    step ⟨output, waiting, true⟩ token = .proceed ⟨token :: output, waiting, false⟩ := by
  simp [step, Token.role_eq_operand_of_leaf? isLeaf]

theorem step_opening (output waiting : List Token) {token : Token} {sign : String}
    (isSign : token.IsSign sign) (opening : sign = "(" ∨ sign = "not") :
    step ⟨output, waiting, true⟩ token = .proceed ⟨output, token :: waiting, true⟩ := by
  have role : token.role = .opening := by
    rw [Token.role_of_isSign isSign]
    rcases opening with rfl | rfl <;> rfl
  simp [step, role]

/-! ## Behind an operand -/

theorem step_closing {output inner outer : List Token} {token parenthesis : Token}
    (isSign : token.IsSign ")") (opens : parenthesis.IsSign "(")
    (noGroup : ∀ operator ∈ inner, operator.opensGroup = false) :
    step ⟨output, inner ++ parenthesis :: outer, false⟩ token =
      .proceed ⟨inner.reverse ++ output, outer, false⟩ := by
  have role : token.role = .closing := Token.role_of_isSign isSign
  have opensGroup : parenthesis.opensGroup = true := Token.opensGroup_of_isSign opens
  have within : ∀ operator ∈ inner, (!operator.opensGroup) = true := by
    intro operator member
    simp [noGroup operator member]
  simp [step, role, closeGroup, opensGroup, List.takeWhile_append_of_pos within,
    List.dropWhile_append_of_pos within]

/-- A binary operator sends out what waits for its left operand.  What lies below stays
when the operator exceeds the precedence of the token on top of it. -/
theorem step_binary (output : List Token) {inner outer : List Token} {token : Token}
    (binary : token.role = .binary)
    (goBefore : ∀ operator ∈ inner, operator.goesBefore token = true)
    (stays : ∀ operator ∈ outer.head?, operator.goesBefore token = false) :
    step ⟨output, inner ++ outer, false⟩ token =
      .proceed ⟨inner.reverse ++ output, token :: outer, true⟩ := by
  have outerKept : outer.takeWhile (·.goesBefore token) = [] ∧
      outer.dropWhile (·.goesBefore token) = outer := by
    cases outer with
    | nil => simp
    | cons operator rest => simp [stays operator rfl]
  simp [step, binary, pushBinary, List.takeWhile_append_of_pos goBefore,
    List.dropWhile_append_of_pos goBefore, outerKept.1, outerKept.2]

/-- A token that is neither a binary operator nor closes an open group ends a pass. -/
theorem step_stop (output waiting : List Token) {token : Token}
    (notBinary : token.role ≠ .binary)
    (closesNone : token.role = .closing → waiting.any Token.opensGroup = false) :
    step ⟨output, waiting, false⟩ token = .stop := by
  unfold step
  cases role : token.role with
  | outside => rfl
  | operand => rfl
  | opening => rfl
  | closing => simp [closesNone role]
  | binary => exact absurd role notBinary

/-! ## What one token does -/

/-- How a token moves a pass on: an operand goes to the output, an opening token waits, a
closing parenthesis sends out what waits in its group, and a binary operator sends out what
goes before it and waits. -/
inductive Proceeds (token : Token) : OperatorScan → OperatorScan → Prop
  | operand {output waiting : List Token} (role : token.role = .operand) :
      Proceeds token ⟨output, waiting, true⟩ ⟨token :: output, waiting, false⟩
  | opening {output waiting : List Token} (role : token.role = .opening) :
      Proceeds token ⟨output, waiting, true⟩ ⟨output, token :: waiting, true⟩
  | closing {output inner outer : List Token} {parenthesis : Token}
      (opens : parenthesis.opensGroup = true)
      (within : ∀ operator ∈ inner, operator.opensGroup = false) :
      Proceeds token ⟨output, inner ++ parenthesis :: outer, false⟩
        ⟨inner.reverse ++ output, outer, false⟩
  | binary {output sent kept : List Token} (role : token.role = .binary)
      (goBefore : ∀ operator ∈ sent, operator.goesBefore token = true) :
      Proceeds token ⟨output, sent ++ kept, false⟩ ⟨sent.reverse ++ output, token :: kept, true⟩

/-- A token only moves the tokens of a pass around, or joins them. -/
theorem Proceeds.mem_of_mem {token other : Token} {scan after : OperatorScan}
    (proceeds : Proceeds token scan after) (member : other ∈ after.output ++ after.waiting) :
    other = token ∨ other ∈ scan.output ++ scan.waiting := by
  cases proceeds <;>
    simp only [List.mem_append, List.mem_reverse, List.mem_cons] at member ⊢ <;> tauto

/-- A closing parenthesis finds the innermost group that is open. -/
theorem exists_innermost {waiting : List Token} (open_ : waiting.any Token.opensGroup = true) :
    ∃ inner parenthesis outer, waiting = inner ++ parenthesis :: outer ∧
      parenthesis.opensGroup = true ∧ ∀ operator ∈ inner, operator.opensGroup = false := by
  induction waiting with
  | nil => simp at open_
  | cons token rest ih =>
      by_cases opens : token.opensGroup = true
      · exact ⟨[], token, rest, rfl, opens, by simp⟩
      · have openRest : rest.any Token.opensGroup = true := by
          simpa [Bool.eq_false_of_not_eq_true opens] using open_
        obtain ⟨inner, parenthesis, outer, rfl, isOpening, within⟩ := ih openRest
        refine ⟨token :: inner, parenthesis, outer, rfl, isOpening, ?_⟩
        exact List.forall_mem_cons.mpr ⟨Bool.eq_false_of_not_eq_true opens, within⟩

theorem proceeds_of_step {scan after : OperatorScan} {token : Token}
    (steps : scan.step token = .proceed after) : Proceeds token scan after := by
  rcases scan with ⟨output, waiting, needsOperand⟩
  unfold step at steps
  cases role : token.role with
  | outside => simp [role] at steps
  | operand =>
      cases needsOperand with
      | false => simp [role] at steps
      | true =>
          simp only [role, if_true, ScanStep.proceed.injEq] at steps
          exact steps ▸ .operand role
  | opening =>
      cases needsOperand with
      | false => simp [role] at steps
      | true =>
          simp only [role, if_true, ScanStep.proceed.injEq] at steps
          exact steps ▸ .opening role
  | closing =>
      by_cases open_ : waiting.any Token.opensGroup = true
      · cases needsOperand with
        | true => simp [role, open_] at steps
        | false =>
            obtain ⟨inner, parenthesis, outer, rfl, opens, within⟩ := exists_innermost open_
            have within' : ∀ operator ∈ inner, (!operator.opensGroup) = true := by
              simpa using within
            simp [role, closeGroup, opens, List.takeWhile_append_of_pos within',
              List.dropWhile_append_of_pos within'] at steps
            exact steps ▸ .closing opens within
      · simp [role, open_] at steps
  | binary =>
      cases needsOperand with
      | true => simp [role] at steps
      | false =>
          simp only [role, Bool.false_eq_true, if_false, ScanStep.proceed.injEq] at steps
          have sent : ∀ operator ∈ waiting.takeWhile (·.goesBefore token),
              operator.goesBefore token = true := by
            intro operator member
            exact List.mem_takeWhile_imp (p := fun other : Token => other.goesBefore token) member
          have proceeds := @Proceeds.binary token output _
            (waiting.dropWhile (·.goesBefore token)) role sent
          rw [List.takeWhile_append_dropWhile] at proceeds
          exact steps ▸ proceeds

/-- A token at which a pass fails stands where an operand should begin. -/
theorem eq_of_step_eq_fail {scan : OperatorScan} {token : Token} {error : SyntaxError}
    (fails : scan.step token = .fail error) : error = .atToken .expression token := by
  unfold step at fails
  split at fails
  next => cases fails
  next => split_ifs at fails
  next => split_ifs at fails
  next =>
    split_ifs at fails
    cases fails
    rfl
  next =>
    split_ifs at fails
    cases fails
    rfl

/-- What every token of a list preserves when it moves a pass on, a run over the list
preserves. -/
theorem run_preserves {Holds : OperatorScan → Prop} {endOffset position : Nat}
    {tokens : List Token} {scan after : OperatorScan} {next : Cursor}
    (preserved : ∀ token ∈ tokens, ∀ {before behind}, Proceeds token before behind →
      Holds before → Holds behind)
    (runs : run endOffset tokens position scan = .ok after next) (holds : Holds scan) :
    Holds after := by
  induction tokens generalizing position scan with
  | nil =>
      cases runs
      exact holds
  | cons token tokens ih =>
      rw [run] at runs
      cases steps : scan.step token with
      | stop =>
          rw [steps] at runs
          cases runs
          exact holds
      | fail error =>
          rw [steps] at runs
          cases runs
      | proceed middle =>
          rw [steps] at runs
          have first := preserved token List.mem_cons_self (proceeds_of_step steps) holds
          exact ih (fun other member => preserved other (List.mem_cons_of_mem token member))
            runs first

/-! ## The end of a pass -/

theorem finish_eq_ok_iff {scan : OperatorScan} {following : Token} {sequence : List Token} :
    scan.finish following = .ok sequence ↔
      scan.needsOperand = false ∧ (∀ operator ∈ scan.waiting, operator.opensGroup = false) ∧
        scan.output.reverse ++ scan.waiting = sequence := by
  unfold finish
  cases scan.needsOperand with
  | true => simp
  | false =>
      cases found : scan.waiting.find? Token.opensGroup with
      | some parenthesis =>
          have opens := List.find?_some found
          have isWaiting := List.mem_of_find?_eq_some found
          simp only [Bool.false_eq_true, if_false, reduceCtorEq, true_and, false_iff]
          rintro ⟨noGroup, _⟩
          cases opens.symm.trans (noGroup parenthesis isWaiting)
      | none => simpa using fun _ => List.find?_eq_none.mp found

end OperatorScan

end WhileLang
