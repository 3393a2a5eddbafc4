import WhileLang.Parsing.Cursor

/-!
# Parsers on a cursor

A parser is a function of the cursor.  The laws here say what the ways of putting
parsers together do on one cursor, so that no proof about a parser has to look
inside the monad.
-/

namespace WhileLang.Parser

variable {α β : Type} (cursor : Cursor)

@[simp]
theorem pure_apply (result : α) : (pure result : Parser α) cursor = .ok result cursor :=
  rfl

@[simp]
theorem throw_apply (error : SyntaxError) :
    (throw error : Parser α) cursor = .error error cursor :=
  rfl

@[simp]
theorem bind_apply (parser : Parser α) (next : α → Parser β) :
    (parser >>= next) cursor =
      match parser cursor with
      | .ok result rest => next result rest
      | .error error rest => .error error rest := by
  change EStateM.bind parser next cursor = _
  unfold EStateM.bind
  cases parser cursor <;> rfl

@[simp]
theorem map_apply (f : α → β) (parser : Parser α) :
    (f <$> parser) cursor =
      match parser cursor with
      | .ok result rest => .ok (f result) rest
      | .error error rest => .error error rest := by
  change EStateM.map f parser cursor = _
  unfold EStateM.map
  cases parser cursor <;> rfl

@[simp]
theorem ofExcept_apply (outcome : Except SyntaxError α) :
    (MonadExcept.ofExcept outcome : Parser α) cursor =
      match outcome with
      | .ok result => .ok result cursor
      | .error error => .error error cursor := by
  cases outcome <;> rfl

@[simp]
theorem peek_apply : peek cursor = .ok cursor.current cursor :=
  rfl

@[simp]
theorem skip_apply : skip cursor = .ok () cursor.advance :=
  rfl

@[simp]
theorem sees_apply (terminal : Terminal) :
    sees terminal cursor = .ok (terminal.accepts cursor.current) cursor :=
  rfl

@[simp]
theorem ite_apply (condition : Prop) [Decidable condition] (first second : Parser α) :
    (if condition then first else second : Parser α) cursor =
      if condition then first cursor else second cursor := by
  split <;> rfl

theorem expect_apply (terminal : Terminal) :
    expect terminal cursor =
      if terminal.accepts cursor.current then
        .ok cursor.current cursor.advance
      else
        .error (.atToken (.terminal terminal) cursor.current) cursor :=
  rfl

/-! ## Successes and failures -/

theorem bind_eq_ok_iff {parser : Parser α} {next : α → Parser β} {cursor last : Cursor}
    {result : β} :
    (parser >>= next) cursor = .ok result last ↔
      ∃ value middle, parser cursor = .ok value middle ∧ next value middle = .ok result last := by
  rw [bind_apply]
  cases parser cursor with
  | ok value middle => simp [and_assoc]
  | error error middle => simp

theorem bind_eq_error_iff {parser : Parser α} {next : α → Parser β} {cursor last : Cursor}
    {error : SyntaxError} :
    (parser >>= next) cursor = .error error last ↔
      parser cursor = .error error last ∨
        ∃ value middle, parser cursor = .ok value middle ∧
          next value middle = .error error last := by
  rw [bind_apply]
  cases parser cursor with
  | ok value middle => simp [and_assoc]
  | error error middle => simp

theorem expect_eq_ok_iff {terminal : Terminal} {cursor next : Cursor} {token : Token} :
    expect terminal cursor = .ok token next ↔
      terminal.accepts cursor.current ∧ cursor.current = token ∧ cursor.advance = next := by
  rw [expect_apply]
  split <;> simp [*]

theorem expect_eq_error_iff {terminal : Terminal} {cursor next : Cursor} {error : SyntaxError} :
    expect terminal cursor = .error error next ↔
      terminal.accepts cursor.current = false ∧
        SyntaxError.atToken (.terminal terminal) cursor.current = error ∧ cursor = next := by
  rw [expect_apply]
  split <;> simp [*]

end WhileLang.Parser
