import WhileLang.Diagnostic

/-!
# Moving tokens and faults

When a text becomes a part of another one, its tokens and its faults are found at other
places and are the same in every other respect.  A function on byte offsets says where
they move to; here it acts on everything that has a place.
-/

namespace WhileLang

variable (move : Nat → Nat)

/-- The stretch of the same length at the offset that a move gives. -/
def Span.relocate (span : Span) : Span :=
  { span with offset := move span.offset }

/-! ## Tokens -/

namespace Token

/-- The same token at another place. -/
def relocate (token : Token) : Token :=
  { token with span := token.span.relocate move }

variable (token : Token)

@[simp]
theorem relocate_value : (token.relocate move).value = token.value :=
  rfl

@[simp]
theorem relocate_toTokenClass : (token.relocate move).toTokenClass = token.toTokenClass :=
  rfl

@[simp]
theorem relocate_span : (token.relocate move).span = token.span.relocate move :=
  rfl

@[simp]
theorem relocate_text? : (token.relocate move).text? = token.text? :=
  rfl

@[simp]
theorem relocate_isOperator : (token.relocate move).isOperator = token.isOperator :=
  rfl

end Token

@[simp]
theorem Terminal.accepts_relocate (terminal : Terminal) (token : Token) :
    terminal.accepts (token.relocate move) = terminal.accepts token := by
  cases terminal <;> rfl

/-! ## Faults -/

/-- The same lexical error at another place. -/
def LexError.relocate : LexError → LexError
  | .invalidCharacter character span => .invalidCharacter character (span.relocate move)
  | .invalidInteger literal reason span => .invalidInteger literal reason (span.relocate move)
  | .invalidFloat literal reason span => .invalidFloat literal reason (span.relocate move)

/-- The same error of syntax at another place. -/
def SyntaxError.relocate : SyntaxError → SyntaxError
  | .expected wanted found span => .expected wanted found (span.relocate move)
  | .invalidOperator operator span => .invalidOperator operator (span.relocate move)
  | .unbalancedParenthesis span => .unbalancedParenthesis (span.relocate move)

/-- The same fault at another place.  Faults at run time have none. -/
def Fault.relocate : Fault → Fault
  | .lexical error => .lexical (error.relocate move)
  | .syntactic error => .syntactic (error.relocate move)
  | .runtime error => .runtime error

/-- The same report with its labels at other places. -/
def Diagnostic.relocate (diagnostic : Diagnostic) : Diagnostic :=
  { diagnostic with
    labels := diagnostic.labels.map fun label => ⟨label.text, label.span.relocate move⟩ }

namespace Fault

/-- A fault that has moved is reported as before, but for the places of the labels. -/
@[simp]
theorem diagnostic_relocate (fault : Fault) :
    (fault.relocate move).diagnostic = fault.diagnostic.relocate move := by
  cases fault with
  | lexical error => cases error <;> rfl
  | syntactic error => cases error <;> rfl
  | runtime error => cases error <;> rfl

@[simp]
theorem title_relocate (fault : Fault) : (fault.relocate move).title = fault.title := by
  cases fault <;> rfl

@[simp]
theorem span?_relocate (fault : Fault) :
    (fault.relocate move).span? = fault.span?.map (Span.relocate move) := by
  cases fault with
  | lexical error => cases error <;> rfl
  | syntactic error => cases error <;> rfl
  | runtime error => rfl

end Fault

end WhileLang
