/-!
# Source texts and places in them

A program arrives as a text with a name.  Every place in it is given by byte
offsets of its UTF-8 form, because that is the unit in which diagnostics are
reported, while the text itself is handled as a list of characters.
-/

namespace WhileLang

/-- The number of bytes that a text occupies in UTF-8. -/
def utf8Length (text : List Char) : Nat :=
  text.foldr (fun c size => c.utf8Size + size) 0

@[simp]
theorem utf8Length_nil : utf8Length [] = 0 :=
  rfl

@[simp]
theorem utf8Length_cons (c : Char) (text : List Char) :
    utf8Length (c :: text) = c.utf8Size + utf8Length text :=
  rfl

@[simp]
theorem utf8Length_append (first second : List Char) :
    utf8Length (first ++ second) = utf8Length first + utf8Length second := by
  induction first with
  | nil => simp
  | cons c rest ih => simp [ih, Nat.add_assoc]

theorem utf8Length_eq_utf8ByteSize_ofList (text : List Char) :
    utf8Length text = (String.ofList text).utf8ByteSize := by
  induction text with
  | nil => simp
  | cons c rest ih =>
      have head : String.ofList (c :: rest) = String.singleton c ++ String.ofList rest := by
        rw [String.singleton_eq_ofList, ← String.ofList_append]
        rfl
      rw [utf8Length_cons, ih, head, String.utf8ByteSize_append, String.utf8ByteSize_singleton]

/-- The length of the characters of a string is its size in memory. -/
theorem utf8Length_toList (text : String) : utf8Length text.toList = text.utf8ByteSize := by
  rw [utf8Length_eq_utf8ByteSize_ofList, String.ofList_toList]

/-- A stretch of a source text, in bytes. -/
structure Span where
  offset : Nat
  length : Nat
deriving DecidableEq

/-- The first byte offset after the stretch. -/
def Span.stop (span : Span) : Nat :=
  span.offset + span.length

/-- A program text together with the name under which it is reported. -/
structure Source where
  name : String
  text : String

/-- A text without a name of its own is reported as `<input>`. -/
def Source.ofText (name? : Option String) (text : String) : Source :=
  { name := name?.getD "<input>", text }

/-- The number of bytes in the source. -/
def Source.size (source : Source) : Nat :=
  utf8Length source.text.toList

/-- The number of newlines that begin before a byte offset. -/
def newlinesBefore : Nat → List Char → Nat
  | 0, _ => 0
  | _ + 1, [] => 0
  | offset + 1, c :: rest =>
      (if c = '\n' then 1 else 0) + newlinesBefore (offset + 1 - c.utf8Size) rest

/-- The number of the line, counted from one, that holds a byte offset.  An
offset past the end belongs to the last line. -/
def Source.lineAt (source : Source) (offset : Nat) : Nat :=
  1 + newlinesBefore offset source.text.toList

end WhileLang
