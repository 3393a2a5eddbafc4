import WhileLang.Semantics.Error
import WhileLang.Source

/-!
# Output

Printed text goes to an output that may take only so many bytes.  Of a text that
does not fit, the beginning that does is still taken.
-/

namespace WhileLang

/-- A destination of printed text, with what it has taken so far. -/
structure Output where
  limit? : Option Nat
  flushFails : Bool
  written : String

/-- An output that takes everything. -/
def Output.unlimited : Output :=
  { limit? := none, flushFails := false, written := "" }

/-- The longest beginning of a text that fits into a number of bytes. -/
def takeBytes : Nat → List Char → List Char
  | _, [] => []
  | room, c :: rest => if c.utf8Size ≤ room then c :: takeBytes (room - c.utf8Size) rest else []

theorem takeBytes_prefix (room : Nat) (text : List Char) : takeBytes room text <+: text := by
  induction text generalizing room with
  | nil => exact List.prefix_refl []
  | cons c rest ih =>
      simp only [takeBytes]
      split
      · exact List.cons_prefix_cons.mpr ⟨rfl, ih _⟩
      · exact List.nil_prefix

namespace Output

/-- Adds a text to what was taken. -/
def append (output : Output) (text : String) : Output :=
  { output with written := output.written ++ text }

/-- Takes a text, as far as it fits. -/
def write (output : Output) (text : String) : Except OutputFault Unit × Output :=
  match output.limit? with
  | none => (.ok (), output.append text)
  | some limit =>
      let room := limit - output.written.utf8ByteSize
      if text.utf8ByteSize ≤ room then
        (.ok (), output.append text)
      else
        (.error .limitReached, output.append (String.ofList (takeBytes room text.toList)))

/-- Whether a text fits or not, a beginning of it is taken. -/
theorem exists_write_eq (output : Output) (text : String) :
    ∃ kept missing, text = kept ++ missing ∧ (output.write text).2 = output.append kept := by
  have whole : ∃ kept missing, text = kept ++ missing ∧ output.append text = output.append kept :=
    ⟨text, "", String.append_empty.symm, rfl⟩
  unfold write
  cases output.limit? with
  | none => exact whole
  | some limit =>
      dsimp only
      split
      · exact whole
      · obtain ⟨missing, parts⟩ :=
          takeBytes_prefix (limit - output.written.utf8ByteSize) text.toList
        refine ⟨_, String.ofList missing, ?_, rfl⟩
        rw [← String.ofList_append, parts, String.ofList_toList]

/-- Completes the output. -/
def flush (output : Output) : Except OutputFault Unit :=
  if output.flushFails then .error .flushFailed else .ok ()

end Output

end WhileLang
