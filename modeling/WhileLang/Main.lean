import WhileLang.CommandLine

/-!
# The executable
-/

open WhileLang.CommandLine

/-- What the file at a path holds, if it can be read. -/
def contents? (path : String) : IO (Option ByteArray) :=
  try
    return some (← IO.FS.readBinFile path)
  catch _ =>
    return none

/-- Answers the arguments on the standard streams. -/
def main (arguments : List String) : IO UInt32 := do
  let request := Request.ofArguments arguments
  let held? ← match request with
    | .process _ path => contents? path
    | _ => pure none
  let response := request.respond fun _ => held?
  IO.print response.stdout
  IO.eprint response.stderr
  return response.code.toUInt32
