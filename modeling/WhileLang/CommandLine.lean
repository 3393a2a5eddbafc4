import WhileLang.Diagnostic

/-!
# The command line

The actions `tokenize`, `parse` and `run` show the tokens of a file, show its
statements, or run it.  The arguments are understood before any file is
looked at.  What the program answers is a function of the arguments and of what
the file holds.
-/

namespace WhileLang.CommandLine

/-- What can be done with a file. -/
inductive Action where
  | tokenize
  | parse
  | run
deriving DecidableEq

/-- The action of a name. -/
def Action.ofName? : String → Option Action
  | "tokenize" => some tokenize
  | "parse" => some parse
  | "run" => some run
  | _ => none

/-- What the arguments ask for. -/
inductive Request where
  | version
  | misuse (reason : String)
  | process (action : Action) (path : String)
deriving DecidableEq

/-- Whether an argument is written as an option. -/
def isOption (argument : String) : Bool :=
  argument.startsWith "-" && argument != "-"

/-- Reads the arguments after an action: one path, and no options.  After `--` every
argument is a path. -/
def fileRequest (action : Action) : Bool → Option String → List String → Request
  | _, none, [] => .misuse "a file is required"
  | _, some path, [] => .process action path
  | onlyPaths, path?, argument :: rest =>
      if !onlyPaths && argument = "--" then
        fileRequest action true path? rest
      else if !onlyPaths && isOption argument then
        .misuse ("unexpected option " ++ argument)
      else if path?.isSome then
        .misuse ("unexpected argument " ++ argument)
      else if argument = "" then
        .misuse "the path of the file is empty"
      else
        fileRequest action onlyPaths (some argument) rest

/-- Reads the arguments. -/
def Request.ofArguments : List String → Request
  | [] => .misuse "an action is required"
  | argument :: rest =>
      if argument = "--version" || argument.startsWith "-V" then
        .version
      else
        match Action.ofName? argument with
        | some action => fileRequest action false none rest
        | none => .misuse ("unknown action " ++ argument)

/-- What a run of the program leaves behind. -/
structure Response where
  code : Nat
  stdout : String
  stderr : String
deriving DecidableEq

/-- A bound on the steps of a program that no machine will reach. -/
def stepBound : Nat :=
  Nat.pow 2 62

/-- Texts on lines of their own. -/
def lines (texts : List String) : String :=
  String.join (texts.map (· ++ "\n"))

/-- The answer to a fault, after some output.  A program that cannot be read exits
with 65, and one that fails with 70. -/
def faultResponse (stdout : String) (fault : Fault) : Response :=
  { code := match fault with
      | .runtime _ => 70
      | _ => 65
    stdout
    stderr := lines [fault.title ++ ": " ++ fault.diagnostic.message] }

/-- The answer to running a program. -/
def runResponse (program : Block) : Response :=
  match runProgram stepBound program { environment := .empty, output := .unlimited } with
  | .finished machine => { code := 0, stdout := machine.output.written, stderr := "" }
  | .failed error machine => faultResponse machine.output.written (.runtime error)
  | .outOfSteps machine =>
      { code := 1
        stdout := machine.output.written
        stderr := lines ["the program does not end"] }

/-- The answer to an action on a source. -/
def Action.respond (action : Action) (source : Source) : Response :=
  match action with
  | .tokenize =>
      match Grammar.standard.tokenize source.text with
      | .error error => faultResponse "" (.lexical error)
      | .ok tokens => { code := 0, stdout := lines (tokens.map Token.render), stderr := "" }
  | .parse =>
      match source.parse with
      | .error fault => faultResponse "" fault
      | .ok program => { code := 0, stdout := lines (program.map Stmt.render), stderr := "" }
  | .run =>
      match source.parse with
      | .error fault => faultResponse "" fault
      | .ok program => runResponse program

/-- The answer to a request, given what the file at each path holds.  A file that is
missing or is not UTF-8 exits with 1, and arguments that make no sense with 2. -/
def Request.respond (request : Request) (contents? : String → Option ByteArray) : Response :=
  match request with
  | .version => { code := 0, stdout := lines ["vsi 0.1.0"], stderr := "" }
  | .misuse reason => { code := 2, stdout := "", stderr := lines ["error: " ++ reason] }
  | .process action path =>
      match (contents? path).bind String.fromUTF8? with
      | none =>
          { code := 1, stdout := "", stderr := lines ["Error: reading `" ++ path ++ "` failed"] }
      | some text => action.respond (Source.ofText (some path) text)

end WhileLang.CommandLine
