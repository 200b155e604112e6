import DottedQuery.Catalog.Decode
import DottedQuery.Gateway.Routes

/-!
# The program

Reads the arguments and the configuration, then answers requests from standard input, one on
each line: a method, a target and the body, with a blank between them. Each reply is one line as
well, its status and its body.
-/

namespace DottedQuery

namespace Program

open Gateway

/-- What is shown when help is asked for. -/
def usage : String :=
  "Options:\n" ++
  "  -l, --listen <LISTEN>  Address to listen on for HTTP requests\n" ++
  "  -c, --config <CONFIG>  Path to the search configuration (JSON)\n" ++
  "  -h, --help             Print help"

/-- The message for arguments that are refused. -/
def argumentMessage : ArgumentError → String
  | .unknownArgument => "unexpected argument"
  | .invalidValue => "a value is required"
  | .argumentConflict => "an option cannot be used multiple times"
  | .displayHelp => usage
  | .tooManyValues => "unexpected value"

/-- A line of input as method, target and body. -/
def requestOfLine (line : String) : String × String × String :=
  let cs := (Text.trim line).toList
  let rest := (cs.dropWhile fun c => c ≠ ' ').drop 1
  (String.ofList (cs.takeWhile fun c => c ≠ ' '), String.ofList (rest.takeWhile fun c => c ≠ ' '),
    String.ofList ((rest.dropWhile fun c => c ≠ ' ').drop 1))

/-- The line of a reply. -/
def lineOfReply (r : Reply) : String := Decimal.natText r.status ++ " " ++ r.body

/-- The text of a file, if it can be read. -/
def readText? (path : String) : IO (Option String) := do
  try
    return some (← IO.FS.readFile path)
  catch _ => return none

/-- Answers requests until the input ends. -/
partial def serve (service : Service) (input output : IO.FS.Stream) : IO Unit := do
  let line ← input.getLine
  if line.isEmpty then return
  let (method, target, body) := requestOfLine line
  output.putStrLn (lineOfReply (service.answer method target body))
  output.flush
  serve service input output

/-- Runs the program with its arguments. -/
def run (arguments : List String) : IO UInt32 := do
  match Settings.ofArguments arguments with
  | .error .displayHelp =>
    IO.println usage
    return 0
  | .error e =>
    IO.eprintln (argumentMessage e)
    return 2
  | .ok settings =>
    let text ← readText? settings.config
    match Configuration.load (fun _ => text) settings.config >>= Searcher.ofConfiguration with
    | .error e =>
      IO.eprintln e.message
      return 1
    | .ok searcher =>
      serve ⟨searcher, settings.listen⟩ (← IO.getStdin) (← IO.getStdout)
      return 0

end Program

end DottedQuery

/-- Runs the program. -/
def main (arguments : List String) : IO UInt32 := DottedQuery.Program.run arguments
