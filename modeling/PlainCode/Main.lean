import PlainCode.Console.Run

/-!
# The command line

Reads files and the lines of the standard input, and prints what the console answers to them.
-/

namespace PlainCode.Main

open PlainCode.Console

/-- What is found at a path. -/
def entryAt (path : String) : IO Entry := do
  try
    return .file (← IO.FS.readBinFile path)
  catch
    | .noFileOrDirectory .. => return .missing
    | .inappropriateType .. => return .directory
    | e => throw e

/-- Prints what a run leaves behind, and gives its exit code. -/
def finish (result : Except Failure Output) : IO UInt32 := do
  match result with
  | .error failure =>
    IO.eprintln failure.message
    return 1
  | .ok output =>
    IO.print output.stdout
    IO.eprint output.stderr
    return output.exit.toUInt32

/-- Answers lines, those that are waiting and then those of the standard input, until there are no
more, or one ends the dialogue. What is read up to a newline may be several lines, since a carriage
return ends one too. -/
partial def converse (d : Dialogue) (waiting : List String) : IO UInt32 := do
  IO.print d.prompt
  (← IO.getStdout).flush
  let lines ← if waiting.isEmpty then Text.endedLines <$> (← IO.getStdin).getLine else pure waiting
  match lines with
  | [] => return 0
  | line :: waiting =>
    match d.turn line with
    | .error e => finish (.error (.conversion e))
    | .ok turn =>
      IO.print turn.output
      if turn.finished then return 0 else converse turn.state waiting

end PlainCode.Main

open PlainCode PlainCode.Console PlainCode.Main in
/-- Does what the arguments ask for. -/
def main (args : List String) : IO UInt32 := do
  match Task.ofArgs args with
  | .refuse _ => finish (run args (fun _ => .missing) "")
  | .file _ _ path =>
    let entry ← entryAt path
    finish (run args (fun _ => entry) "")
  | .dialogue d =>
    match greeting d with
    | .error e => finish (.error (.conversion e))
    | .ok hello =>
      IO.print hello
      converse d []
