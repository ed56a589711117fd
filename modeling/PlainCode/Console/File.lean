import PlainCode.Convert.Session

/-!
# Converting a file

The program of a file goes to the standard output, what there is to say about it to the error
output. The exit code tells whether there is a program.
-/

namespace PlainCode.Console

open PlainCode.Convert (Session Traced ProgramOutcome)

/-- What a run of the command line leaves behind. -/
structure Output where
  exit : Nat
  stdout : String := ""
  stderr : String := ""
  deriving DecidableEq, Repr

/-- What is found at a path. -/
inductive Entry where
  | missing
  | directory
  | file (content : ByteArray)

/-- Why a run ends without an exit code. -/
inductive Failure where
  | missing (path : String)
  | directory (path : String)
  | notText
  | conversion (cause : Convert.Failure)
  deriving DecidableEq

/-- The wording of a failure. -/
def Failure.message : Failure → String
  | .missing path => "[Errno 2] No such file or directory: " ++ Text.quoted path
  | .directory path => "[Errno 21] Is a directory: " ++ Text.quoted path
  | .notText => "the file is not UTF-8 text"
  | .conversion cause => cause.message

/-- The text of a file, its lines ended by newlines alone. -/
def textOf (path : String) : Entry → Except Failure String
  | .missing => .error (.missing path)
  | .directory => .error (.directory path)
  | .file content =>
    match String.fromUTF8? content with
    | none => .error .notText
    | some text => .ok (String.ofList (Text.plainNewlines text.toList))

/-- The lines of the error output about a program: errors first, then warnings. -/
def complaints (o : ProgramOutcome) : List String :=
  o.errors.map (fun d => "❌ Line " ++ d.lineText ++ ": " ++ d.message.shown) ++
    o.warnings.map (fun d => "⚠ Line " ++ d.lineText ++ ": " ++ d.message.shown)

/-- Converts the text of a file. -/
def convertFile (s : Session) (target : Target) (text : String) : Except Failure Output :=
  let (result, written) := (Traced.program (.str text) (.str target.name)).run s []
  match result with
  | .error cause => .error (.conversion cause)
  | .ok outcome =>
    let stderr := printed (complaints outcome)
    match outcome.result with
    | none => .ok ⟨1, printed written, stderr⟩
    | some result => .ok ⟨0, printed written ++ result.code ++ "\n", stderr⟩

end PlainCode.Console
