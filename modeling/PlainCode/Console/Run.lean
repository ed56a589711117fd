import PlainCode.Console.Arguments
import PlainCode.Console.Dialogue
import PlainCode.Console.File

/-!
# A run of the command line

The arguments decide: a language that is not known ends the run, a path converts the file there,
and without one there is a dialogue about the lines of the standard input.
-/

namespace PlainCode.Console

/-- What the arguments amount to. -/
inductive Task where
  /-- Nothing can be done, for a reason. -/
  | refuse (message : String)
  | file (debug : Bool) (target : Target) (path : String)
  | dialogue (start : Dialogue)
  deriving DecidableEq, Repr

/-- The task that arguments set. -/
def Task.ofArgs (args : List String) : Task :=
  let a := Arguments.read args
  match Target.ofText? a.language with
  | none => .refuse ("❌ ERROR: " ++ Target.unsupported (.str a.language))
  | some target =>
    match a.path with
    | some path => .file a.debug target path
    | none => .dialogue (Dialogue.start target a.debug)

/-- The output of a dialogue about the lines of the standard input. -/
def dialogueOutput (d : Dialogue) (stdin : String) : Except Failure Output :=
  match greeting d, d.transcript (Text.endedLines stdin) with
  | .ok hello, .ok text => .ok ⟨0, hello ++ text, ""⟩
  | .error e, _ => .error (.conversion e)
  | _, .error e => .error (.conversion e)

/-- A run of the command line, given what is found at each path and the standard input. -/
def run (args : List String) (entryAt : String → Entry) (stdin : String) :
    Except Failure Output :=
  match Task.ofArgs args with
  | .refuse message => .ok ⟨2, "", message ++ "\n"⟩
  | .file debug target path =>
    match textOf path (entryAt path) with
    | .error failure => .error failure
    | .ok text => convertFile ⟨debug⟩ target text
  | .dialogue d => dialogueOutput d stdin

end PlainCode.Console
