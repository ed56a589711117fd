import PlainCode.Code.Statement

/-!
# Programs

A program is made from a list of commands: first the functions, then everything else, each in their
order. Java and C++ need more around them: the imports that the commands call for at any depth, and
a main function that holds everything but the functions.
-/

namespace PlainCode.Code

open PlainCode.Literal (kindOf)

/-- All commands of a program, at any depth. -/
def everyCommand (commands : List Command) : List Command := commands.flatMap Command.preorder

/-- Whether a command reads a variable. -/
def isReading : Command → Bool
  | .read _ => true
  | _ => false

/-- Whether a command prints. -/
def isPrinting : Command → Bool
  | .print _ => true
  | _ => false

/-- Whether a command makes a list. -/
def isListCreation : Command → Bool
  | .createList .. => true
  | _ => false

/-- Whether a command makes a list that is not empty. -/
def isFilledList : Command → Bool
  | .createList _ vs => !vs.items.isEmpty
  | _ => false

/-- Whether a command puts something at the end of a list. -/
def isAppending : Command → Bool
  | .append .. => true
  | _ => false

/-- Whether a value is a text in quotes. -/
def isText (value : Leaf) : Bool := kindOf value == .string

/-- Whether a command stores a text in quotes. -/
def storesText : Command → Bool
  | .create _ value => isText value
  | .assign _ value => isText value
  | .createList _ vs => vs.items.any isText
  | _ => false

/-- The imports of a Java program. -/
def javaImports (commands : List Command) : List String :=
  let all := everyCommand commands
  (if all.any isReading then ["import java.util.Scanner;"] else []) ++
    (if all.any isListCreation then ["import java.util.ArrayList;"] else []) ++
    (if all.any isFilledList then ["import java.util.Arrays;"] else [])

/-- The includes of a C++ program. -/
def cppIncludes (commands : List Command) : List String :=
  let all := everyCommand commands
  (if all.any fun c => isPrinting c || isReading c then ["#include <iostream>"] else []) ++
    (if all.any fun c => isListCreation c || isAppending c then ["#include <vector>"] else []) ++
    (if all.any storesText then ["#include <string>"] else [])

/-- The lines in front of a program, with an empty line behind them if there are any. -/
def prologue (texts : List String) : List Line :=
  if texts.isEmpty then [] else texts.map (⟨0, ·⟩) ++ [emptyLine]

/-- The lines of functions, each with an empty line behind it. -/
def functionLines (t : Target) (depth : Nat) (functions : List Command) : List Line :=
  functions.flatMap fun f => deepen depth (linesOf t f) ++ [emptyLine]

/-- The lines of commands. -/
def statementLines (t : Target) (depth : Nat) (statements : List Command) : List Line :=
  statements.flatMap fun s => deepen depth (linesOf t s)

/-- Lists of lines with an empty line between one and the next. -/
def separated : List (List Line) → List Line
  | [] => []
  | [ls] => ls
  | ls :: rest => ls ++ emptyLine :: separated rest

/-- The lines of a Python program: the functions and the rest, with empty lines between them. -/
def pythonProgram (functions statements : List Command) : List Line :=
  separated (functions.map (linesOf .python) ++
    if statements.isEmpty then [] else [statementLines .python 0 statements])

/-- The lines of a Java program: a class with the functions and a main function. -/
def javaProgram (commands functions statements : List Command) : List Line :=
  prologue (javaImports commands) ++ [⟨0, "public class Main \x7b"⟩] ++
    functionLines .java 1 functions ++
    [⟨1, "public static void main(String[] args) \x7b"⟩] ++
    (if (everyCommand commands).any isReading then
      [⟨2, "Scanner scanner = new Scanner(System.in);"⟩] else []) ++
    statementLines .java 2 statements ++ [⟨1, "\x7d"⟩, ⟨0, "\x7d"⟩]

/-- The lines of a C++ program: the functions and a main function. -/
def cppProgram (commands functions statements : List Command) : List Line :=
  prologue (cppIncludes commands) ++ functionLines .cpp 0 functions ++
    [⟨0, "int main() \x7b"⟩] ++ statementLines .cpp 1 statements ++
    [⟨1, "return 0;"⟩, ⟨0, "\x7d"⟩]

/-- The functions among commands. -/
def functionsOf (commands : List Command) : List Command := commands.filter Command.isFunction

/-- The commands that are no functions. -/
def statementsOf (commands : List Command) : List Command :=
  commands.filter fun c => !c.isFunction

/-- The lines of a program. Without commands there are none. -/
def programLines (t : Target) (commands : List Command) : List Line :=
  let present := commands.filter fun c => !c.isHole
  if present.isEmpty then []
  else
    let functions := functionsOf present
    let statements := statementsOf present
    match t with
    | .python => pythonProgram functions statements
    | .java => javaProgram present functions statements
    | .cpp => cppProgram present functions statements

/-- The code of a program. -/
def writeProgram (t : Target) (commands : List Command) : Except Error String :=
  match (functionsOf commands ++ statementsOf commands).findSome? unknownOperator? with
  | some operator => .error (.unknownOperator operator)
  | none => .ok (render (programLines t commands))

end PlainCode.Code
