/-!
# Sample programs

Short programs in everyday words that show what can be converted.
-/

namespace PlainCode

/-- A program to show, with a title. -/
structure Sample where
  title : String
  code : String
  deriving DecidableEq, Repr

/-- The sample programs. -/
def samples : List Sample :=
  [{ title := "Hello World", code := "print \"Hello World\"" },
   { title := "Variables & Math"
     code := "create variable x value 10\ncreate variable y value 20\n" ++
       "add x and y store in result\nprint result" },
   { title := "If-Else Logic"
     code := "create variable age value 18\n" ++
       "if age greater than 17 then print \"Adult\" else print \"Minor\"" },
   { title := "While Loop"
     code := "create variable counter value 0\n" ++
       "while counter less than 5 do increment counter\nprint counter" },
   { title := "For Loop", code := "for i from 1 to 11 do print i" },
   { title := "Function", code := "define function greet do print \"Hello!\"\ncall greet" },
   { title := "List Operations"
     code := "create list numbers values 1 2 3 4 5\nappend 6 to numbers\nprint numbers" },
   { title := "Full Program"
     code := "comment A simple calculator\ncreate variable first value 15\n" ++
       "create variable second value 7\nadd first and second store in total\n" ++
       "subtract first and second store in diff\n" ++
       "multiply first and second store in prod\n" ++
       "print total\nprint diff\nprint prod" }]

end PlainCode
