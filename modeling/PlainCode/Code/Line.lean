import PlainCode.Text.Indent

/-!
# Lines of code

Code is a list of lines, each with the number of blocks it is in. Only when the code is written out
does that number become a margin, of four spaces for each block. Blank lines have no margin.
-/

namespace PlainCode.Code

/-- A line of code inside `depth` blocks. -/
structure Line where
  depth : Nat
  text : String
  deriving DecidableEq, Repr

/-- The margin of one block. -/
def unit : String := "    "

/-- A line with its margin. -/
def Line.render (line : Line) : String := Text.behind (Text.margin line.depth unit) line.text

/-- A line that is in some more blocks. -/
def Line.deepen (levels : Nat) (line : Line) : Line := { line with depth := line.depth + levels }

/-- Lines that are in some more blocks. -/
def deepen (levels : Nat) (ls : List Line) : List Line := ls.map (Line.deepen levels)

/-- A text as lines that are in no block. -/
def ofText (text : String) : List Line := (Text.lines text).map (⟨0, ·⟩)

/-- A line without text. -/
def emptyLine : Line := ⟨0, ""⟩

/-- Code as text. -/
def render (ls : List Line) : String := Text.unlines (ls.map Line.render)

end PlainCode.Code
