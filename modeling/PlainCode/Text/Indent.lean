import PlainCode.Text.Blank
import PlainCode.Text.Split

/-!
# Indentation

Indenting a text puts the same margin in front of each of its lines. Blank lines stay as they are.
-/

namespace PlainCode.Text

/-- The margin that is `unit` written `level` times; there is none below the first level. -/
def margin (level : Int) (unit : String) : String :=
  String.join (List.replicate level.toNat unit)

/-- A line behind a margin, unless it is blank. -/
def behind (margin line : String) : String := if blank line then line else margin ++ line

/-- A text with `level` units of margin in front of each line that is not blank. -/
def indent (code : String) (level : Int) (unit : String) : String :=
  unlines ((lines code).map (behind (margin level unit)))

end PlainCode.Text
