/-!
# Leaves

The names, values and words that commands and diagnostics are made of. A leaf that is missing is
not the same as one that is empty: it has no text at all, and a text around it shows that.
-/

namespace PlainCode

/-- A text that may be missing. -/
abbrev Leaf := Option String

/-- A leaf inside another text. -/
def Leaf.shown : Leaf → String
  | none => "None"
  | some s => s

/-- Leaves in a row, which may be missing as a whole. -/
abbrev Leaves := Option (List Leaf)

/-- The leaves of a row; a missing row has none. -/
def Leaves.items : Leaves → List Leaf
  | none => []
  | some items => items

end PlainCode
