/-!
# Sets of characters as ranges of code points

A property of characters is a list of closed ranges of code points, ascending and apart from each
other. Looking a code point up stops at the first range that begins beyond it.
-/

namespace PlainCode.Text

/-- A set of code points, as closed ranges in ascending order. -/
abbrev Ranges := List (Nat × Nat)

/-- Whether a code point lies in one of the ranges. -/
def Ranges.has : Ranges → Nat → Bool
  | [], _ => false
  | (first, last) :: rest, n => if n < first then false else n ≤ last || Ranges.has rest n

end PlainCode.Text
