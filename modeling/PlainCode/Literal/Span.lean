/-!
# Literals inside a text

A text is cut into stretches: literals, and the plain text before, between and after them. Which
literals there are is up to a recogniser that looks at one place of the text at a time. The first
place where it finds a literal wins, and the search goes on behind that literal, so literals never
overlap and nothing of the text is lost.
-/

namespace PlainCode.Literal

/-- A stretch of text that is a literal as a whole or has none in it. -/
structure Span where
  literal : Bool
  text : List Char
  deriving DecidableEq, Repr

/-- A recogniser of literals: the literal that a text begins with, if any, given the character in
front of it. -/
abbrev Recogniser := Option Char → List Char → Option (List Char)

/-- Puts a character in front of plain text. -/
def extendPlain (c : Char) : List Span → List Span
  | ⟨false, text⟩ :: spans => ⟨false, c :: text⟩ :: spans
  | spans => ⟨false, [c]⟩ :: spans

/-- The stretches of a text of which the first `skip` characters belong to a literal already
found. -/
def spansFrom (literal? : Recogniser) : Nat → Option Char → List Char → List Span
  | _, _, [] => [⟨false, []⟩]
  | skip + 1, _, c :: cs => spansFrom literal? skip (some c) cs
  | 0, before, c :: cs =>
    match literal? before (c :: cs) with
    | some text => ⟨false, []⟩ :: ⟨true, text⟩ :: spansFrom literal? (text.length - 1) (some c) cs
    | none => extendPlain c (spansFrom literal? 0 (some c) cs)

/-- The stretches of a text: plain text and literals in turn. -/
def spans (literal? : Recogniser) (cs : List Char) : List Span := spansFrom literal? 0 none cs

end PlainCode.Literal
