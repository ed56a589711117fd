import PlainCode.Text.Casing

/-!
# Small letters

Lowering replaces every letter by its small form. Two letters are special. The dotted capital I
becomes a plain i with a combining dot. The capital sigma has two small forms: the final one stands
at the end of a word, that is, after a letter with case and before none, where marks that do not
part letters are passed over on both sides.
-/

namespace PlainCode.Text

/-- The small form of a code point that lies in one of the runs, or the code point itself. -/
def smallCode : List CaseRun → Nat → Nat
  | [], n => n
  | run :: runs, n =>
    if n < run.first then n
    else if n ≤ run.last && (n - run.first) % run.step == 0 then run.small + (n - run.first)
    else smallCode runs n

/-- The small form of a character, wherever it stands. -/
def smallForm (c : Char) : List Char :=
  if c = 'İ' then ['i', '\u0307'] else [Char.ofNat (smallCode caseRuns c.toNat)]

/-- Whether a text goes on with a letter that has case, marks passed over. -/
def goesOnCased : List Char → Bool
  | [] => false
  | c :: cs => if isIgnorable c then goesOnCased cs else isCased c

/-- The small letters of a text, given whether a letter with case stands before it. -/
def lowerAfter (cased : Bool) : List Char → List Char
  | [] => []
  | c :: cs =>
    (if c = 'Σ' then [if cased && !goesOnCased cs then 'ς' else 'σ'] else smallForm c) ++
      lowerAfter (if isIgnorable c then cased else isCased c) cs

/-- The characters of a text in small letters. -/
def lowerChars (cs : List Char) : List Char := lowerAfter false cs

/-- A text in small letters. -/
def lower (s : String) : String := String.ofList (lowerChars s.toList)

end PlainCode.Text
