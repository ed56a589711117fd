/-!
# Encodings

Bytes stand for text in one of three widths, the wider two in either order of bytes. A JSON text
begins with a character of one byte, so the zeros among its first bytes tell which encoding it is
in.
-/

namespace PlainCode.Text

/-- The ways in which bytes stand for text. In the wider ones the first byte of a unit is its
highest (`.big`) or its lowest (`.little`). -/
inductive Encoding where
  | utf8
  | utf16Big
  | utf16Little
  | utf32Big
  | utf32Little
  deriving DecidableEq, Repr

/-- The encoding that bytes are in if their first character takes one byte. -/
def Encoding.detect : List UInt8 → Encoding
  | a :: b :: c :: d :: _ =>
    if a = 0 then (if b = 0 then .utf32Big else .utf16Big)
    else if b = 0 then (if c = 0 ∧ d = 0 then .utf32Little else .utf16Little)
    else .utf8
  | [a, b] => if a = 0 then .utf16Big else if b = 0 then .utf16Little else .utf8
  | _ => .utf8

/-- The number that bytes stand for, the highest first. -/
def ofBytes (bytes : List UInt8) : Nat := bytes.foldl (fun n b => 256 * n + b.toNat) 0

/-- The units of two bytes each, or nothing if a byte is left over. -/
def pairs (big : Bool) : List UInt8 → Option (List Nat)
  | [] => some []
  | a :: b :: rest =>
    (pairs big rest).map ((if big then ofBytes [a, b] else ofBytes [b, a]) :: ·)
  | _ => none

/-- The units of four bytes each, or nothing if bytes are left over or a unit is beyond all
characters. -/
def quads (big : Bool) : List UInt8 → Option (List Nat)
  | [] => some []
  | a :: b :: c :: d :: rest =>
    let unit := if big then ofBytes [a, b, c, d] else ofBytes [d, c, b, a]
    if 0x10FFFF < unit then none else (quads big rest).map (unit :: ·)
  | _ => none

/-- Whether a unit is one half of a character. -/
def isSurrogate (u : Nat) : Bool := 0xD800 ≤ u && u < 0xE000

/-- The character of a unit. A half that stands alone is replaced. -/
def ofUnit (u : Nat) : Char := if isSurrogate u then '\uFFFD' else Char.ofNat u

/-- The characters of units: two halves in a row are one character. -/
def ofUnits : List Nat → List Char
  | [] => []
  | [u] => [ofUnit u]
  | u :: v :: us =>
    if 0xD800 ≤ u ∧ u < 0xDC00 ∧ 0xDC00 ≤ v ∧ v < 0xE000 then
      Char.ofNat (0x10000 + (u - 0xD800) * 0x400 + (v - 0xDC00)) :: ofUnits us
    else ofUnit u :: ofUnits (v :: us)

/-- A text without the mark that may stand at its beginning. -/
def withoutMark (text : String) : String :=
  match text.toList with
  | '\uFEFF' :: rest => String.ofList rest
  | _ => text

/-- The text that the bytes of a text stand for in the encoding that they seem to be in. -/
def redecoded (text : String) : Option String :=
  let bytes := text.toUTF8.toList
  match Encoding.detect bytes with
  | .utf8 => some (withoutMark text)
  | .utf16Big => (pairs true bytes).map fun us => String.ofList (ofUnits us)
  | .utf16Little => (pairs false bytes).map fun us => String.ofList (ofUnits us)
  | .utf32Big => (quads true bytes).map fun us => String.ofList (ofUnits us)
  | .utf32Little => (quads false bytes).map fun us => String.ofList (ofUnits us)

end PlainCode.Text
