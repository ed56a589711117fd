import PlainCode.Json.Basic
import PlainCode.Text.Encoding

/-!
# Reading JSON

The text of one value, with blanks around it, is read into a `Json`. Beside the standard's values
there are three names for numbers beyond all others. Of two fields of one name the last one counts,
at the place of the first. A control character in a string, a comma with nothing after it, anything
after the value, and a whole number of more than 4300 digits make a text no JSON.
-/

namespace PlainCode.Json

/-- The text behind blanks. -/
def skipBlanks (cs : List Char) : List Char :=
  cs.dropWhile fun c => c == ' ' || c == '\t' || c == '\n' || c == '\r'

/-- The text behind a word that it begins with. -/
def afterWord? : List Char → List Char → Option (List Char)
  | [], cs => some cs
  | _, [] => none
  | w :: ws, c :: cs => if w = c then afterWord? ws cs else none

/-- The number that decimal digits stand for. -/
def ofDigits (ds : List Char) : Nat := ds.foldl (fun n d => 10 * n + (d.toNat - '0'.toNat)) 0

/-- The value of a digit to base sixteen. -/
def hexValue? (c : Char) : Option Nat :=
  if c.isDigit then some (c.toNat - '0'.toNat)
  else if 'a' ≤ c ∧ c ≤ 'f' then some (c.toNat - 'a'.toNat + 10)
  else if 'A' ≤ c ∧ c ≤ 'F' then some (c.toNat - 'A'.toNat + 10)
  else none

/-- The number that four digits to base sixteen stand for. -/
def hexUnit? (a b c d : Char) : Option Nat := do
  let a ← hexValue? a
  let b ← hexValue? b
  let c ← hexValue? c
  let d ← hexValue? d
  return ((a * 16 + b) * 16 + c) * 16 + d

/-- The character that an escape of one letter stands for. -/
def shortEscape? : Char → Option Char
  | '"' => some '"'
  | '\\' => some '\\'
  | '/' => some '/'
  | 'b' => some '\x08'
  | 'f' => some '\x0c'
  | 'n' => some '\n'
  | 'r' => some '\r'
  | 't' => some '\t'
  | _ => none

/-- The code units of a string, up to the quote that ends it. -/
def units : List Char → Option (List Nat × List Char)
  | [] => none
  | '"' :: cs => some ([], cs)
  | '\\' :: 'u' :: a :: b :: c :: d :: cs => do
    let unit ← hexUnit? a b c d
    let (rest, cs) ← units cs
    return (unit :: rest, cs)
  | '\\' :: e :: cs => do
    let c ← shortEscape? e
    let (rest, cs) ← units cs
    return (c.toNat :: rest, cs)
  | c :: cs =>
    if c = '\\' ∨ c.toNat < 0x20 then none
    else do
      let (rest, cs) ← units cs
      return (c.toNat :: rest, cs)

/-- A string, from behind the quote that begins it. -/
def readString (cs : List Char) : Option (String × List Char) := do
  let (us, cs) ← units cs
  return (String.ofList (Text.ofUnits us), cs)

/-- The digits of a fraction, if a point and at least one digit follow. -/
def readFraction : List Char → List Char × List Char
  | '.' :: cs =>
    match cs.takeWhile Char.isDigit with
    | [] => ([], '.' :: cs)
    | ds => (ds, cs.dropWhile Char.isDigit)
  | cs => ([], cs)

/-- An exponent, if its letter, a sign or none, and at least one digit follow. -/
def readExponent (cs : List Char) : Option Int × List Char :=
  match cs with
  | e :: rest =>
    if e = 'e' ∨ e = 'E' then
      let (negative, ds) := match rest with
        | '-' :: ds => (true, ds)
        | '+' :: ds => (false, ds)
        | ds => (false, ds)
      match ds.takeWhile Char.isDigit with
      | [] => (none, cs)
      | digits =>
        let n : Int := ofDigits digits
        (some (if negative then -n else n), ds.dropWhile Char.isDigit)
    else (none, cs)
  | [] => (none, cs)

/-- The digits in front of the point: a zero alone, or digits that do not begin with one. -/
def readWhole : List Char → Option (List Char × List Char)
  | '0' :: cs => some (['0'], cs)
  | cs =>
    match cs.takeWhile Char.isDigit with
    | [] => none
    | ds => some (ds, cs.dropWhile Char.isDigit)

/-- A number behind its sign. -/
def readNumber (negative : Bool) (cs : List Char) : Option (Json × List Char) := do
  let (whole, cs) ← readWhole cs
  let (fraction, cs) := readFraction cs
  let (exponent, cs) := readExponent cs
  if fraction.isEmpty && exponent.isNone then
    if mostDigits < whole.length then none
    else
      let n : Int := ofDigits whole
      return (.int (if negative then -n else n), cs)
  else
    let shift : Int := exponent.getD 0 - fraction.length
    return (.double (Double.ofDecimal negative (ofDigits (whole ++ fraction)) shift), cs)

/-- A value that is neither a string nor made of other values. -/
def readSimple (cs : List Char) : Option (Json × List Char) :=
  let name (word : String) (value : Json) : Option (Json × List Char) :=
    (afterWord? word.toList cs).map fun rest => (value, rest)
  match cs with
  | 'n' :: _ => name "null" .null
  | 't' :: _ => name "true" (.bool true)
  | 'f' :: _ => name "false" (.bool false)
  | 'N' :: _ => name "NaN" (.double .undefined)
  | 'I' :: _ => name "Infinity" (.double (.infinite false))
  | '-' :: 'I' :: _ => name "-Infinity" (.double (.infinite true))
  | '-' :: rest => readNumber true rest
  | _ => readNumber false cs

mutual

/-- One value, with no blanks in front. The first argument bounds the steps that are left. -/
def readValue : Nat → List Char → Option (Json × List Char)
  | 0, _ => none
  | n + 1, cs =>
    match cs with
    | '"' :: rest => (readString rest).map fun (s, rest) => (.str s, rest)
    | '[' :: rest =>
      match skipBlanks rest with
      | ']' :: rest => some (.arr [], rest)
      | rest => (readItems n rest).map fun (items, rest) => (.arr items, rest)
    | '\x7b' :: rest =>
      match skipBlanks rest with
      | '\x7d' :: rest => some (.obj [], rest)
      | rest => (readFields n [] rest).map fun (fields, rest) => (.obj fields, rest)
    | _ => readSimple cs

/-- The items of a list, up to its end. -/
def readItems : Nat → List Char → Option (List Json × List Char)
  | 0, _ => none
  | n + 1, cs =>
    match readValue n cs with
    | none => none
    | some (item, rest) =>
      match skipBlanks rest with
      | ']' :: rest => some ([item], rest)
      | ',' :: rest =>
        (readItems n (skipBlanks rest)).map fun (items, rest) => (item :: items, rest)
      | _ => none

/-- The fields of an object, up to its end, behind those already read. -/
def readFields : Nat → List (String × Json) → List Char → Option (List (String × Json) × List Char)
  | 0, _, _ => none
  | n + 1, before, cs =>
    match cs with
    | '"' :: rest =>
      match readString rest with
      | none => none
      | some (key, rest) =>
        match skipBlanks rest with
        | ':' :: rest =>
          match readValue n (skipBlanks rest) with
          | none => none
          | some (value, rest) =>
            let fields := setField key value before
            match skipBlanks rest with
            | '\x7d' :: rest => some (fields, rest)
            | ',' :: rest => readFields n fields (skipBlanks rest)
            | _ => none
        | _ => none
    | _ => none

end

/-- The value of a JSON text, or nothing if the text is not JSON. -/
def read? (s : String) : Option Json :=
  let cs := s.toList
  match readValue (2 * cs.length + 1) (skipBlanks cs) with
  | some (value, rest) => if (skipBlanks rest).isEmpty then some value else none
  | none => none

end PlainCode.Json
