import PlainCode.Json.Reader

/-!
# Addresses

What a request asks for is named by an address: a scheme, an authority, a path, a query and a
fragment, of which each may be left out. The authority and the fragment are passed over. Percent
signs in the path stand for other characters. The path begins with one slash, unless there is
nothing in it at all.
-/

namespace PlainCode.Service

/-- Whether a character is passed over at the beginning of an address: controls and spaces. -/
def isPadding (c : Char) : Bool := c.toNat ≤ 0x20

/-- An address without what stands in front of it, and without tabs and line ends. -/
def cleaned (cs : List Char) : List Char :=
  (cs.dropWhile isPadding).filter fun c => c != '\t' && c != '\r' && c != '\n'

/-- Whether a character can be part of a scheme. -/
def isSchemeChar (c : Char) : Bool := c.isAlphanum || c == '+' || c == '-' || c == '.'

/-- The scheme of an address, in small letters, and what is behind its colon. A scheme begins with a
letter; without one, nothing is taken. -/
def takeScheme (cs : List Char) : List Char × List Char :=
  match cs.dropWhile isSchemeChar with
  | ':' :: rest =>
    if cs.head?.any Char.isAlpha then ((cs.takeWhile isSchemeChar).map Char.toLower, rest)
    else ([], cs)
  | _ => ([], cs)

/-- An address behind its authority, which two slashes begin. -/
def afterAuthority : List Char → List Char
  | '/' :: '/' :: rest => rest.dropWhile fun c => c != '/' && c != '?' && c != '#'
  | cs => cs

/-- What counts of an address. -/
structure Address where
  scheme : List Char
  path : List Char
  query : List Char
  deriving DecidableEq, Repr

namespace Address

/-- Takes an address apart. -/
def split (cs : List Char) : Address :=
  let (scheme, rest) := takeScheme (cleaned cs)
  let rest := (afterAuthority rest).takeWhile (· != '#')
  ⟨scheme, rest.takeWhile (· != '?'), (rest.dropWhile (· != '?')).drop 1⟩

/-- Whether an address is that of a socket. -/
def isSocket (a : Address) : Bool := a.scheme == ['w', 's'] || a.scheme == ['w', 's', 's']

/-- The path of an address, with its query if that is not empty. -/
def text (a : Address) : List Char := if a.query.isEmpty then a.path else a.path ++ '?' :: a.query

end Address

/-- A text whose percent signs with two digits to base sixteen behind them are replaced by what they
stand for. -/
def percentDecoded : List Char → List Char
  | [] => []
  | '%' :: a :: b :: cs =>
    match Json.hexValue? a, Json.hexValue? b with
    | some m, some n => Char.ofNat (16 * m + n) :: percentDecoded cs
    | _, _ => '%' :: percentDecoded (a :: b :: cs)
  | c :: cs => c :: percentDecoded cs

/-- A path with one slash in front, unless it is empty. -/
def rooted (path : List Char) : List Char :=
  if path.isEmpty then [] else '/' :: path.dropWhile (· == '/')

/-- A path without the two slashes of an authority that is empty. -/
def withoutAuthority : List Char → List Char
  | '/' :: '/' :: rest => if rest.head?.all (· == '/') then rest else '/' :: '/' :: rest
  | cs => cs

/-- The path that a request for an address asks for. What is left of the address when scheme and
authority are gone is an address again, and is taken apart once more. -/
def Address.place (a : Address) : List Char :=
  rooted (percentDecoded (withoutAuthority ((Address.split a.text).path.dropWhile isPadding)))

/-- A path with one slash instead of several in a row. -/
def mergeSlashes : List Char → List Char
  | [] => []
  | c :: cs => if c = '/' ∧ cs.head? = some '/' then mergeSlashes cs else c :: mergeSlashes cs

end PlainCode.Service
