/-!
# Numbers with a fraction or an exponent

A number written with a point or an exponent stands for the double-precision number next to it; of
two that are equally near it is the one with an even mantissa. Written out again it takes the
fewest digits that read back as the same number. Everything is done in whole numbers, so nothing
is lost on the way.
-/

namespace PlainCode

/-- A double-precision number: a mantissa of at most 53 bits and a power of two, or one of the
values beyond all numbers. -/
inductive Double where
  /-- The number `mantissa * 2 ^ exponent`. -/
  | finite (negative : Bool) (mantissa : Nat) (exponent : Int)
  | infinite (negative : Bool)
  | undefined
  deriving DecidableEq, Repr, Inhabited

namespace Double

/-- The least exponent of a double-precision number. -/
def leastExponent : Int := -1074

/-- The greatest exponent of a double-precision number. -/
def greatestExponent : Int := 971

/-- The power of two with the given exponent. -/
def twoTo (n : Nat) : Nat := Nat.pow 2 n

/-- The power of ten with the given exponent. -/
def tenTo (n : Nat) : Nat := Nat.pow 10 n

/-- The whole number next to a quotient; a half goes to the even neighbour. -/
def roundDiv (num den : Nat) : Nat :=
  let q := num / den
  let r := num % den
  if 2 * r < den then q else if den < 2 * r then q + 1 else q + q % 2

/-- The quotient of `num / den` and a power of two, as a numerator and a denominator. -/
def scaled (num den : Nat) (exponent : Int) : Nat × Nat :=
  if exponent < 0 then (num * twoTo (-exponent).toNat, den) else (num, den * twoTo exponent.toNat)

/-- The double-precision number next to a positive fraction. -/
def ofFraction (negative : Bool) (num den : Nat) : Double :=
  let near := (num.log2 : Int) - den.log2 - 53
  let guess := if near < leastExponent then leastExponent else near
  let (n, d) := scaled num den guess
  let exponent := if n / d < twoTo 53 then guess else guess + 1
  let (n, d) := scaled num den exponent
  let m := roundDiv n d
  let (m, exponent) := if m < twoTo 53 then (m, exponent) else (m / 2, exponent + 1)
  if greatestExponent < exponent then .infinite negative else .finite negative m exponent

/-- The double-precision number next to `digits * 10 ^ exponent`. Powers of ten so large that the
number is beyond all others, or so small that it is zero, are not worked out. -/
def ofDecimal (negative : Bool) (digits : Nat) (exponent : Int) : Double :=
  let size := ((Nat.toDigits 10 digits).length : Int) + exponent
  if digits = 0 ∨ size < -330 then .finite negative 0 leastExponent
  else if 310 < size then .infinite negative
  else if exponent < 0 then ofFraction negative digits (tenTo (-exponent).toNat)
  else ofFraction negative (digits * tenTo exponent.toNat) 1

/-- Whether a number is zero, of either sign. -/
def isZero : Double → Bool
  | .finite _ mantissa _ => mantissa == 0
  | _ => false

/-- A positive number in decimal: its digits without zeros at the end, and where the point stands,
counted from in front of the first digit. -/
structure Decimal where
  digits : List Char
  point : Int
  deriving DecidableEq, Repr

/-- The numerators and the denominator of a number and of the two ends of the interval of all
fractions that are read as it. The number below a power of two is only half as far away. -/
def interval (mantissa : Nat) (exponent : Int) : Nat × Nat × Nat × Nat :=
  let close := mantissa == twoTo 52 && leastExponent < exponent
  let low := if close then 4 * mantissa - 1 else 4 * mantissa - 2
  let factor := twoTo (exponent - 2).toNat
  (low * factor, 4 * mantissa * factor, (4 * mantissa + 2) * factor, twoTo (2 - exponent).toNat)

/-- The nearest number of the grid of step `10 ^ place` to `num / den`, as a multiple of the step,
if one of the two next to it is read as the number itself. -/
def onGrid (low num high den : Nat) (closed : Bool) (place : Int) : Option Nat :=
  let up := tenTo place.toNat
  let down := tenTo (-place).toNat
  let reads (k : Nat) : Bool :=
    let v := k * up * den
    (low * down < v && v < high * down) || (closed && (v == low * down || v == high * down))
  let below := num * down / (den * up)
  let above := below + 1
  let nearest := roundDiv (num * down) (den * up)
  let other := if nearest == below then above else below
  if reads nearest then some nearest else if reads other then some other else none

/-- Tries grids of one digit more each time, from the coarsest. -/
def searchGrids (low num high den : Nat) (closed : Bool) : Nat → Int → Nat × Int
  | 0, place => (roundDiv (num * tenTo (-place).toNat) (den * tenTo place.toNat), place)
  | n + 1, place =>
    match onGrid low num high den closed place with
    | some k => (k, place)
    | none => searchGrids low num high den closed n (place - 1)

/-- The fewest digits that read back as a positive number. -/
def shortest (mantissa : Nat) (exponent : Int) : Decimal :=
  let (low, num, high, den) := interval mantissa exponent
  let places : Int := if num < den
    then 1 - ((Nat.toDigits 10 (den / num)).length : Int)
    else (Nat.toDigits 10 (num / den)).length
  let (k, place) := searchGrids low num high den (mantissa % 2 == 0) 19 places
  let digits := Nat.toDigits 10 k
  let kept := (digits.reverse.dropWhile (· == '0')).reverse
  ⟨kept, digits.length + place⟩

/-- Where decimal numbers are written with an exponent: only from this place of the point on, or
up to the other one. -/
def positional (point : Int) : Bool := -4 < point && point ≤ 16

/-- A decimal with its point, or as one digit, a fraction and an exponent of two digits or more. -/
def Decimal.text (d : Decimal) : List Char :=
  let count := d.digits.length
  if positional d.point then
    if d.point ≤ 0 then '0' :: '.' :: List.replicate (-d.point).toNat '0' ++ d.digits
    else
      let whole := d.point.toNat
      if count ≤ whole then d.digits ++ List.replicate (whole - count) '0' ++ ['.', '0']
      else d.digits.take whole ++ '.' :: d.digits.drop whole
  else
    let exponent := d.point - 1
    let power := Nat.toDigits 10 exponent.natAbs
    let fraction := match d.digits.drop 1 with
      | [] => []
      | ds => '.' :: ds
    d.digits.take 1 ++ fraction ++ ['e', if exponent < 0 then '-' else '+'] ++
      List.replicate (2 - power.length) '0' ++ power

/-- The text of a number. -/
def text : Double → String
  | .undefined => "nan"
  | .infinite negative => if negative then "-inf" else "inf"
  | .finite negative mantissa exponent =>
    let body := if mantissa = 0 then ['0', '.', '0'] else (shortest mantissa exponent).text
    String.ofList (if negative then '-' :: body else body)

end Double

end PlainCode
