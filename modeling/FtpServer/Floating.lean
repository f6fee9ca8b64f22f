import FtpServer.Text.Decimal

/-!
# Floating point numbers as text

A numeral is read to the nearest double.  A double is written with the fewest digits that are read
back to it, always positionally; where two texts of that length are read back, the one nearer to
the double is taken.
-/

namespace FtpServer.Floating

open Text

def infinity : Float := 1.0 / 0.0

def notANumber : Float := 0.0 / 0.0

/-- The double nearest to `m * 10 ^ e`.  Numerals far outside the range of doubles are settled by
their order alone. -/
def nearest (m : Nat) (e : Int) : Float :=
  let order := (digits m).length + e
  if m = 0 ∨ order < -330 then 0.0
  else if 310 < order then infinity
  else if e < 0 then Float.ofScientific m true e.natAbs
  else Float.ofScientific m false e.toNat

/-- What follows the digits of a numeral: nothing, or an exponent with at most one sign. -/
def readExponent : List Char → Option Int
  | [] => some 0
  | c :: rest => if c = 'e' ∨ c = 'E' then readInt rest else none

/-- Digits on either side of a point, or on both, and an exponent. -/
def readUnsigned (cs : List Char) : Option Float :=
  let whole := cs.takeWhile isDigit
  let rest := cs.dropWhile isDigit
  let pointed := rest.head? = some '.'
  let fraction := if pointed then (rest.drop 1).takeWhile isDigit else []
  let after := if pointed then (rest.drop 1).dropWhile isDigit else rest
  if whole = [] ∧ fraction = [] then none
  else
    (readExponent after).map fun e =>
      nearest (valueOf (whole ++ fraction)) (e - fraction.length)

/-- A numeral, or the name of a value that no numeral has, in any letter case. -/
def readMagnitude (cs : List Char) : Option Float :=
  let name := String.ofList (cs.map Char.toLower)
  if name = "inf" ∨ name = "infinity" then some infinity
  else if name = "nan" then some notANumber
  else readUnsigned cs

def read : List Char → Option Float
  | '+' :: cs => readMagnitude cs
  | '-' :: cs => (readMagnitude cs).map fun x => -x
  | cs => readMagnitude cs

def isNegative (x : Float) : Bool := x.toBits ≥ 0x8000000000000000

def twoTo (k : Nat) : Nat := Nat.pow 2 k

/-- The magnitude of a finite double as a quotient. -/
def ratio (x : Float) : Nat × Nat :=
  let bits := x.toBits.toNat
  let exponent := bits / twoTo 52 % twoTo 11
  let fraction := bits % twoTo 52
  if exponent = 0 then (fraction, twoTo 1074)
  else ((twoTo 52 + fraction) * twoTo (exponent - 1075), twoTo (1075 - exponent))

/-- How many zeros follow the point of `num / den`, below one, of at most `most`. -/
def leadingZeros (num den : Nat) : Nat → Nat
  | 0 => 0
  | most + 1 => if num * 10 < den then leadingZeros (num * 10) den most + 1 else 0

def order (num den : Nat) : Int :=
  if den ≤ num then (digits (num / den)).length else -(leadingZeros num den 400 : Int)

/-- The neighbour of `num / den` among the multiples of `10 ^ e` that is read back to `x`; the
nearer if both are, and the upper if both are equally near. -/
def neighbour? (x : Float) (num den : Nat) (e : Int) : Option Nat :=
  let scaled := num * tenTo (-e).toNat
  let unit := den * tenTo e.toNat
  let low := scaled / unit
  let readsBack (m : Nat) : Bool := (nearest m e).toBits == x.toBits
  match readsBack low, readsBack (low + 1) with
  | true, true => some (if 2 * scaled < (2 * low + 1) * unit then low else low + 1)
  | true, false => some low
  | false, true => some (low + 1)
  | false, false => none

/-- The shortest decimal `m * 10 ^ e` that is read back to the positive `x`.  Seventeen digits
always suffice.  Only a value just below a power of ten has a neighbour that ends in a zero. -/
def shortest (x : Float) : Nat × Int :=
  let (num, den) := ratio x
  let k := order num den
  let found := (List.range 17).findSome? fun i =>
    let e := k - 1 - Int.ofNat i
    (neighbour? x num den e).map fun m => if m % 10 = 0 then (m / 10, e + 1) else (m, e)
  found.getD (num / den, 0)

def positional (m : Nat) (e : Int) : List Char :=
  let ds := digits m
  if 0 ≤ e then ds ++ List.replicate e.toNat '0'
  else
    let places := e.natAbs
    let ds := List.replicate (places + 1 - ds.length) '0' ++ ds
    ds.take (ds.length - places) ++ '.' :: ds.drop (ds.length - places)

def text (x : Float) : String :=
  if x.isNaN then "NaN"
  else
    let sign := if isNegative x then "-" else ""
    let magnitude := x.abs
    if magnitude.isInf then sign ++ "inf"
    else if magnitude == 0.0 then sign ++ "0"
    else
      let (m, e) := shortest magnitude
      sign ++ String.ofList (positional m e)

/-- The nearest unsigned word; a half goes up, and what is no word goes to the nearest end. -/
def toWord (x : Float) : UInt64 := x.round.toUInt64

end FtpServer.Floating
