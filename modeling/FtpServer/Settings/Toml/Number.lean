import FtpServer.Floating
import FtpServer.Settings.Item
import FtpServer.Text.Digit
import FtpServer.Text.Split

/-!
# Numbers of a TOML document

Digits may be grouped by single underscores between them.  Whole numbers are 64-bit words with a
sign; only those in base ten may have one, and only they refuse a leading zero.
-/

namespace FtpServer.Settings.Toml

open Text

/-- The digits at the start, and what follows them. -/
def readDigits (base : Nat) (leadingZeros : Bool) (cs : List Char) :
    Option (List Nat × List Char) := do
  let run := cs.takeWhile fun c => c == '_' || (digitIn base c).isSome
  let groups := split '_' run
  let ds ← groups.flatten.mapM (digitIn base)
  if groups.any (·.isEmpty) ∨ (¬ leadingZeros ∧ 1 < ds.length ∧ ds.head? = some 0) then none
  else some (ds, cs.drop run.length)

def readSign : List Char → Bool × List Char
  | '-' :: cs => (true, cs)
  | '+' :: cs => (false, cs)
  | cs => (false, cs)

def readWhole (base : Nat) (cs : List Char) : Option Nat :=
  match readDigits base (base ≠ 10) cs with
  | some (ds, []) => some (valueIn base ds)
  | _ => none

def readInteger (cs : List Char) : Option Int :=
  match cs with
  | '0' :: 'x' :: ds => (readWhole 16 ds).bind fun n => signedWord? n
  | '0' :: 'o' :: ds => (readWhole 8 ds).bind fun n => signedWord? n
  | '0' :: 'b' :: ds => (readWhole 2 ds).bind fun n => signedWord? n
  | cs =>
    let (negative, ds) := readSign cs
    (readWhole 10 ds).bind fun n => signedWord? (if negative then -Int.ofNat n else n)

def readFraction : List Char → Option (List Nat × List Char)
  | '.' :: cs => readDigits 10 true cs
  | cs => some ([], cs)

def readPower : List Char → Option Int
  | [] => some 0
  | c :: cs =>
    if c = 'e' ∨ c = 'E' then
      let (negative, ds) := readSign cs
      match readDigits 10 true ds with
      | some (ds, []) => some (if negative then -Int.ofNat (valueIn 10 ds) else valueIn 10 ds)
      | _ => none
    else none

/-- A number with a point or an exponent; it must be finite. -/
def readFloating (cs : List Char) : Option Float := do
  let (negative, cs) := readSign cs
  let (whole, cs) ← readDigits 10 false cs
  let (fraction, cs) ← readFraction cs
  let e ← readPower cs
  let x := Floating.nearest (valueIn 10 (whole ++ fraction)) (e - fraction.length)
  if x.isInf then none else some (if negative then -x else x)

def namedFloating? (s : String) : Option Float :=
  if s = "inf" then some Floating.infinity
  else if s = "-inf" then some (-Floating.infinity)
  else if s = "nan" ∨ s = "-nan" then some Floating.notANumber
  else none

end FtpServer.Settings.Toml
