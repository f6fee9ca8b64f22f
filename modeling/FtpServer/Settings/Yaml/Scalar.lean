import FtpServer.Floating
import FtpServer.Text.Digit

/-!
# What plain words of a YAML document mean

A plain word is nothing, a truth value or a number where it looks like one, and text otherwise; a
tag may ask for one of them.
-/

namespace FtpServer.Settings.Yaml

open Text

inductive Scalar
  | null
  | boolean (b : Bool)
  | integer (n : Int)
  /-- A number with a point or an exponent, or the name of a value that no numeral has. -/
  | real (word : List Char)
  | text (s : String)
  /-- A word that is not what its tag asks for. -/
  | unfit
  deriving DecidableEq, Repr

/-- A number in base `radix` with at most one sign, if a word of 64 bits with a sign holds it. -/
def readRadix (radix : Nat) (cs : List Char) : Option Int := do
  let (negative, digits) := match cs with
    | '-' :: ds => (true, ds)
    | '+' :: ds => (false, ds)
    | ds => (false, ds)
  let ds ← digits.mapM (digitIn radix)
  let n := valueIn radix ds
  if ds = [] then none else signedWord? (if negative then -Int.ofNat n else n)

def readDecimal (cs : List Char) : Option Int := (readInt cs).bind signedWord?

/-- Hexadecimal and octal numbers are marked; a plus sign may stand before another sign. -/
def readInteger (cs : List Char) : Option Int :=
  match cs with
  | '0' :: 'x' :: ds => readRadix 16 ds
  | '0' :: 'o' :: ds => readRadix 8 ds
  | '+' :: ds => (readDecimal ds).or (readDecimal cs)
  | cs => readDecimal cs

/-- Names of values that no numeral has, which stand for themselves only. -/
def isNamedReal (word : String) : Bool :=
  [".inf", ".Inf", ".INF", "+.inf", "+.Inf", "+.INF", "-.inf", "-.Inf", "-.INF", ".nan",
    ".NAN"].contains word

def isReal (cs : List Char) : Bool :=
  isNamedReal (String.ofList cs) || (Floating.read cs).isSome

def Scalar.ofWord (cs : List Char) : Scalar :=
  match readInteger cs with
  | some n => .integer n
  | none =>
    let word := String.ofList cs
    if word = "~" ∨ word = "null" then .null
    else if word = "true" then .boolean true
    else if word = "false" then .boolean false
    else if isReal cs then .real cs
    else .text word

def Scalar.ofTagged (handle suffix : String) (cs : List Char) : Scalar :=
  let word := String.ofList cs
  if handle ≠ "!!" then .text word
  else
    match suffix with
    | "bool" => if word = "true" then .boolean true else if word = "false" then .boolean false
      else .unfit
    | "int" => ((readDecimal cs).map .integer).getD .unfit
    | "float" => if isReal cs then .real cs else .unfit
    | "null" => if word = "~" ∨ word = "null" then .null else .unfit
    | _ => .text word

end FtpServer.Settings.Yaml
