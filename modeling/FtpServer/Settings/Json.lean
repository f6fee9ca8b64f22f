import FtpServer.Floating
import FtpServer.Settings.Item
import FtpServer.Text.Digit

/-!
# JSON documents

A document is a value, as a rule an object; of two members with one name the later counts.  Whole
numbers that fit a 64-bit word with a sign are integers.  Other numbers are doubles, found from as many
leading digits as fit a word and one scaling by a power of ten; those beyond the range are refused.
-/

namespace FtpServer.Settings.Json

open Text

def isBlank (c : Char) : Bool := c == ' ' || c == '\t' || c == '\n' || c == '\r'

def skipBlank (cs : List Char) : List Char := cs.dropWhile isBlank

/-- `n` with the digits that still fit a word behind it, and the digits that do not. -/
def absorb (n : Nat) : List Char → Nat × List Char
  | [] => (n, [])
  | c :: cs =>
    let next := n * 10 + digitValue c
    if next < UInt64.size then absorb next cs else (n, c :: cs)

structure Numeral where
  significand : Nat
  exponent : Int
  deriving DecidableEq, Repr

/-- Takes a small power out of an exponent beyond the powers of ten that doubles hold. -/
def scale : Nat → Float → Int → Option Float
  | 0, _, _ => none
  | fuel + 1, x, e =>
    if e.natAbs ≤ 308 then
      let power := Floating.nearest 1 e.natAbs
      if e < 0 then some (x / power)
      else if (x * power).isInf then none
      else some (x * power)
    else if x == 0.0 then some x
    else if 0 ≤ e then none
    else scale fuel (x / Floating.nearest 1 308) (e + 308)

def Numeral.toFloat (n : Numeral) : Option Float :=
  scale 5 (Floating.nearest n.significand 0) n.exponent

/-- Digits before the point: a lone zero, or a run that starts with another digit. -/
def readWhole (cs : List Char) : Option (Numeral × List Char) :=
  let run := cs.takeWhile isDigit
  if run = [] ∨ (1 < run.length ∧ run.head? = some '0') then none
  else
    let (n, left) := absorb 0 run
    some (⟨n, left.length⟩, cs.drop run.length)

/-- The numeral after the digits behind a point; they end at the first that does not fit. -/
def readFraction (n : Numeral) (cs : List Char) : Option (Numeral × List Char) :=
  let run := cs.takeWhile isDigit
  if run = [] then none
  else
    let (m, left) := absorb n.significand run
    some (⟨m, n.exponent - (run.length - left.length : Nat)⟩, cs.drop run.length)

/-- The numeral after what follows the mark of an exponent. -/
def readExponent (n : Numeral) (cs : List Char) : Option (Numeral × List Char) :=
  let sign := cs.head?.filter fun c => c == '+' || c == '-'
  let cs := if sign.isSome then cs.drop 1 else cs
  let run := cs.takeWhile isDigit
  if run = [] then none
  else
    let e : Int := valueOf run
    some (⟨n.significand, if sign = some '-' then n.exponent - e else n.exponent + e⟩,
      cs.drop run.length)

def isExponentMark (c : Char) : Bool := c == 'e' || c == 'E'

/-- The value of a numeral without a point or an exponent: a word if it fits one.  A zero with a
sign is no word. -/
def wholeDatum (negative : Bool) (n : Numeral) : Option Datum :=
  let whole : Int := if negative then -Int.ofNat n.significand else n.significand
  let word? := if n.exponent = 0 ∧ ¬ (negative ∧ whole = 0) then signedWord? whole else none
  match word? with
  | some whole => some (.integer whole)
  | none => n.toFloat.map fun x => .floating (if negative then -x else x)

def readNumber (cs : List Char) : Option (Datum × List Char) := do
  let negative := cs.head? = some '-'
  let (n, rest) ← readWhole (if negative then cs.drop 1 else cs)
  let pointed := rest.head? = some '.'
  let (m, rest) ← if pointed then readFraction n (rest.drop 1) else some (n, rest)
  let raised := (rest.head?.map isExponentMark).getD false
  let (m, rest) ← if raised then readExponent m (rest.drop 1) else some (m, rest)
  if pointed || raised then
    let x ← m.toFloat
    some (.floating (if negative then -x else x), rest)
  else
    let d ← wholeDatum negative m
    some (d, rest)

def readUnit (cs : List Char) : Option (Nat × List Char) := do
  let ds ← (cs.take 4).mapM hexValue
  if ds.length = 4 then some (valueIn 16 ds, cs.drop 4) else none

/-- The character that one number stands for, or two of which each is half of it. -/
def readCharNumber (cs : List Char) : Option (Char × List Char) := do
  let (unit, rest) ← readUnit cs
  if 0xD800 ≤ unit ∧ unit < 0xDC00 then
    match rest with
    | '\\' :: 'u' :: rest =>
      let (low, rest) ← readUnit rest
      if 0xDC00 ≤ low ∧ low < 0xE000 then
        some (Char.ofNat (0x10000 + (unit - 0xD800) * 0x400 + (low - 0xDC00)), rest)
      else none
    | _ => none
  else if 0xDC00 ≤ unit ∧ unit < 0xE000 then none
  else some (Char.ofNat unit, rest)

def simpleEscape? : Char → Option Char
  | '"' => some '"'
  | '\\' => some '\\'
  | '/' => some '/'
  | 'b' => some '\x08'
  | 'f' => some '\x0c'
  | 'n' => some '\n'
  | 'r' => some '\r'
  | 't' => some '\t'
  | _ => none

def readText : Nat → List Char → Option (List Char × List Char)
  | 0, _ => none
  | _, [] => none
  | fuel + 1, c :: rest =>
    if c = '"' then some ([], rest)
    else if c = '\\' then
      match rest with
      | [] => none
      | e :: rest => do
        let (d, rest) ← if e = 'u' then readCharNumber rest
          else (simpleEscape? e).map fun d => (d, rest)
        let (t, rest) ← readText fuel rest
        some (d :: t, rest)
    else if c < ' ' then none
    else (readText fuel rest).map fun (t, rest) => (c :: t, rest)

/-- What is left behind a word that stands at the start. -/
def readWord (word : String) (cs : List Char) : Option (List Char) :=
  if cs.take word.length = word.toList then some (cs.drop word.length) else none

def value (d : Datum) (rest : List Char) : Item × List Char := (.value d none, rest)

mutual

/-- A value; `depth` lists and objects may still be opened, less one. -/
def readValue : Nat → Nat → List Char → Option (Item × List Char)
  | 0, _, _ => none
  | fuel + 1, depth, cs =>
    match skipBlank cs with
    | 'n' :: rest => (readWord "ull" rest).map (value .nothing)
    | 't' :: rest => (readWord "rue" rest).map (value (.boolean true))
    | 'f' :: rest => (readWord "alse" rest).map (value (.boolean false))
    | '"' :: rest =>
      (readText rest.length rest).map fun (t, rest) => value (.text (String.ofList t)) rest
    | '[' :: rest =>
      if depth ≤ 1 then none
      else
        match skipBlank rest with
        | ']' :: rest => some (value .list rest)
        | rest => (readElements fuel (depth - 1) rest).map (value .list)
    | '{' :: rest =>
      if depth ≤ 1 then none
      else
        match skipBlank rest with
        | '}' :: rest => some (.table [], rest)
        | rest => (readMembers fuel (depth - 1) [] rest).map fun (es, rest) => (.table es, rest)
    | c :: rest =>
      if c = '-' ∨ isDigit c then (readNumber (c :: rest)).map fun (d, rest) => value d rest
      else none
    | [] => none

/-- The elements of a list to the bracket that ends it. -/
def readElements : Nat → Nat → List Char → Option (List Char)
  | 0, _, _ => none
  | fuel + 1, depth, cs => do
    let (_, rest) ← readValue fuel depth cs
    match skipBlank rest with
    | ',' :: rest => readElements fuel depth rest
    | ']' :: rest => some rest
    | _ => none

/-- The members of an object, after those in `es`, to the brace that ends it. -/
def readMembers : Nat → Nat → Table → List Char → Option (Table × List Char)
  | 0, _, _, _ => none
  | fuel + 1, depth, es, cs =>
    match skipBlank cs with
    | '"' :: rest => do
      let (key, rest) ← readText rest.length rest
      match skipBlank rest with
      | ':' :: rest =>
        let (item, rest) ← readValue fuel depth rest
        let es := es.put (String.ofList key) item
        match skipBlank rest with
        | ',' :: rest => readMembers fuel depth es rest
        | '}' :: rest => some (es, rest)
        | _ => none
      | _ => none
    | _ => none

end

def read (document : String) : Option Item :=
  let cs := document.toList
  match readValue (2 * cs.length + 1) 128 cs with
  | some (item, rest) => if skipBlank rest = [] then some item else none
  | none => none

end FtpServer.Settings.Json
