import FtpServer.Settings.Json
import FtpServer.Text.Blank
import FtpServer.Text.Letter

/-!
# JSON5 documents

Beyond what JSON allows there are comments, names without quotes, text in either quote, a comma
behind the last entry, and more ways to write numbers.  Whole numbers fit a 64-bit word with a
sign, hexadecimal ones one of 32 bits without; no decimal number is beyond the range of doubles.
-/

namespace FtpServer.Settings.Json5

open Text

def isLineEnd (c : Char) : Bool := c == '\n' || c == '\r' || c == '\u2028' || c == '\u2029'

def isSpace (c : Char) : Bool := (isBlank c && c != '\u0085') || c == '\uFEFF'

inductive Place
  | code
  | line
  | block
  deriving DecidableEq, Repr

/-- What follows blanks and comments, from in between them or from within a comment.  A comment
that is not closed leaves its mark. -/
def skip : Place → List Char → List Char
  | .code, '/' :: '/' :: rest => skip .line rest
  | .code, '/' :: '*' :: rest => skip .block rest
  | .code, c :: rest => if isSpace c then skip .code rest else c :: rest
  | .line, c :: rest => skip (if isLineEnd c then .code else .line) rest
  | .block, '*' :: '/' :: rest => skip .code rest
  | .block, _ :: rest => skip .block rest
  | .block, [] => ['/']
  | _, [] => []

abbrev skipSpace : List Char → List Char := skip .code

/-- The character with a number of hexadecimal digits. -/
def charNumbered? (digits : List Char) : Option Char := do
  let n := valueIn 16 (← digits.mapM hexValue)
  if n.isValidChar then some (Char.ofNat n) else none

/-- What a backslash and a character other than `x` and `u` stand for. -/
def escaped? : Char → Option Char
  | 'b' => some '\x08'
  | 'f' => some '\x0c'
  | 'n' => some '\n'
  | 'r' => some '\r'
  | 't' => some '\t'
  | 'v' => some '\x0b'
  | '0' => some '\x00'
  | 'x' | 'u' => none
  | c => if isDigit c then none else some c

/-- Text up to the quote that ends it.  A backslash before a line's end takes it away. -/
def readText (quote : Char) : List Char → Option (List Char × List Char)
  | [] => none
  | c :: rest =>
    let after (d : Char) : List Char × List Char → List Char × List Char
      | (t, left) => (d :: t, left)
    if c = quote then some ([], rest)
    else if c = '\\' then
      match rest with
      | '\r' :: '\n' :: rest => readText quote rest
      | 'x' :: h₁ :: h₂ :: rest =>
        (charNumbered? [h₁, h₂]).bind fun d => (readText quote rest).map (after d)
      | 'u' :: h₁ :: h₂ :: h₃ :: h₄ :: rest =>
        (charNumbered? [h₁, h₂, h₃, h₄]).bind fun d => (readText quote rest).map (after d)
      | e :: rest =>
        if isLineEnd e then readText quote rest
        else (escaped? e).bind fun d => (readText quote rest).map (after d)
      | [] => none
    else if isLineEnd c then none
    else (readText quote rest).map (after c)

def startsName (c : Char) : Bool := isLetter c || c == '$' || c == '_'

def continuesName (c : Char) : Bool :=
  startsName c || isMark c || c == '\u200C' || c == '\u200D'

/-- The characters of a name without quotes and what follows it. -/
def readNameRest : List Char → List Char × List Char
  | '\\' :: 'u' :: h₁ :: h₂ :: h₃ :: h₄ :: rest =>
    match charNumbered? [h₁, h₂, h₃, h₄] with
    | some d => let (name, left) := readNameRest rest; (d :: name, left)
    | none => ([], '\\' :: rest)
  | c :: rest =>
    if continuesName c then let (name, left) := readNameRest rest; (c :: name, left)
    else ([], c :: rest)
  | [] => ([], [])

def readKey (cs : List Char) : Option (String × List Char) :=
  match cs with
  | [] => none
  | c :: rest =>
    if c = '"' ∨ c = '\x27' then
      (readText c rest).map fun (t, left) => (String.ofList t, left)
    else if startsName c ∨ c = '\\' then
      let (name, left) := readNameRest cs
      if name = [] then none else some (String.ofList name, left)
    else none

def exponentOf (cs : List Char) : List Char × List Char :=
  match cs with
  | mark :: rest =>
    let sign := (rest.take 1).filter fun c => c == '+' || c == '-'
    let ds := (rest.drop sign.length).takeWhile isDigit
    if (mark = 'e' ∨ mark = 'E') ∧ ds ≠ [] then
      (mark :: sign ++ ds, rest.drop (sign.length + ds.length))
    else ([], cs)
  | [] => ([], [])

/-- Digits before a point: a lone zero, or a run that starts with another digit. -/
def wholeOf (cs : List Char) : List Char :=
  if cs.head? = some '0' then ['0'] else cs.takeWhile isDigit

/-- A numeral without a sign, and whether it is whole. -/
def readNumeral (cs : List Char) : Option (List Char × Bool × List Char) :=
  let whole := wholeOf cs
  match cs.drop whole.length with
  | '.' :: rest =>
    let fraction := rest.takeWhile isDigit
    if whole = [] ∧ fraction = [] then none
    else
      let (exponent, left) := exponentOf (rest.drop fraction.length)
      some (whole ++ '.' :: fraction ++ exponent, false, left)
  | rest =>
    if whole = [] then none
    else
      let (exponent, left) := exponentOf rest
      some (whole ++ exponent, exponent = [], left)

def hexBound : Nat := 0x100000000

def readHexadecimal (cs : List Char) : Option (Datum × List Char) := do
  let run := cs.takeWhile fun c => (hexValue c).isSome
  let n := valueIn 16 (run.filterMap hexValue)
  if n < hexBound then some (.integer n, cs.drop run.length) else none

def isHexadecimal : List Char → Bool
  | '0' :: x :: d :: _ => (x == 'x' || x == 'X') && (hexValue d).isSome
  | _ => false

/-- The value of a numeral behind `sign`.  A plus sign stands before decimal numbers only, a minus
sign before all but hexadecimal ones. -/
def readMagnitude (sign : Option Char) (cs : List Char) : Option (Datum × List Char) :=
  if isHexadecimal cs then
    if sign.isSome then none else readHexadecimal (cs.drop 2)
  else
    let named? (word : String) : Option (List Char) :=
      if sign = some '+' then none else Json.readWord word cs
    match named? "Infinity", named? "NaN" with
    | some left, _ =>
      some (.floating (if sign = some '-' then -Floating.infinity else Floating.infinity), left)
    | none, some left => some (.floating Floating.notANumber, left)
    | none, none => do
      let (numeral, isWhole, left) ← readNumeral cs
      let text := sign.toList ++ numeral
      if isWhole then
        let n ← (readInt text).bind signedWord?
        some (.integer n, left)
      else
        let x ← Floating.read text
        if x.isFinite then some (.floating x, left) else none

def readNumber (cs : List Char) : Option (Datum × List Char) :=
  match cs with
  | '+' :: rest => readMagnitude (some '+') rest
  | '-' :: rest => readMagnitude (some '-') rest
  | cs => readMagnitude none cs

def readPlain (cs : List Char) : Option (Datum × List Char) :=
  match Json.readWord "null" cs, Json.readWord "true" cs, Json.readWord "false" cs with
  | some left, _, _ => some (.nothing, left)
  | _, some left, _ => some (.boolean true, left)
  | _, _, some left => some (.boolean false, left)
  | none, none, none =>
    match cs with
    | '"' :: rest => (readText '"' rest).map fun (t, left) => (.text (String.ofList t), left)
    | '\x27' :: rest => (readText '\x27' rest).map fun (t, left) => (.text (String.ofList t), left)
    | cs => readNumber cs

mutual

def readValue : Nat → List Char → Option (Item × List Char)
  | 0, _ => none
  | fuel + 1, cs =>
    match skipSpace cs with
    | '[' :: rest => do
      let left ← readElements fuel (skipSpace rest)
      some (.value .list none, left)
    | '{' :: rest => do
      let (es, left) ← readMembers fuel [] (skipSpace rest)
      some (.table es, left)
    | cs => (readPlain cs).map fun (d, left) => (.value d none, left)

/-- The elements of a list from the next one, or from the bracket that ends it. -/
def readElements : Nat → List Char → Option (List Char)
  | 0, _ => none
  | _, ']' :: rest => some rest
  | fuel + 1, cs => do
    let (_, left) ← readValue fuel cs
    match skipSpace left with
    | ',' :: rest => readElements fuel (skipSpace rest)
    | ']' :: rest => some rest
    | _ => none

/-- The members of an object, after those in `es`, from the next one, or from the brace that ends
it. -/
def readMembers : Nat → Table → List Char → Option (Table × List Char)
  | 0, _, _ => none
  | _, es, '}' :: rest => some (es, rest)
  | fuel + 1, es, cs => do
    let (key, left) ← readKey cs
    match skipSpace left with
    | ':' :: rest =>
      let (item, left) ← readValue fuel rest
      let es := es.put key item
      match skipSpace left with
      | ',' :: rest => readMembers fuel es (skipSpace rest)
      | '}' :: rest => some (es, rest)
      | _ => none
    | _ => none

end

def read (document : String) : Option Item :=
  let cs := document.toList
  match readValue (2 * cs.length + 1) cs with
  | some (.table es, left) => if skipSpace left = [] then some (.table es) else none
  | _ => none

end FtpServer.Settings.Json5
