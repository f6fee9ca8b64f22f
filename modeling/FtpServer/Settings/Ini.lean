import FtpServer.Settings.Item
import FtpServer.Text.Blank
import FtpServer.Text.Digit

/-!
# INI documents

Properties stand before the first section or in a section, whose name is in brackets.  A key
reaches to the first `=` or `:`, whatever comes before it, and a value to the end of its line,
unless it begins with text in quotes.  Everywhere a backslash gives the next character another
meaning.  A comment begins at the start of a line.  Values are text; a section takes the place of
an earlier one of its name.
-/

namespace FtpServer.Settings.Ini

open Text

def isLineEnd (c : Char) : Bool := c == '\n' || c == '\r'

/-- What a backslash and a character stand for; a line that ends in a backslash goes on. -/
def escaped : Char → List Char
  | '0' => ['\x00']
  | 'a' => ['\x07']
  | 'b' => ['\x08']
  | 't' => ['\t']
  | 'r' => ['\r']
  | 'n' => ['\n']
  | '\n' => []
  | c => [c]

/-- The character with a number of hexadecimal digits. -/
def charNumbered? (digits : List Char) : Option Char := do
  let ds ← (if digits.head? = some '+' then digits.drop 1 else digits).mapM hexValue
  let n := valueIn 16 ds
  if n.isValidChar then some (Char.ofNat n) else none

/-- Text up to a character in `ends`, which is left; if it may be `open'`, the end of the document
ends it too. -/
def readTo (ends : List Char) (open' : Bool) : List Char → Option (List Char × List Char)
  | [] => if open' then some ([], []) else none
  | c :: rest =>
    if ends.contains c then some ([], c :: rest)
    else if c = '\\' then
      match rest with
      | 'x' :: h₁ :: h₂ :: h₃ :: h₄ :: rest => do
        let d ← charNumbered? [h₁, h₂, h₃, h₄]
        let (t, left) ← readTo ends open' rest
        some (d :: t, left)
      | 'x' :: _ => none
      | e :: rest => (readTo ends open' rest).map fun (t, left) => (escaped e ++ t, left)
      | [] => none
    else (readTo ends open' rest).map fun (t, left) => (c :: t, left)

/-- Text to the end of the line, without blanks around it. -/
def readLine (cs : List Char) : Option (List Char × List Char) :=
  (readTo ['\n', '\r'] true cs).map fun (t, left) => (trim t, left)

/-- A value, behind its mark: quoted text keeps its blanks and lines, and what follows it belongs
to it. -/
def readValue (cs : List Char) : Option (List Char × List Char) :=
  match cs.dropWhile fun c => isBlank c && !isLineEnd c with
  | [] => some ([], [])
  | c :: rest =>
    if c = '"' ∨ c = '\x27' then do
      let (inner, left) ← readTo [c] false rest
      let (tail, left) ← readLine (left.drop 1)
      some (inner ++ tail, left)
    else readLine (c :: rest)

/-- The rest behind the blanks, and whether it is at the start of a line; `fresh` tells it of what
is given. -/
def skipBlank (fresh : Bool) : List Char → Bool × List Char
  | [] => (fresh, [])
  | c :: rest => if isBlank c then skipBlank (c = '\n') rest else (fresh, c :: rest)

/-- A property in a section, or before all sections. -/
def putProperty (t : Table) (section? : Option String) (key value : String) : Table :=
  let item : Item := .value (.text value) none
  match section? with
  | none => t.put key item
  | some name => t.put name (.table (Table.put (Item.entriesOf (t.find? name)) key item))

/-- What follows in a document, over what `t` holds already. -/
def readEntries : Nat → Bool → Option String → Table → List Char → Option Table
  | 0, _, _, _, _ => none
  | fuel + 1, fresh, section?, t, cs =>
    match skipBlank fresh cs with
    | (_, []) => some t
    | (fresh, c :: rest) =>
      if c = ';' ∨ c = '#' then
        if fresh then readEntries fuel true section? t ((rest.dropWhile (· ≠ '\n')).drop 1)
        else none
      else if c = '[' then do
        let (name, left) ← readTo [']'] false rest
        let name := String.ofList (trim name)
        readEntries fuel false (some name) (t.put name (.table [])) (left.drop 1)
      else do
        let (key, left) ← readTo ['=', ':'] false (c :: rest)
        let key := String.ofList (trim key)
        if key = "" then none
        else
          let (value, left) ← readValue (left.drop 1)
          readEntries fuel false section? (putProperty t section? key (String.ofList value)) left

def read (document : String) : Option Item :=
  let cs := document.toList
  (readEntries (cs.length + 1) true none [] cs).map Item.table

end FtpServer.Settings.Ini
