import FtpServer.Settings.Toml.Moment
import FtpServer.Settings.Toml.Number
import FtpServer.Settings.Toml.Token

/-!
# TOML documents

A document is a table: keys with values, and below each header the keys of the table or of the
list element it names.  A key is given once.  Tables made by keys with points in them are closed to
headers and to other sections, and values that are tables are closed to all.  A table whose first
key is `momentKey` is no table, but the date or time that this key has as text.
-/

namespace FtpServer.Settings.Toml

inductive Part
  | settled (item : Item)
  | moment (m : Moment)
  | list (elements : List Part)
  /-- A value that is a table. -/
  | braced (parts : List (String × Part))
  /-- Made by keys with points; open to further ones of the same section. -/
  | dotted (parts : List (String × Part))
  /-- Named by headers; `declared` once one of them named the table itself. -/
  | section' (declared : Bool) (parts : List (String × Part))
  /-- A list of tables; the last element is the only one still open. -/
  | sections (before : List Part) (last : List (String × Part))
  deriving Inhabited

abbrev Parts := List (String × Part)

namespace Parts

def find? : Parts → String → Option Part
  | [], _ => none
  | (k, part) :: rest, key => if k = key then some part else find? rest key

def put : Parts → String → Part → Parts
  | [], key, part => [(key, part)]
  | (k, old) :: rest, key, part => if k = key then (key, part) :: rest else (k, old) :: put rest key part

/-- `value` under a key of one or more parts, if nothing stands in its way. -/
def add (value : Part) : Parts → List String → Option Parts
  | _, [] => none
  | ps, [k] => if (ps.find? k).isSome then none else some (ps.put k value)
  | ps, k :: ks =>
    match ps.find? k with
    | none => (add value [] ks).map fun inner => ps.put k (.dotted inner)
    | some (.dotted inner) => (add value inner ks).map fun inner => ps.put k (.dotted inner)
    | some _ => none

def disjoint (a b : Parts) : Bool := b.all fun (k, _) => (a.find? k).isNone

/-- The section that a header opens, with the parts given below it; `list` for an element of a
list. -/
def declare (list : Bool) (own : Parts) : Parts → List String → Option Parts
  | _, [] => none
  | ps, [k] =>
    match ps.find? k, list with
    | none, true => some (ps.put k (.sections [] own))
    | none, false => some (ps.put k (.section' true own))
    | some (.section' false inner), false =>
      if disjoint inner own then some (ps.put k (.section' true (inner ++ own))) else none
    | some (.sections before last), true =>
      some (ps.put k (.sections (before ++ [.section' true last]) own))
    | _, _ => none
  | ps, k :: ks =>
    match ps.find? k with
    | none => (declare list own [] ks).map fun inner => ps.put k (.section' false inner)
    | some (.section' declared inner) =>
      (declare list own inner ks).map fun inner => ps.put k (.section' declared inner)
    | some (.sections before last) =>
      (declare list own last ks).map fun last => ps.put k (.sections before last)
    | some _ => none

end Parts

def momentKey : String := "$__toml_private_datetime"

def Part.ofMoment? (text : String) : Option Item :=
  (readMoment text.toList).map fun m => .value (.text m.text) none

/-- Whether headers of their own follow in what is a moment by its first key. -/
def Parts.goOn : Parts → Bool
  | (k, _) :: rest => k = momentKey && rest.any fun (_, part) =>
    match part with
    | .section' _ _ | .sections _ _ => true
    | _ => false
  | [] => false

mutual

def Part.item? : Part → Option Item
  | .settled item => some item
  | .moment m => some (.value (.text m.text) none)
  | .list elements => do
    let _ ← Parts.items? elements
    some (.value .list none)
  | .braced ps => Parts.item? ps
  | .dotted ps => Parts.item? ps
  | .section' _ ps => if Parts.goOn ps then none else Parts.item? ps
  | .sections before last =>
    if Parts.goOn last then none
    else do
      let _ ← Parts.items? before
      let _ ← Parts.item? last
      some (.value .list none)

def Parts.items? : List Part → Option (List Item)
  | [] => some []
  | part :: rest => do
    let item ← part.item?
    let items ← Parts.items? rest
    some (item :: items)

/-- The table with these parts, or the moment that they stand for. -/
def Parts.item? : List (String × Part) → Option Item
  | [] => some (.table [])
  | (k, part) :: rest =>
    if k = momentKey then
      match part with
      | .settled (.value (.text s) _) => Part.ofMoment? s
      | _ => none
    else do
      let item ← part.item?
      let more ← Parts.table? rest
      some (.table ((k, item) :: more))

def Parts.table? : List (String × Part) → Option Table
  | [] => some []
  | (k, part) :: rest => do
    let item ← part.item?
    let more ← Parts.table? rest
    some ((k, item) :: more)

end

abbrev Tokens := List Token

def skipBlank : Tokens → Tokens
  | .blank _ :: ts => ts
  | ts => ts

/-- Blanks, comments and line ends, where they say nothing. -/
def skipLines : Tokens → Tokens
  | .blank _ :: ts => skipLines ts
  | .comment :: ts => skipLines ts
  | .newline :: ts => skipLines ts
  | ts => ts

def readKeyPart : Tokens → Option (String × Tokens)
  | .word cs :: ts => some (String.ofList cs, ts)
  | .quoted cs false :: ts => some (String.ofList cs, ts)
  | _ => none

def readKey : Nat → Tokens → Option (List String × Tokens)
  | 0, _ => none
  | fuel + 1, ts => do
    let (k, ts) ← readKeyPart ts
    match skipBlank ts with
    | .period :: ts =>
      let (ks, ts) ← readKey fuel (skipBlank ts)
      some (k :: ks, ts)
    | ts => some ([k], ts)

def expect (token : Token) : Tokens → Option Tokens
  | t :: ts => if t = token then some ts else none
  | [] => none

def isDateLike (cs : List Char) : Bool :=
  let exponent (c : Char) : Bool := (Text.split c cs).tail.any fun p => p.head? = some '-'
  cs.any (fun c => c == 'T' || c == 't')
    || ((cs.drop 1).contains '-' && !exponent 'e' && !exponent 'E')

/-- The text of a date or time that starts with `cs`, as it stands in the document; `colon` if a
colon follows that was read already. -/
def momentText (cs : List Char) (colon : Bool) (ts : Tokens) : Option (List Char × Tokens) :=
  let cs := if colon then cs ++ [':'] else cs
  let (cs, ts) :=
    match ts with
    | .blank [' '] :: .word hour :: ts => (cs ++ ' ' :: hour, ts)
    | ts => (cs, ts)
  let timed? :=
    if colon then some (cs, ts)
    else
      match ts with
      | .colon :: ts => some (cs ++ [':'], ts)
      | _ => none
  match timed? with
  | none => some (cs, ts)
  | some (cs, .word minute :: .colon :: .word second :: ts) =>
    let cs := cs ++ minute ++ ':' :: second
    let after (mark : Token) (c : Char) : List Char × Tokens → Option (List Char × Tokens)
      | (cs, t :: ts) =>
        if t = mark then
          match ts with
          | .word w :: ts => some (cs ++ c :: w, ts)
          | _ => none
        else some (cs, t :: ts)
      | (cs, []) => some (cs, [])
    (after .period '.' (cs, ts)).bind fun r => (after .plus '+' r).bind (after .colon ':')
  | some _ => none

def readMomentPart (cs : List Char) (colon : Bool) (ts : Tokens) : Option (Part × Tokens) := do
  let (text, ts) ← momentText cs colon ts
  let m ← readMoment text
  some (.moment m, ts)

def settled (d : Datum) : Part := .settled (.value d none)

/-- An exponent that a plus sign cuts off from the rest of its number. -/
def joinExponent (cs : List Char) (ts : Tokens) : List Char × Tokens :=
  match cs.getLast?, ts with
  | some c, .plus :: .word e :: ts' =>
    if c = 'e' ∨ c = 'E' then (cs ++ '+' :: e, ts') else (cs, ts)
  | _, _ => (cs, ts)

def readNumber (cs : List Char) (ts : Tokens) : Option (Part × Tokens) :=
  let floating (cs : List Char) (ts : Tokens) : Option (Part × Tokens) :=
    let (cs, ts) := joinExponent cs ts
    (readFloating cs).map fun x => (settled (.floating x), ts)
  let based := match cs with
    | '0' :: c :: _ => c = 'x' || c = 'o' || c = 'b'
    | _ => false
  if based then (readInteger cs).map fun n => (settled (.integer n), ts)
  else if cs.any fun c => c == 'e' || c == 'E' then floating cs ts
  else
    match ts with
    | .period :: .word fraction :: ts => floating (cs ++ '.' :: fraction) ts
    | .period :: _ => none
    | ts =>
      match namedFloating? (String.ofList cs) with
      | some x => some (settled (.floating x), ts)
      | none => (readInteger cs).map fun n => (settled (.integer n), ts)

def readWord (cs : List Char) (ts : Tokens) : Option (Part × Tokens) :=
  let numeric := (cs.head?.map fun c => c == '-' || Text.isDigit c).getD false
  let word := String.ofList cs
  if word = "true" then some (settled (.boolean true), ts)
  else if word = "false" then some (settled (.boolean false), ts)
  else if numeric || word == "inf" || word == "nan" then
    if isDateLike cs then readMomentPart cs false ts
    else
      match ts with
      | .colon :: ts => readMomentPart cs true ts
      | ts => readNumber cs ts
  else none

mutual

def readValue : Nat → Tokens → Option (Part × Tokens)
  | 0, _ => none
  | fuel + 1, t :: ts =>
    match t with
    | .quoted cs _ => some (settled (.text (String.ofList cs)), ts)
    | .word cs => readWord cs ts
    | .plus =>
      match ts with
      | .word cs :: ts => readNumber cs ts
      | _ => none
    | .openBrace => do
      let (ps, ts) ← readInline fuel [] (skipBlank ts)
      some (.braced ps, ts)
    | .openBracket => do
      let (elements, ts) ← readList fuel ts
      some (.list elements, ts)
    | _ => none
  | _, [] => none

/-- The entries of a table in braces, after those in `ps`, from the key of one or from the brace
that ends an empty table. -/
def readInline : Nat → Parts → Tokens → Option (Parts × Tokens)
  | 0, _, _ => none
  | fuel + 1, ps, ts =>
    match ps, ts with
    | [], .closeBrace :: ts => some ([], ts)
    | ps, ts => do
      let (key, ts) ← readKey ts.length ts
      let ts ← expect .equals (skipBlank ts)
      let (value, ts) ← readValue fuel (skipBlank ts)
      let ps ← ps.add value key
      match skipBlank ts with
      | .closeBrace :: ts => some (ps, ts)
      | .comma :: ts => readInline fuel ps (skipBlank ts)
      | _ => none

/-- The values of a list to the bracket that ends it. -/
def readList : Nat → Tokens → Option (List Part × Tokens)
  | 0, _ => none
  | fuel + 1, ts =>
    match skipLines ts with
    | .closeBracket :: ts => some ([], ts)
    | ts => do
      let (value, ts) ← readValue fuel ts
      match skipLines ts with
      | .comma :: ts => (readList fuel ts).map fun (more, ts) => (value :: more, ts)
      | .closeBracket :: ts => some ([value], ts)
      | _ => none

end

def readLineEnd (ts : Tokens) : Option Tokens :=
  let ts := match skipBlank ts with
    | .comment :: ts => ts
    | ts => ts
  match ts with
  | .newline :: ts => some ts
  | [] => some []
  | _ => none

structure Section where
  /-- Empty for the keys before the first header. -/
  header : List String
  list : Bool
  own : Parts

def Section.close (s : Section) (document : Parts) : Option Parts :=
  if s.header = [] then some s.own else Parts.declare s.list s.own document s.header

def readHeader (ts : Tokens) : Option (Section × Tokens) := do
  let list := ts.head? = some .openBracket
  let ts := if list then ts.drop 1 else ts
  let (header, ts) ← readKey ts.length (skipBlank ts)
  let ts ← expect .closeBracket (skipBlank ts)
  let ts ← if list then expect .closeBracket ts else some ts
  let ts ← readLineEnd ts
  some (⟨header, list, []⟩, ts)

def readLines : Nat → Parts → Section → Tokens → Option Parts
  | 0, _, _, _ => none
  | fuel + 1, document, s, ts =>
    match skipLines ts with
    | [] => s.close document
    | .openBracket :: ts => do
      let document ← s.close document
      let (s, ts) ← readHeader ts
      readLines fuel document s ts
    | ts => do
      let (key, ts) ← readKey ts.length ts
      let ts ← expect .equals (skipBlank ts)
      let (value, ts) ← readValue ts.length (skipBlank ts)
      let own ← s.own.add value key
      let ts ← readLineEnd ts
      readLines fuel document { s with own } ts

def read (document : String) : Option Item := do
  let ts ← tokens document
  let parts ← readLines (ts.length + 1) [] ⟨[], false, []⟩ ts
  Parts.item? parts

end FtpServer.Settings.Toml
