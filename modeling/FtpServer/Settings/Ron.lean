import FtpServer.Settings.Json
import FtpServer.Text.Digit

/-!
# RON documents

Lists stand in brackets, maps in braces, and structures in parentheses, with a name before them or
without one: such with named fields are maps, others lists.  A key is text or one character.  Marks
in front of the document may allow `Some` without parentheses.
-/

namespace FtpServer.Settings.Ron

open Text

def isSpace (c : Char) : Bool := c == ' ' || c == '\n' || c == '\t' || c == '\r'

inductive Place
  | code
  | line
  /-- Within this many comments more than one. -/
  | block (outer : Nat)
  deriving DecidableEq, Repr

/-- What follows blanks and comments, from in between them or from within a comment.  A comment
that is not closed leaves its mark. -/
def skip : Place → List Char → List Char
  | .code, '/' :: '/' :: rest => skip .line rest
  | .code, '/' :: '*' :: rest => skip (.block 0) rest
  | .code, c :: rest => if isSpace c then skip .code rest else c :: rest
  | .line, c :: rest => skip (if c = '\n' then .code else .line) rest
  | .block outer, '/' :: '*' :: rest => skip (.block (outer + 1)) rest
  | .block outer, '*' :: '/' :: rest =>
    match outer with
    | 0 => skip .code rest
    | outer + 1 => skip (.block outer) rest
  | .block outer, _ :: rest => skip (.block outer) rest
  | .block _, [] => ['/']
  | _, [] => []

abbrev skipSpace : List Char → List Char := skip .code

/-- What is left behind `word` and the blanks after it. -/
def expect (word : String) (cs : List Char) : Option (List Char) :=
  (Json.readWord word cs).map skipSpace

def startsName (c : Char) : Bool := c.isAlpha || c == '_'

def isNameChar (c : Char) : Bool := c.isAlphanum || c == '_'

def isMarkedNameChar (c : Char) : Bool := isNameChar c || c == '.' || c == '+' || c == '-'

/-- A name; one behind `r#` may have more characters.  Text behind `r` is no name. -/
def readName (cs : List Char) : Option (List Char × List Char) :=
  match cs with
  | 'r' :: '"' :: _ => none
  | 'r' :: '#' :: rest =>
    let name := rest.takeWhile isMarkedNameChar
    if name = [] then none else some (name, rest.drop name.length)
  | ['r'] => none
  | c :: _ =>
    let name := cs.takeWhile isNameChar
    if startsName c then some (name, cs.drop name.length) else none
  | [] => none

/-- What is left behind a word that no name goes on with. -/
def readWord (word : String) (cs : List Char) : Option (List Char) :=
  (Json.readWord word cs).filter fun rest => !(rest.head?.map isNameChar).getD false

/-- A character in braces by its number of one to six hexadecimal digits. -/
def readCharNumber (cs : List Char) : Option (Char × List Char) := do
  let cs ← Json.readWord "\x7b" cs
  let run := (cs.take 6).takeWhile (· ≠ '\x7d')
  let n := valueIn 16 (← run.mapM hexValue)
  let left ← Json.readWord "\x7d" (cs.drop run.length)
  if run ≠ [] ∧ n.isValidChar then some (Char.ofNat n, left) else none

def readEscape (cs : List Char) : Option (Char × List Char) :=
  match cs with
  | '\x27' :: rest => some ('\x27', rest)
  | '"' :: rest => some ('"', rest)
  | '\\' :: rest => some ('\\', rest)
  | 'n' :: rest => some ('\n', rest)
  | 'r' :: rest => some ('\r', rest)
  | 't' :: rest => some ('\t', rest)
  | 'x' :: h₁ :: h₂ :: rest => do
    let ds ← [h₁, h₂].mapM hexValue
    some (Char.ofNat (valueIn 16 ds), rest)
  | 'u' :: rest => readCharNumber rest
  | _ => none

def readText : Nat → List Char → Option (List Char × List Char)
  | 0, _ => none
  | _, [] => none
  | _, '"' :: rest => some ([], rest)
  | fuel + 1, '\\' :: rest => do
    let (c, left) ← readEscape rest
    let (t, left) ← readText fuel left
    some (c :: t, left)
  | fuel + 1, c :: rest => (readText fuel rest).map fun (t, left) => (c :: t, left)

def readRaw (closing : List Char) : List Char → Option (List Char × List Char)
  | [] => none
  | c :: rest =>
    if closing.isPrefixOf (c :: rest) then some ([], (c :: rest).drop closing.length)
    else (readRaw closing rest).map fun (t, left) => (c :: t, left)

/-- Text behind `r`, between quotes with as many hashes around them as at its front. -/
def readRawText (cs : List Char) : Option (List Char × List Char) := do
  let hashes := cs.takeWhile (· = '#')
  let cs ← Json.readWord "\"" (cs.drop hashes.length)
  readRaw ('"' :: hashes) cs

def readChar (cs : List Char) : Option (Char × List Char) := do
  let (c, left) ← match cs with
    | '\\' :: rest => readEscape rest
    | '\x27' :: _ => none
    | c :: rest => some (c, rest)
    | [] => none
  match left with
  | '\x27' :: left => some (c, left)
  | _ => none

/-- Digits with underscores among them, in the base that the front shows; none stands first. -/
def readNatural (cs : List Char) : Option (Nat × List Char) := do
  let (radix, cs) := match cs with
    | '0' :: 'x' :: rest => (16, rest)
    | '0' :: 'b' :: rest => (2, rest)
    | '0' :: 'o' :: rest => (8, rest)
    | cs => (10, cs)
  let run := cs.takeWhile fun c => (hexValue c).isSome || c == '_'
  let ds ← (run.filter (· ≠ '_')).mapM (digitIn radix)
  if run = [] ∨ run.head? = some '_' then none else some (valueIn radix ds, cs.drop run.length)

def isFloatingChar (c : Char) : Bool :=
  isDigit c || c == 'e' || c == 'E' || c == '.' || c == '+' || c == '-' || c == '_'

def readFloating (cs : List Char) : Option (Datum × List Char) :=
  let run := cs.takeWhile isFloatingChar
  (Floating.read run).map fun x => (.floating x, cs.drop run.length)

/-- Whether a numeral without its sign is no whole number at first sight. -/
def looksFloating (cs : List Char) : Bool :=
  (cs.takeWhile fun c => (hexValue c).isSome || c == '_').length
    < (cs.takeWhile isFloatingChar).length

/-- A whole number with a sign is a word of 64 bits with a sign; without one it is a double where
it does not fit such a word, but fits one without a sign. -/
def readWhole (cs : List Char) : Option (Datum × List Char) :=
  let signed (negative : Bool) (rest : List Char) : Option (Datum × List Char) := do
    let (n, left) ← readNatural rest
    let n ← signedWord? (if negative then -Int.ofNat n else n)
    some (.integer n, left)
  match cs with
  | '+' :: rest => signed false rest
  | '-' :: rest => signed true rest
  | cs => do
    let (n, left) ← readNatural cs
    if n < UInt64.size then
      some ((((signedWord? n).map .integer).getD (.floating (Floating.nearest n 0))), left)
    else none

/-- What cannot be read as a whole number is read as a double. -/
def readNumber (cs : List Char) : Option (Datum × List Char) :=
  let unsigned := match cs with
    | '+' :: rest | '-' :: rest => rest
    | cs => cs
  if looksFloating unsigned then readFloating cs
  else (readWhole cs).or (readFloating cs)

def readNamed (cs : List Char) : Option (Datum × List Char) :=
  [("true", Datum.boolean true), ("false", .boolean false), ("None", .nothing),
    ("inf", .floating Floating.infinity), ("-inf", .floating (-Floating.infinity)),
    ("NaN", .floating Floating.notANumber)].findSome? fun (word, d) =>
      (readWord word cs).map fun left => (d, left)

def readPlain (cs : List Char) : Option (Datum × List Char) :=
  match cs with
  | '"' :: rest => (readText rest.length rest).map fun (t, left) => (.text (String.ofList t), left)
  | 'r' :: rest => (readRawText rest).map fun (t, left) => (.text (String.ofList t), left)
  | '\x27' :: rest => (readChar rest).map fun (c, left) => (.text (String.ofList [c]), left)
  | '.' :: _ => readFloating cs
  | c :: _ => if isDigit c ∨ c = '+' ∨ c = '-' then readNumber cs else none
  | [] => none

/-- Whether the fields behind an opening parenthesis have names. -/
def hasNames (cs : List Char) : Bool :=
  match readName cs with
  | some (_, rest) => (skipSpace rest).head? = some ':'
  | none => false

/-- The key of an entry: text, or one character. -/
def readKey (cs : List Char) : Option (String × List Char) :=
  match readPlain cs with
  | some (.text s, left) => some (s, left)
  | _ => none

/-- What follows blanks and at most one comma among them. -/
def skipComma (cs : List Char) : List Char :=
  match skipSpace cs with
  | ',' :: rest => skipSpace rest
  | cs => cs

mutual

/-- A value; `bare` allows `Some` without parentheses. -/
def readValue (bare : Bool) : Nat → List Char → Option (Item × List Char)
  | 0, _ => none
  | fuel + 1, cs =>
    match readNamed cs, readWord "Some" cs, Json.readWord "()" cs with
    | some (d, left), _, _ => some (.value d none, left)
    | none, some rest, _ =>
      match skipSpace rest with
      | '(' :: rest => do
        let (item, left) ← readValue bare fuel (skipSpace rest)
        match skipComma left with
        | ')' :: left => some (item, left)
        | _ => none
      | rest => if bare then readValue bare fuel rest else none
    | none, none, some left => some (.value .nothing none, left)
    | none, none, none =>
      match readName cs, cs with
      | some (_, rest), _ =>
        match skipSpace rest with
        | '(' :: inner => readFields bare fuel (skipSpace inner)
        | left => some (.value .nothing none, left)
      | none, '(' :: inner => readFields bare fuel (skipSpace inner)
      | none, '[' :: rest => (readElements bare fuel ']' (skipSpace rest)).map fun left =>
          (.value .list none, left)
      | none, '\x7b' :: rest => (readEntries bare fuel [] (skipSpace rest)).map fun (es, left) =>
          (.table es, left)
      | none, cs => (readPlain cs).map fun (d, left) => (.value d none, left)

/-- What stands in parentheses: fields with names, or elements. -/
def readFields (bare : Bool) : Nat → List Char → Option (Item × List Char)
  | 0, _ => none
  | fuel + 1, cs =>
    if hasNames cs then
      (readNamedFields bare fuel [] cs).map fun (es, left) => (.table es, left)
    else (readElements bare fuel ')' cs).map fun left => (.value .list none, left)

/-- Elements from the next one, or from the end of the list. -/
def readElements (bare : Bool) : Nat → Char → List Char → Option (List Char)
  | 0, _, _ => none
  | fuel + 1, closing, cs =>
    if cs.head? = some closing then some (cs.drop 1)
    else do
      let (_, left) ← readValue bare fuel cs
      match skipSpace left with
      | ',' :: rest => readElements bare fuel closing (skipSpace rest)
      | c :: rest => if c = closing then some rest else none
      | [] => none

/-- The fields after those in `es`, from the next one or from the end. -/
def readNamedFields (bare : Bool) : Nat → Table → List Char → Option (Table × List Char)
  | 0, _, _ => none
  | _, es, ')' :: rest => some (es, rest)
  | fuel + 1, es, cs => do
    let (name, left) ← readName cs
    let rest ← expect ":" (skipSpace left)
    let (item, left) ← readValue bare fuel rest
    let es := es.put (String.ofList name) item
    match skipSpace left with
    | ',' :: rest => readNamedFields bare fuel es (skipSpace rest)
    | ')' :: rest => some (es, rest)
    | _ => none

/-- The entries after those in `es`, from the next one or from the end. -/
def readEntries (bare : Bool) : Nat → Table → List Char → Option (Table × List Char)
  | 0, _, _ => none
  | _, es, '\x7d' :: rest => some (es, rest)
  | fuel + 1, es, cs => do
    let (key, left) ← readKey cs
    let rest ← expect ":" (skipSpace left)
    let (item, left) ← readValue bare fuel rest
    let es := es.put key item
    match skipSpace left with
    | ',' :: rest => readEntries bare fuel es (skipSpace rest)
    | '\x7d' :: rest => some (es, rest)
    | _ => none

end

/-- Names between parentheses, perhaps with a comma behind the last. -/
def readMarkNames : Nat → List Char → Option (List String × List Char)
  | 0, _ => none
  | fuel + 1, cs => do
    let (name, left) ← readName cs
    let name := String.ofList name
    match skipSpace left with
    | ',' :: rest =>
      match skipSpace rest with
      | ')' :: rest => some ([name], rest)
      | rest => (readMarkNames fuel rest).map fun (names, left) => (name :: names, left)
    | ')' :: rest => some ([name], rest)
    | _ => none

/-- The names in the marks in front of a document, and what follows them. -/
def readMarks : Nat → List Char → Option (List String × List Char)
  | 0, _ => none
  | fuel + 1, cs =>
    if cs.head? = some '#' then do
      let cs ← expect "#" cs
      let cs ← expect "!" cs
      let cs ← expect "[" cs
      let cs ← expect "enable" cs
      let cs ← expect "(" cs
      let (names, left) ← readMarkNames cs.length cs
      let cs ← expect "]" (skipSpace left)
      let (more, left) ← readMarks fuel cs
      some (names ++ more, left)
    else some ([], cs)

def bareMark : String := "implicit_some"

def knownMarks : List String := [bareMark, "unwrap_newtypes"]

def read (document : String) : Option Item := do
  let cs := document.toList
  let (marks, cs) ← readMarks (cs.length + 1) (skipSpace cs)
  let (item, left) ← readValue (marks.contains bareMark) (3 * cs.length + 3) cs
  if marks.all knownMarks.contains ∧ skipSpace left = [] then some item else none

end FtpServer.Settings.Ron
