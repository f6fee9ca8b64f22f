import FtpServer.Text.Decimal
import FtpServer.Text.Digit

/-!
# Tokens of a YAML document

The depth of lines and what may be a key decide together where collections begin and end: a key is
known as one by the colon behind it, so its token, and with it perhaps the start of a mapping, is
put in before tokens that were read already.  Only a line feed begins a new line for the columns.
-/

namespace FtpServer.Settings.Yaml

open Text

inductive Token
  | directive
  | documentStart
  | documentEnd
  | sequenceStart
  | mappingStart
  | blockEnd
  | openBracket
  | closeBracket
  | openBrace
  | closeBrace
  | entry
  | comma
  | key
  | value
  | alias (name : String)
  | anchor (name : String)
  | tag (handle suffix : String)
  | scalar (plain : Bool) (text : List Char)
  deriving DecidableEq, Repr

def isBreak (c : Char) : Bool := c == '\n' || c == '\r'

def isSpace (c : Char) : Bool := c == ' ' || c == '\t'

def isNameChar (c : Char) : Bool := c.isAlphanum || c == '_' || c == '-'

def isFlowMark (c : Char) : Bool := c == ',' || c == '[' || c == ']' || c == '\x7b' || c == '\x7d'

def endsWord : List Char → Bool
  | [] => true
  | c :: _ => isSpace c || isBreak c

def endsLine : List Char → Bool
  | [] => true
  | c :: _ => isBreak c

structure Cursor where
  rest : List Char
  index : Nat
  line : Nat
  column : Nat
  deriving Repr

namespace Cursor

def start (cs : List Char) : Cursor := ⟨cs, 0, 0, 0⟩

def skip (c : Cursor) : Cursor :=
  match c.rest with
  | [] => c
  | d :: rest => if d = '\n' then ⟨rest, c.index + 1, c.line + 1, 0⟩
    else ⟨rest, c.index + 1, c.line, c.column + 1⟩

def advance : Nat → Cursor → Cursor
  | 0, c => c
  | n + 1, c => advance n c.skip

def skipWhile (c : Cursor) (p : Char → Bool) : Cursor := c.advance (c.rest.takeWhile p).length

def skipBreak (c : Cursor) : Cursor :=
  match c.rest with
  | '\r' :: '\n' :: _ => c.skip.skip
  | d :: _ => if isBreak d then c.skip else c
  | [] => c

def skipComment (c : Cursor) : Cursor :=
  if c.rest.head? = some '#' then c.skipWhile (!isBreak ·) else c

/-- Whether a line is `mark` three times, perhaps with more behind it. -/
def atIndicator (c : Cursor) (mark : Char) : Bool :=
  c.column == 0 && c.rest.take 3 == [mark, mark, mark] && endsWord (c.rest.drop 3)

def atDocumentMark (c : Cursor) : Bool := c.atIndicator '-' || c.atIndicator '.'

end Cursor

/-- What a line end and `more` after it in the middle of text come to. -/
def folded (more : Nat) : List Char := if more = 0 then [' '] else List.replicate more '\n'

/-- What was passed since the last character of plain text. -/
inductive Gap
  | spaces (cs : List Char)
  /-- A line end, and further ones. -/
  | breaks (more : Nat)
  deriving DecidableEq, Repr

def Gap.text : Gap → List Char
  | spaces cs => cs
  | breaks more => folded more

def Gap.isBreaks : Gap → Bool
  | spaces _ => false
  | breaks _ => true

/-- Passes blanks and line ends; a tab may not stand in front of text at `indent`. -/
def passGap (indent : Int) : Nat → Gap → Cursor → Option (Gap × Cursor)
  | 0, gap, c => some (gap, c)
  | fuel + 1, gap, c =>
    match c.rest with
    | d :: _ =>
      if isSpace d then
        match gap with
        | .spaces cs => passGap indent fuel (.spaces (cs ++ [d])) c.skip
        | .breaks more =>
          if d = '\t' ∧ (c.column : Int) < indent then none
          else passGap indent fuel (.breaks more) c.skip
      else if isBreak d then
        match gap with
        | .spaces _ => passGap indent fuel (.breaks 0) c.skipBreak
        | .breaks more => passGap indent fuel (.breaks (more + 1)) c.skipBreak
      else some (gap, c)
    | [] => some (gap, c)

/-- Whether a character ends plain text, with what follows it. -/
def endsPlain (flow : Bool) (d : Char) (after : List Char) : Bool :=
  (d == ':' && (endsWord after || (flow && (after.head?.map isFlowMark).getD false)))
    || (flow && isFlowMark d)

/-- Plain text after `text`, whether a line end stands last, and the place behind. -/
def readPlain (flow : Bool) (indent : Int) : Nat → List Char → Gap → Cursor →
    Option (List Char × Bool × Cursor)
  | 0, text, gap, c => some (text, gap.isBreaks, c)
  | fuel + 1, text, gap, c =>
    match c.rest with
    | d :: after =>
      if isSpace d ∨ isBreak d then do
        let (gap, c) ← passGap indent c.rest.length gap c
        if !flow ∧ (c.column : Int) < indent ∨ c.atDocumentMark ∨ c.rest.head? = some '#' then
          some (text, gap.isBreaks, c)
        else readPlain flow indent fuel text gap c
      else if endsPlain flow d after then some (text, gap.isBreaks, c)
      else readPlain flow indent fuel (text ++ gap.text ++ [d]) (.spaces []) c.skip
    | [] => some (text, gap.isBreaks, c)

/-- What a backslash and a character stand for that no number follows. -/
def escaped? : Char → Option Char
  | '0' => some '\x00'
  | 'a' => some '\x07'
  | 'b' => some '\x08'
  | 't' => some '\t'
  | '\t' => some '\t'
  | 'n' => some '\n'
  | 'v' => some '\x0b'
  | 'f' => some '\x0c'
  | 'r' => some '\r'
  | 'e' => some '\x1b'
  | ' ' => some ' '
  | '"' => some '"'
  | '\x27' => some '\x27'
  | '\\' => some '\\'
  | 'N' => some '\u0085'
  | '_' => some '\u00A0'
  | 'L' => some '\u2028'
  | 'P' => some '\u2029'
  | _ => none

/-- How many digits follow a backslash and a character. -/
def escapeWidth? : Char → Option Nat
  | 'x' => some 2
  | 'u' => some 4
  | 'U' => some 8
  | _ => none

/-- What stands behind a backslash: the character and how many are passed. -/
def readEscape (cs : List Char) : Option (Char × Nat) :=
  match cs with
  | [] => none
  | e :: rest =>
    match escapeWidth? e with
    | some width => do
      let ds ← (rest.take width).mapM hexValue
      let n := valueIn 16 ds
      if ds.length = width ∧ n.isValidChar then some (Char.ofNat n, width + 1) else none
    | none => (escaped? e).map fun d => (d, 1)

/-- Blanks and line ends in quoted text: what they come to and the place behind.  After a line end
that was taken away by a backslash only further ones count. -/
def passQuotedGap (taken : Bool) (c : Cursor) : List Char × Cursor :=
  let start : Gap := if taken then .breaks 0 else .spaces []
  match passGap 0 c.rest.length start c with
  | some (.spaces cs, c) => (cs, c)
  | some (.breaks more, c) => (if taken then List.replicate more '\n' else folded more, c)
  | none => ([], c)

/-- Quoted text behind its first quote, after `text`.  The quote itself is written twice in single
quotes. -/
def readQuoted (single : Bool) : Nat → List Char → Cursor → Option (List Char × Cursor)
  | 0, _, _ => none
  | fuel + 1, text, c =>
    if c.atDocumentMark then none
    else
      match c.rest with
      | [] => none
      | d :: after =>
        if isSpace d ∨ isBreak d then
          let (gap, c) := passQuotedGap false c
          readQuoted single fuel (text ++ gap) c
        else if single then
          if d = '\x27' then
            if after.head? = some '\x27' then readQuoted single fuel (text ++ [d]) (c.advance 2)
            else some (text, c.skip)
          else readQuoted single fuel (text ++ [d]) c.skip
        else if d = '"' then some (text, c.skip)
        else if d = '\\' then
          if (after.head?.map isBreak).getD false then
            let (gap, c) := passQuotedGap true c.skip.skipBreak
            readQuoted single fuel (text ++ gap) c
          else do
            let (e, width) ← readEscape after
            readQuoted single fuel (text ++ [e]) (c.advance (width + 1))
        else readQuoted single fuel (text ++ [d]) c.skip

inductive Chomp
  | strip
  | clip
  | keep
  deriving DecidableEq, Repr

structure BlockHeader where
  chomp : Chomp
  /-- How much deeper the text is; `0` leaves it to the text. -/
  increment : Nat
  deriving DecidableEq, Repr

def chompOf? : Char → Option Chomp
  | '+' => some .keep
  | '-' => some .strip
  | _ => none

/-- The marks behind the first one of block text, in either order. -/
def readBlockHeader (c : Cursor) : Option (BlockHeader × Cursor) :=
  let chomp? := c.rest.head?.bind chompOf?
  let c := if chomp?.isSome then c.skip else c
  let digit? := (c.rest.head?.filter isDigit).map digitValue
  let c := if digit?.isSome then c.skip else c
  let late? := if chomp?.isNone ∧ digit?.isSome then c.rest.head?.bind chompOf? else none
  let c := if late?.isSome then c.skip else c
  if digit? = some 0 then none
  else some (⟨(chomp?.or late?).getD .clip, digit?.getD 0⟩, c)

/-- Passes indentation and empty lines: how many line ends, the greatest column, and the place
behind.  Indentation reaches to `indent`, or as far as there are spaces if that is `0`. -/
def passIndent (indent : Nat) : Nat → Nat → Nat → Cursor → Option (Nat × Nat × Cursor)
  | 0, breaks, deepest, c => some (breaks, deepest, c)
  | fuel + 1, breaks, deepest, c =>
    let spaces := (c.rest.takeWhile (· = ' ')).length
    let c := c.advance (if indent = 0 then spaces else min spaces (indent - c.column))
    let deepest := max deepest c.column
    if (indent = 0 ∨ c.column < indent) ∧ c.rest.head? = some '\t' then none
    else if (c.rest.head?.map isBreak).getD false then
      passIndent indent fuel (breaks + 1) deepest c.skipBreak
    else some (breaks, deepest, c)

structure Block where
  text : List Char
  /-- Whether the end of the last line is still to come. -/
  open' : Bool
  /-- Line ends after that one. -/
  more : Nat
  /-- Whether the last line begins with a blank. -/
  indented : Bool
  deriving Repr

def newlines (n : Nat) : List Char := List.replicate n '\n'

/-- The text with what comes before a further line.  In folded text a line end between two lines
that begin with no blank is a space, or nothing before further line ends. -/
def Block.before (b : Block) (literal blank : Bool) : List Char :=
  let gap := if !b.open' then []
    else if literal ∨ b.indented ∨ blank then ['\n']
    else if b.more = 0 then [' '] else []
  b.text ++ gap ++ newlines b.more

def readBlockLines (literal : Bool) (indent : Nat) : Nat → Block → Cursor → Option (Block × Cursor)
  | 0, b, c => some (b, c)
  | fuel + 1, b, c =>
    if c.column = indent ∧ c.rest ≠ [] then
      let blank := (c.rest.head?.map isSpace).getD false
      let line := c.rest.takeWhile (!isBreak ·)
      let text := b.before literal blank ++ line
      let c := c.advance line.length
      if c.rest = [] then some (⟨text, false, 0, blank⟩, c)
      else do
        let c := c.skipBreak
        let (more, _, c) ← passIndent indent c.rest.length 0 0 c
        readBlockLines literal indent fuel ⟨text, true, more, blank⟩ c
    else some (b, c)

def Block.chomped (b : Block) : Chomp → List Char
  | .strip => b.text
  | .clip => b.text ++ newlines (if b.open' then 1 else 0)
  | .keep => b.text ++ newlines (if b.open' then 1 else 0) ++ newlines b.more

/-- Block text behind its first mark, in a collection at column `outer`. -/
def readBlock (literal : Bool) (outer : Int) (c : Cursor) : Option (List Char × Cursor) := do
  let (header, c) ← readBlockHeader c
  let c := (c.skipWhile isSpace).skipComment
  if !endsLine c.rest then none
  else
    let c := c.skipBreak
    let given := if header.increment = 0 then 0
      else (max outer 0).toNat + header.increment
    let (more, deepest, c) ← passIndent given (c.rest.length + 1) 0 0 c
    let indent := if given = 0 then max (max deepest (outer + 1).toNat) 1 else given
    let (b, c) ← readBlockLines literal indent (c.rest.length + 1) ⟨[], false, more, false⟩ c
    some (b.chomped header.chomp, c)

def isAddressChar (c : Char) : Bool :=
  isNameChar c || ";/?:@&=+$,.!~*()[]%".toList.contains c || c == '\x27'

/-- How many octets a character has whose first one is given. -/
def octetCount? (octet : Nat) : Option Nat :=
  if octet < 0x80 then some 1
  else if octet < 0xC0 then none
  else if octet < 0xE0 then some 2
  else if octet < 0xF0 then some 3
  else if octet < 0xF8 then some 4
  else none

def readOctet (cs : List Char) : Option Nat :=
  match cs with
  | '%' :: h₁ :: h₂ :: _ => ([h₁, h₂].mapM hexValue).map (valueIn 16)
  | _ => none

/-- A character by its octets behind percent signs.  The octets are joined as they are. -/
def readOctets (c : Cursor) : Option (Char × Cursor) := do
  let first ← readOctet c.rest
  let count ← octetCount? first
  let others ← (List.range (count - 1)).mapM fun i => readOctet (c.rest.drop (3 * (i + 1)))
  let n := valueIn 256 (first :: others)
  if others.all (fun o => 0x80 ≤ o && o < 0xC0) ∧ n.isValidChar then
    some (Char.ofNat n, c.advance (3 * count))
  else none

def readAddress : Nat → List Char → Cursor → Option (List Char × Cursor)
  | 0, text, c => some (text, c)
  | fuel + 1, text, c =>
    match c.rest with
    | d :: _ =>
      if d = '%' then do
        let (e, c) ← readOctets c
        readAddress fuel (text ++ [e]) c
      else if isAddressChar d then readAddress fuel (text ++ [d]) c.skip
      else some (text, c)
    | [] => some (text, c)

def readHandle (c : Cursor) : Option (List Char × Cursor) :=
  if c.rest.head? = some '!' then
    let name := (c.rest.drop 1).takeWhile isNameChar
    let c := c.advance (name.length + 1)
    if c.rest.head? = some '!' then some ('!' :: name ++ ['!'], c.skip) else some ('!' :: name, c)
  else none

def readTag (c : Cursor) : Option (Token × Cursor) := do
  let (handle, suffix, c) ←
    if c.rest.take 2 = ['!', '<'] then do
      let (suffix, c) ← readAddress c.rest.length [] (c.advance 2)
      if suffix ≠ [] ∧ c.rest.head? = some '>' then some ([], suffix, c.skip) else none
    else do
      let (handle, c) ← readHandle c
      if 2 ≤ handle.length ∧ handle.getLast? = some '!' then do
        let (suffix, c) ← readAddress c.rest.length [] c
        if suffix = [] then none else some (handle, suffix, c)
      else do
        let (suffix, c) ← readAddress c.rest.length (handle.drop 1) c
        some (if suffix = [] then ([], ['!'], c) else (['!'], suffix, c))
  if endsWord c.rest then some (.tag (String.ofList handle) (String.ofList suffix), c) else none

/-- The name behind the mark of an anchor or alias. -/
def readAnchor (c : Cursor) : Option (String × Cursor) :=
  let name := (c.rest.drop 1).takeWhile isNameChar
  let c := c.advance (name.length + 1)
  let ends := endsWord c.rest || (c.rest.head?.map "?:,]\x7d%@`".toList.contains).getD false
  if name ≠ [] ∧ ends then some (String.ofList name, c) else none

def readVersionNumber (c : Cursor) : Option Cursor :=
  let ds := c.rest.takeWhile isDigit
  if ds = [] ∨ 9 < ds.length then none else some (c.advance ds.length)

def readVersion (c : Cursor) : Option Cursor := do
  let c ← readVersionNumber (c.skipWhile isSpace)
  if c.rest.head? = some '.' then readVersionNumber c.skip else none

def readTagDirective (c : Cursor) : Option Cursor := do
  let (handle, c) ← readHandle (c.skipWhile isSpace)
  if handle ≠ ['!'] ∧ handle.getLast? ≠ some '!' then none
  else
    let c := c.skipWhile isSpace
    let (address, c) ← readAddress c.rest.length [] c
    if address ≠ [] ∧ endsWord c.rest then some c else none

/-- A directive, which says nothing that matters, to the end of its line. -/
def readDirective (c : Cursor) : Option Cursor := do
  let name := (c.rest.drop 1).takeWhile isNameChar
  let c := c.advance (name.length + 1)
  if name = [] ∨ !endsWord c.rest then none
  else
    let c ←
      if name = "YAML".toList then readVersion c
      else if name = "TAG".toList then readTagDirective c
      else some (c.skipWhile (!isBreak ·))
    let c := (c.skipWhile isSpace).skipComment
    if endsLine c.rest then some c.skipBreak else none

end FtpServer.Settings.Yaml
