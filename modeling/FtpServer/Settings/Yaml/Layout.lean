import FtpServer.Settings.Yaml.Token

/-!
# The layout of a YAML document

The columns at which lines begin open and close collections.  Whatever may be a key is remembered
until its line ends or its bracket closes.
-/

namespace FtpServer.Settings.Yaml

/-- Where the last word that may be a key began. -/
structure KeyPlace where
  possible : Bool
  /-- Whether nothing else may stand there. -/
  required : Bool
  /-- How many tokens come before it. -/
  number : Nat
  index : Nat
  line : Nat
  column : Nat
  deriving Repr

def KeyPlace.none : KeyPlace := ⟨false, false, 0, 0, 0, 0⟩

structure Layout where
  cursor : Cursor
  /-- The newest first. -/
  tokens : List Token
  /-- One for each open bracket, the innermost first, and one for what is outside of all. -/
  key : KeyPlace
  outerKeys : List KeyPlace
  /-- Whether a key may stand here. -/
  allowed : Bool
  /-- The column of the innermost collection without brackets, and of those around it. -/
  indent : Int
  indents : List Int
  /-- Where the last quoted text ended. -/
  quoteEnd : Nat
  deriving Repr

namespace Layout

def start (cs : List Char) : Layout :=
  ⟨.start cs, [], .none, [], true, -1, [], 0⟩

def flow (s : Layout) : Bool := !s.outerKeys.isEmpty

def push (s : Layout) (t : Token) : Layout := { s with tokens := t :: s.tokens }

def insert (s : Layout) (number : Nat) (t : Token) : Layout :=
  { s with tokens := s.tokens.insertIdx (s.tokens.length - number) t }

def depthLimit : Nat := 255

def keyLength : Nat := 1024

def closeTo (column : Int) : Int → List Int → List Token → Int × List Int × List Token
  | indent, outer :: more, ts =>
    if column < indent then closeTo column outer more (.blockEnd :: ts)
    else (indent, outer :: more, ts)
  | indent, [], ts => (indent, [], ts)

/-- Closes the collections that begin behind `column`. -/
def unroll (s : Layout) (column : Int) : Layout :=
  if s.flow then s
  else
    let (indent, indents, tokens) := closeTo column s.indent s.indents s.tokens
    { s with indent, indents, tokens }

/-- Opens a collection at `column` if it is deeper than the innermost. -/
def roll (s : Layout) (column number : Nat) (t : Token) : Layout :=
  if s.flow ∨ (column : Int) ≤ s.indent then s
  else { s.insert number t with indents := s.indent :: s.indents, indent := column }

def dropKey (s : Layout) : Option Layout :=
  if s.key.possible ∧ s.key.required then none
  else some { s with key := { s.key with possible := false } }

def saveKey (s : Layout) : Option Layout :=
  if s.allowed then do
    let required := s.flow && s.indent == (s.cursor.column : Int)
    let s ← s.dropKey
    let c := s.cursor
    some { s with key := ⟨true, required, s.tokens.length, c.index, c.line, c.column⟩ }
  else some s

/-- A key without what it would be too late for. -/
def KeyPlace.fresh? (c : Cursor) (k : KeyPlace) : Option KeyPlace :=
  if k.possible ∧ (k.line < c.line ∨ k.index + keyLength < c.index) then
    if k.required then Option.none else some { k with possible := false }
  else some k

def freshKeys (s : Layout) : Option Layout := do
  let key ← KeyPlace.fresh? s.cursor s.key
  let outerKeys ← s.outerKeys.mapM (KeyPlace.fresh? s.cursor)
  some { s with key, outerKeys }

/-- Passes blanks, line ends and comments; a new line may begin with a key. -/
def skipBlank : Nat → Layout → Layout
  | 0, s => s
  | fuel + 1, s =>
    match s.cursor.rest with
    | d :: _ =>
      if d = ' ' ∨ (d = '\t' ∧ (s.flow ∨ !s.allowed)) then
        skipBlank fuel { s with cursor := s.cursor.skip }
      else if isBreak d then
        skipBlank fuel { s with cursor := s.cursor.skipBreak, allowed := s.allowed || !s.flow }
      else if d = '#' then skipBlank fuel { s with cursor := s.cursor.skipComment }
      else s
    | [] => s

/-- One token as wide as `width` characters, after which a key may stand if `allowed`. -/
def mark (s : Layout) (width : Nat) (allowed : Bool) (t : Token) : Layout :=
  { s.push t with cursor := s.cursor.advance width, allowed }

def fetchDirective (s : Layout) : Option Layout := do
  let s ← (s.unroll (-1)).dropKey
  let cursor ← readDirective s.cursor
  some { s.push .directive with cursor, allowed := false }

def fetchDocumentMark (s : Layout) (t : Token) : Option Layout := do
  let s ← (s.unroll (-1)).dropKey
  some (s.mark 3 false t)

def fetchOpening (s : Layout) (t : Token) : Option Layout := do
  let s ← s.saveKey
  if depthLimit ≤ s.outerKeys.length then none
  else some { s.mark 1 true t with key := .none, outerKeys := s.key :: s.outerKeys }

def fetchClosing (s : Layout) (t : Token) : Option Layout := do
  let s ← s.dropKey
  let s := s.mark 1 false t
  match s.outerKeys with
  | key :: outerKeys => some { s with key, outerKeys }
  | [] => some s

def fetchComma (s : Layout) : Option Layout := do
  let s ← s.dropKey
  some (s.mark 1 true .comma)

def fetchEntry (s : Layout) : Option Layout :=
  if s.flow ∨ !s.allowed then none
  else do
    let s ← (s.roll s.cursor.column s.tokens.length .sequenceStart).dropKey
    some (s.mark 1 true .entry)

def fetchKey (s : Layout) : Option Layout :=
  if !s.flow ∧ !s.allowed then none
  else do
    let s ← (s.roll s.cursor.column s.tokens.length .mappingStart).dropKey
    some (s.mark 1 (!s.flow) .key)

/-- A colon makes a key of what was remembered as a possible one. -/
def fetchValue (s : Layout) : Option Layout :=
  if s.key.possible then
    let k := s.key
    let s := (s.insert k.number .key).roll k.column k.number .mappingStart
    some ({ s with key := { k with possible := false } }.mark 1 false .value)
  else if !s.flow ∧ !s.allowed then none
  else some ((s.roll s.cursor.column s.tokens.length .mappingStart).mark 1 (!s.flow) .value)

def fetchName (s : Layout) (named : String → Token) : Option Layout := do
  let s ← s.saveKey
  let (name, cursor) ← readAnchor s.cursor
  some { s.push (named name) with cursor, allowed := false }

def fetchTag (s : Layout) : Option Layout := do
  let s ← s.saveKey
  let (tag, cursor) ← readTag s.cursor
  some { s.push tag with cursor, allowed := false }

def fetchBlock (s : Layout) (literal : Bool) : Option Layout := do
  let s ← s.saveKey
  let (text, cursor) ← readBlock literal s.indent s.cursor.skip
  some { s.push (.scalar false text) with cursor, allowed := true }

def fetchQuoted (s : Layout) (single : Bool) : Option Layout := do
  let s ← s.saveKey
  let c := s.cursor.skip
  let (text, cursor) ← readQuoted single (c.rest.length + 1) [] c
  some { s.push (.scalar false text) with cursor, allowed := false, quoteEnd := cursor.index }

def fetchPlain (s : Layout) : Option Layout := do
  let s ← s.saveKey
  let c := s.cursor
  let (text, allowed, cursor) ← readPlain s.flow (s.indent + 1) (c.rest.length + 1) [] (.spaces []) c
  some { s.push (.scalar true text) with cursor, allowed }

/-- The token that begins with `c`, with `after` behind it. -/
def fetch (s : Layout) (c : Char) (after : List Char) : Option Layout :=
  let flowNext := s.flow
    && ((after.head?.map isFlowMark).getD false || s.cursor.index == s.quoteEnd)
  if c = '%' ∧ s.cursor.column = 0 then s.fetchDirective
  else if s.cursor.atIndicator '-' then s.fetchDocumentMark .documentStart
  else if s.cursor.atIndicator '.' then s.fetchDocumentMark .documentEnd
  else
    match c with
    | '[' => s.fetchOpening .openBracket
    | '\x7b' => s.fetchOpening .openBrace
    | ']' => s.fetchClosing .closeBracket
    | '\x7d' => s.fetchClosing .closeBrace
    | ',' => s.fetchComma
    | '*' => s.fetchName .alias
    | '&' => s.fetchName .anchor
    | '!' => s.fetchTag
    | '\x27' => s.fetchQuoted true
    | '"' => s.fetchQuoted false
    | '%' | '@' | '\x60' => none
    | c =>
      if c = '-' ∧ endsWord after then s.fetchEntry
      else if c = '?' ∧ endsWord after then s.fetchKey
      else if c = ':' ∧ (endsWord after ∨ flowNext) then s.fetchValue
      else if c = '|' ∧ !s.flow then s.fetchBlock true
      else if c = '>' ∧ !s.flow then s.fetchBlock false
      else s.fetchPlain

/-- All tokens to the end of the document, the newest first. -/
def run : Nat → Layout → Option (List Token)
  | 0, _ => none
  | fuel + 1, s => do
    let s ← (s.skipBlank s.cursor.rest.length).freshKeys
    let s := s.unroll s.cursor.column
    match s.cursor.rest with
    | [] =>
      let s ← (s.unroll (-1)).dropKey
      some s.tokens
    | c :: after =>
      let s ← s.fetch c after
      run fuel s

end Layout

/-- The tokens of a document, if all of it is made of tokens.  A zero character ends it. -/
def tokens (document : String) : Option (List Token) :=
  let cs := document.toList.takeWhile (· ≠ '\x00')
  (Layout.run (cs.length + 1) (.start cs)).map List.reverse

end FtpServer.Settings.Yaml
