import FtpServer.Text.Digit

/-!
# Tokens of a TOML document

Line ends are line feeds from the start: a carriage return before one is dropped.  A bare word is a
key, a number or a part of a date; which of them is for the reader to say.
-/

namespace FtpServer.Settings.Toml

inductive Token
  | blank (cs : List Char)
  | newline
  | comment
  | equals
  | period
  | comma
  | colon
  | plus
  | openBrace
  | closeBrace
  | openBracket
  | closeBracket
  | word (cs : List Char)
  | quoted (cs : List Char) (multiline : Bool)
  deriving DecidableEq, Repr

def foldLineEnds : List Char → List Char
  | '\r' :: '\n' :: rest => '\n' :: foldLineEnds rest
  | c :: rest => c :: foldLineEnds rest
  | [] => []

def isBlank (c : Char) : Bool := c == ' ' || c == '\t'

def isWordChar (c : Char) : Bool := c.isAlphanum || c == '-' || c == '_'

def isCommentChar (c : Char) : Bool := c == '\t' || ' ' ≤ c

/-- Characters that may stand for themselves in quoted text. -/
def isTextChar (c : Char) : Bool := isCommentChar c && c != '\x7f'

def apostrophe : Char := '\x27'

/-- The character with a number of `width` hexadecimal digits. -/
def readCharNumber (width : Nat) (cs : List Char) : Option (Char × List Char) := do
  let ds ← (cs.take width).mapM Text.hexValue
  let n := Text.valueIn 16 ds
  if ds.length = width ∧ n.isValidChar then some (Char.ofNat n, cs.drop width) else none

def simpleEscape? : Char → Option Char
  | '"' => some '"'
  | '\\' => some '\\'
  | 'b' => some '\x08'
  | 'f' => some '\x0c'
  | 'n' => some '\n'
  | 'r' => some '\r'
  | 't' => some '\t'
  | _ => none

/-- What a backslash before `c` and `rest` stands for, and what is left.  Before the end of a line
of multiline text it stands for nothing and takes all blanks and line ends with it. -/
def readEscape (multiline : Bool) (c : Char) (rest : List Char) :
    Option (List Char × List Char) :=
  if c = 'u' then (readCharNumber 4 rest).map fun (d, rest) => ([d], rest)
  else if c = 'U' then (readCharNumber 8 rest).map fun (d, rest) => ([d], rest)
  else if multiline ∧ (isBlank c ∨ c = '\n') then
    let afterBlanks := if c = '\n' then rest else rest.dropWhile isBlank
    let left := afterBlanks.dropWhile fun c => isBlank c || c == '\n'
    if c = '\n' ∨ afterBlanks = [] ∨ afterBlanks.head? = some '\n' then some ([], left) else none
  else (simpleEscape? c).map fun d => ([d], rest)

/-- The quotes at the end of multiline text belong to it beyond the last three of at most five. -/
def readClosing (quote : Char) (rest : List Char) : Option (List Char × List Char) :=
  let run := (rest.takeWhile (· = quote)).take 4
  if run.length < 2 then none else some (run.drop 2, rest.drop run.length)

def readQuoted (quote : Char) (multiline : Bool) : Nat → List Char →
    Option (List Char × List Char)
  | 0, _ => none
  | _, [] => none
  | fuel + 1, c :: rest =>
    if c = quote then
      if multiline then
        match readClosing quote rest with
        | some closed => some closed
        | none => (readQuoted quote multiline fuel rest).map fun (t, left) => (c :: t, left)
      else some ([], rest)
    else if c = '\n' then
      if multiline then
        (readQuoted quote multiline fuel rest).map fun (t, left) => (c :: t, left)
      else none
    else if c = '\\' ∧ quote = '"' then
      match rest with
      | [] => none
      | e :: rest => do
        let (d, rest) ← readEscape multiline e rest
        let (t, left) ← readQuoted quote multiline fuel rest
        some (d ++ t, left)
    else if isTextChar c then
      (readQuoted quote multiline fuel rest).map fun (t, left) => (c :: t, left)
    else none

/-- The token of text in quotes, behind the first of them. -/
def readQuotedToken (quote : Char) (cs : List Char) : Option (Token × List Char) :=
  if cs.take 2 = [quote, quote] then
    let body := cs.drop 2
    let body := if body.head? = some '\n' then body.drop 1 else body
    (readQuoted quote true body.length body).map fun (t, rest) => (.quoted t true, rest)
  else
    (readQuoted quote false cs.length cs).map fun (t, rest) => (.quoted t false, rest)

def readToken (c : Char) (rest : List Char) : Option (Token × List Char) :=
  match c with
  | '\n' => some (.newline, rest)
  | '=' => some (.equals, rest)
  | '.' => some (.period, rest)
  | ',' => some (.comma, rest)
  | ':' => some (.colon, rest)
  | '+' => some (.plus, rest)
  | '{' => some (.openBrace, rest)
  | '}' => some (.closeBrace, rest)
  | '[' => some (.openBracket, rest)
  | ']' => some (.closeBracket, rest)
  | '#' => some (.comment, rest.dropWhile isCommentChar)
  | '"' => readQuotedToken '"' rest
  | c =>
    if c = apostrophe then readQuotedToken apostrophe rest
    else if isBlank c then some (.blank (c :: rest.takeWhile isBlank), rest.dropWhile isBlank)
    else if isWordChar c then
      some (.word (c :: rest.takeWhile isWordChar), rest.dropWhile isWordChar)
    else none

def readTokens : Nat → List Char → Option (List Token)
  | _, [] => some []
  | 0, _ => none
  | fuel + 1, c :: rest => do
    let (token, rest) ← readToken c rest
    let tokens ← readTokens fuel rest
    some (token :: tokens)

/-- The tokens of a document, if all of it is made of tokens.  A byte order mark before it is no
part of it. -/
def tokens (document : String) : Option (List Token) :=
  let cs := foldLineEnds document.toList
  let cs := if cs.head? = some '\uFEFF' then cs.drop 1 else cs
  readTokens cs.length cs

end FtpServer.Settings.Toml
