import FtpServer.Text.Decimal
import FtpServer.Text.Split

/-!
# What is wrong with a written pattern

A fault has a cause and stands somewhere in the text.  Its message shows the text with the place
marked below.
-/

namespace FtpServer.Pattern

open Text

/-- Where a character stands; lines and columns are counted from one. -/
structure Position where
  line : Nat
  column : Nat
  deriving DecidableEq, Repr

namespace Position

def origin : Position := ⟨1, 1⟩

def past (p : Position) (c : Char) : Position :=
  if c = '\n' then ⟨p.line + 1, 1⟩ else ⟨p.line, p.column + 1⟩

def isBefore (p q : Position) : Bool :=
  p.line < q.line || (p.line == q.line && p.column < q.column)

end Position

structure Span where
  first : Position
  last : Position
  deriving DecidableEq, Repr

namespace Span

def isOneLine (s : Span) : Bool := s.first.line == s.last.line

def width (s : Span) : Nat := max 1 (s.last.column - s.first.column)

def describe (s : Span) : String :=
  "on line " ++ ofNat s.first.line ++ " (column " ++ ofNat s.first.column ++ ") through line "
    ++ ofNat s.last.line ++ " (column " ++ ofNat (s.last.column - 1) ++ ")"

def ordered (a : Span) (b : Option Span) : List Span :=
  match b with
  | none => [a]
  | some b => if b.first.isBefore a.first then [b, a] else [a, b]

end Span

/-- How deep groups, repetitions, alternatives and sets may lie in each other. -/
def depthLimit : Nat := 250

inductive Cause
  -- sets
  | setEscape
  | setRange
  | setRangeBoundary
  | setUnclosed
  -- escapes
  | hexEmpty
  | hexNoCharacter
  | hexDigit
  | escapeUnfinished
  | escapeUnknown
  | backreference
  | propertyMalformed
  | wordEdgeUnclosed
  | wordEdgeUnknown
  | wordEdgeUnfinished
  -- flags
  | flagNegationDangling
  | flagTwice
  | flagNegationTwice
  | flagMissing
  | flagUnknown
  -- groups
  | nameTwice
  | nameEmpty
  | nameCharacter
  | nameUnclosed
  | groupUnclosed
  | groupUnopened
  | lookAround
  | tooDeep
  -- repetitions
  | countOrder
  | countTooLarge
  | countMissing
  | countUnclosed
  | repetitionOfNothing
  -- meanings
  | invalidText
  | wideNotAllowed
  | propertyUnknown
  | propertyValueUnknown
  | wideSetUnknown
  | wideCaseUnknown
  deriving DecidableEq, Repr

def Cause.message : Cause → String
  | setEscape => "invalid escape sequence found in character class"
  | setRange => "invalid character class range, the start must be <= the end"
  | setRangeBoundary => "invalid range boundary, must be a literal"
  | setUnclosed => "unclosed character class"
  | hexEmpty => "hexadecimal literal empty"
  | hexNoCharacter => "hexadecimal literal is not a Unicode scalar value"
  | hexDigit => "invalid hexadecimal digit"
  | escapeUnfinished => "incomplete escape sequence, reached end of pattern prematurely"
  | escapeUnknown => "unrecognized escape sequence"
  | backreference => "backreferences are not supported"
  | propertyMalformed => "invalid Unicode character class"
  | wordEdgeUnclosed =>
    "special word boundary assertion is either unclosed or contains an invalid character"
  | wordEdgeUnknown =>
    "unrecognized special word boundary assertion, valid choices are: start, end, start-half "
      ++ "or end-half"
  | wordEdgeUnfinished =>
    "found either the beginning of a special word boundary or a bounded repetition on a \\b "
      ++ "with an opening brace, but no closing brace"
  | flagNegationDangling => "dangling flag negation operator"
  | flagTwice => "duplicate flag"
  | flagNegationTwice => "flag negation operator repeated"
  | flagMissing => "expected flag but got end of regex"
  | flagUnknown => "unrecognized flag"
  | nameTwice => "duplicate capture group name"
  | nameEmpty => "empty capture group name"
  | nameCharacter => "invalid capture group character"
  | nameUnclosed => "unclosed capture group name"
  | groupUnclosed => "unclosed group"
  | groupUnopened => "unopened group"
  | lookAround => "look-around, including look-ahead and look-behind, is not supported"
  | tooDeep =>
    "exceed the maximum number of nested parentheses/brackets (" ++ Text.ofNat depthLimit ++ ")"
  | countOrder => "invalid repetition count range, the start must be <= the end"
  | countTooLarge => "decimal literal invalid"
  | countMissing => "repetition quantifier expects a valid decimal"
  | countUnclosed => "unclosed counted repetition"
  | repetitionOfNothing => "repetition operator missing expression"
  | invalidText => "pattern can match invalid UTF-8"
  | wideNotAllowed => "Unicode not allowed here"
  | propertyUnknown => "Unicode property not found"
  | propertyValueUnknown => "Unicode property value not found"
  | wideSetUnknown =>
    "Unicode-aware Perl class not found (make sure the unicode-perl feature is enabled)"
  | wideCaseUnknown =>
    "Unicode-aware case insensitivity matching is not available "
      ++ "(make sure the unicode-case feature is enabled)"

/-- A cause and where it shows; `other` is the place that it is at odds with. -/
structure Fault where
  cause : Cause
  span : Span
  other : Option Span
  deriving DecidableEq, Repr

def blanks (n : Nat) : List Char := List.replicate n ' '

/-- Marks below a line for the spans in it, from `column` on. -/
def marksBelow (column : Nat) : List Span → List Char
  | [] => []
  | s :: rest =>
    blanks (s.first.column - column) ++ List.replicate s.width '^'
      ++ marksBelow (max column s.first.column + s.width) rest

/-- The lines of a text.  The last one is left out if it is empty; a carriage return before a line
end belongs to it. -/
def linesOf (text : List Char) : List (List Char) :=
  let pieces := split '\n' text
  let ended := pieces.dropLast.map fun line =>
    if line.getLast? = some '\r' then line.dropLast else line
  match pieces.getLast? with
  | some [] | none => ended
  | some last => ended ++ [last]

/-- The lines behind `number` with what leads them and marks below.  Lines have their numbers, which
take `width` columns, if there are more than one. -/
def annotated (width : Nat) (spans : List Span) (number : Nat) :
    List (List Char) → List (List Char)
  | [] => []
  | line :: rest =>
    let number := number + 1
    let front := if width = 0 then blanks 4 else padLeft width (digits number) ++ [':', ' ']
    let here := spans.filter fun s => s.isOneLine && s.first.line == number
    let below := if here = [] then [] else [blanks front.length ++ marksBelow 1 here]
    (front ++ line) :: below ++ annotated width spans number rest

def divider : List Char := List.replicate 79 '~'

def Fault.lines (f : Fault) (text : List Char) : List (List Char) :=
  let spans := Span.ordered f.span f.other
  let lines := linesOf text
  let count := lines.length + if text.getLast? = some '\n' then 1 else 0
  let shown := annotated (if count ≤ 1 then 0 else (digits count).length) spans 0 lines
  let last := ("error: " ++ f.cause.message).toList
  let wide := (spans.filter fun s => !s.isOneLine).map fun s => s.describe.toList
  if text.contains '\n' then
    "regex parse error:".toList :: divider :: shown ++ divider :: wide ++ [last]
  else "regex parse error:".toList :: shown ++ [last]

def Fault.message (f : Fault) (text : List Char) : String :=
  String.ofList (join '\n' (f.lines text))

end FtpServer.Pattern
