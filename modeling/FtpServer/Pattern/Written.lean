import FtpServer.Pattern
import FtpServer.Pattern.Fault

/-!
# Patterns as they are written

The shape of a regular expression, with the spans of its parts.
-/

namespace FtpServer.Pattern

inductive Flag
  | caseless
  | multiline
  | dotAll
  | lazy
  | wide
  /-- Carriage returns end lines. -/
  | returns
  /-- Blanks and comments mean nothing. -/
  | loose
  deriving DecidableEq, Repr

abbrev Changes := List (Flag × Bool)

/-- A character; `isByte` if it is written with two hexadecimal digits. -/
structure Literal where
  span : Span
  char : Char
  isByte : Bool
  deriving DecidableEq, Repr

inductive Kind
  | digit
  | space
  | word
  deriving DecidableEq, Repr

/-- A condition on a place, as far as no flags decide. -/
inductive Anchor
  | lineStart
  | lineStop
  | start
  | stop
  | word (w : WordEdge)
  deriving DecidableEq, Repr

/-- What is written with one sign or one escape. -/
inductive Primitive
  | literal (l : Literal)
  | dot (span : Span)
  | anchor (span : Span) (a : Anchor)
  | kind (span : Span) (k : Kind) (negated : Bool)
  | property (span : Span) (name : List Char)
  deriving DecidableEq, Repr

def Primitive.span : Primitive → Span
  | literal l => l.span
  | dot s | anchor s _ | kind s _ _ | property s _ => s

inductive Combination
  | common
  | without
  | apart
  deriving DecidableEq, Repr

inductive WrittenSet
  | empty (span : Span)
  | primitive (p : Primitive)
  | range (span : Span) (first last : Literal)
  /-- A set with a name. -/
  | named (span : Span) (members : CharSet) (negated : Bool)
  | bracketed (span : Span) (negated : Bool) (inner : WrittenSet)
  | union (span : Span) (parts : List WrittenSet)
  | combined (span : Span) (c : Combination) (left right : WrittenSet)

namespace WrittenSet

def span : WrittenSet → Span
  | empty s | range s _ _ | named s _ _ | bracketed s _ _ | union s _ | combined s _ _ _ => s
  | primitive p => p.span

def ofParts (span : Span) (parts : List WrittenSet) : WrittenSet :=
  match parts with
  | [] => empty span
  | [part] => part
  | parts => union span parts

end WrittenSet

inductive Written
  | empty
  | flags (changes : Changes)
  | primitive (p : Primitive)
  | bracketed (span : Span) (negated : Bool) (inner : WrittenSet)
  | repetition (span : Span) (inner : Written) (least : Nat) (most : Option Nat)
  | group (span : Span) (changes : Changes) (inner : Written)
  | alternatives (span : Span) (branches : List Written)
  | sequence (span : Span) (parts : List Written)

namespace Written

/-- The span, where there is something that can be repeated. -/
def span? : Written → Option Span
  | empty | flags _ => none
  | primitive p => some p.span
  | bracketed s _ _ | repetition s _ _ _ | group s _ _ | alternatives s _ | sequence s _ => some s

def ofParts (span : Span) (parts : List Written) : Written :=
  match parts with
  | [] => empty
  | [part] => part
  | parts => sequence span parts

end Written

/-- The span of the first part that has `room` parts or more around it; `deeper` looks into it. -/
def tooDeepAt (room : Nat) (span : Span) (deeper : Nat → Option Span) : Option Span :=
  match room with
  | 0 => some span
  | room + 1 => deeper room

mutual

def WrittenSet.tooDeep? (room : Nat) : WrittenSet → Option Span
  | .empty _ | .primitive _ | .range _ _ _ | .named _ _ _ => none
  | .bracketed span _ inner => tooDeepAt room span fun room => inner.tooDeep? room
  | .union span parts => tooDeepAt room span fun room => tooDeepSet? room parts
  | .combined span _ left right =>
    tooDeepAt room span fun room => (left.tooDeep? room).or (right.tooDeep? room)

def tooDeepSet? (room : Nat) : List WrittenSet → Option Span
  | [] => none
  | part :: rest => (part.tooDeep? room).or (tooDeepSet? room rest)

end

mutual

/-- The span of the first part that lies too deep, if there is room for `room` parts in each
other. -/
def Written.tooDeep? (room : Nat) : Written → Option Span
  | .empty | .flags _ | .primitive _ => none
  | .bracketed span _ inner => tooDeepAt room span fun room => inner.tooDeep? room
  | .repetition span inner _ _ | .group span _ inner =>
    tooDeepAt room span fun room => inner.tooDeep? room
  | .alternatives span parts | .sequence span parts =>
    tooDeepAt room span fun room => tooDeepIn? room parts

def tooDeepIn? (room : Nat) : List Written → Option Span
  | [] => none
  | part :: rest => (part.tooDeep? room).or (tooDeepIn? room rest)

end

end FtpServer.Pattern
