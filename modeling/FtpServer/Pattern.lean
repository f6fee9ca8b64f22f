import FtpServer.Text.Letter

/-!
# Patterns of text

What a regular expression means.  The places of a text lie before each of its characters and behind
the last one; a set of places is a list of marks, one for each.  `Pattern.reach` leads from the
places at which something may begin to those at which it may end.
-/

namespace FtpServer

open Text

inductive CharSet
  /-- The numbers within bounds. -/
  | within (bounds : List Nat)
  | union (a b : CharSet)
  | common (a b : CharSet)
  | without (a b : CharSet)
  /-- What is in one of two sets, but not in both. -/
  | apart (a b : CharSet)
  | outside (a : CharSet)
  /-- With every ASCII letter also the same letter in the other case. -/
  | caseless (a : CharSet)
  deriving DecidableEq, Repr

namespace CharSet

def between (first last : Char) : CharSet := .within [first.toNat, last.toNat + 1]

def single (c : Char) : CharSet := between c c

def empty : CharSet := .within []

/-- The number of an ASCII letter in the other case, and any other number itself. -/
def otherCase (n : Nat) : Nat :=
  if isInside n [65, 91] then n + 32 else if isInside n [97, 123] then n - 32 else n

def has : CharSet → Nat → Bool
  | within bounds, n => isInside n bounds
  | union a b, n => a.has n || b.has n
  | common a b, n => a.has n && b.has n
  | without a b, n => a.has n && !b.has n
  | apart a b, n => a.has n != b.has n
  | outside a, n => !a.has n
  | caseless a, n => a.has n || a.has (otherCase n)

@[simp] theorem has_empty (n : Nat) : empty.has n = false := rfl

/-- Any character that ends no line; a carriage return ends one if `returns` is set. -/
def inLine (returns : Bool) : CharSet :=
  .outside (if returns then .union (single '\n') (single '\r') else single '\n')

def anything : CharSet := .outside empty

end CharSet

inductive WordEdge
  | boundary
  | noBoundary
  | start
  | stop
  /-- Behind no word. -/
  | startHalf
  /-- Before no word. -/
  | stopHalf
  deriving DecidableEq, Repr

def WordEdge.holds (w : WordEdge) (before after : Bool) : Bool :=
  match w with
  | boundary => before != after
  | noBoundary => before == after
  | start => !before && after
  | stop => before && !after
  | startHalf => !before
  | stopHalf => !after

/-- A condition on a place; where `returns` is set, a carriage return ends a line too, alone or with
the line feed behind it. -/
inductive Condition
  | start
  | stop
  | lineStart (returns : Bool)
  | lineStop (returns : Bool)
  /-- An edge of words, which have ASCII characters only unless they are `wide`. -/
  | word (wide : Bool) (w : WordEdge)
  deriving DecidableEq, Repr

def isWordChar (wide : Bool) (c : Char) : Bool :=
  c.isAlphanum || c == '_' || (wide && (isLetter c || isMark c))

/-- Whether a place between two characters fits, where there are any. -/
def Condition.holds (k : Condition) (before after : Option Char) : Bool :=
  match k with
  | start => before.isNone
  | stop => after.isNone
  | lineStart returns =>
    before.isNone || before == some '\n' || (returns && before == some '\r' && after != some '\n')
  | lineStop returns =>
    after.isNone || (after == some '\n' && !(returns && before == some '\r'))
      || (returns && after == some '\r')
  | word wide w =>
    w.holds ((before.map (isWordChar wide)).getD false) ((after.map (isWordChar wide)).getD false)

/-- The places that fit in the text behind `before`. -/
def Condition.marks (k : Condition) (before : Option Char) : List Char → List Bool
  | [] => [k.holds before none]
  | c :: rest => k.holds before (some c) :: k.marks (some c) rest

@[simp] theorem Condition.length_marks (k : Condition) (before : Option Char) (text : List Char) :
    (k.marks before text).length = text.length + 1 := by
  induction text generalizing before with
  | nil => rfl
  | cons c rest ih => simp [marks, ih]

inductive Pattern
  | nothing
  /-- One character. -/
  | one (set : CharSet)
  /-- A place that fits. -/
  | place (k : Condition)
  | both (first second : Pattern)
  | either (first second : Pattern)
  | times (p : Pattern) (least : Nat) (most : Option Nat)
  deriving DecidableEq, Repr

namespace Pattern

def union (a b : List Bool) : List Bool := List.zipWith (· || ·) a b

/-- What `step` leads to when it is taken `n` times. -/
def repeated (step : List Bool → List Bool) : Nat → List Bool → List Bool
  | 0, marks => marks
  | n + 1, marks => repeated step n (step marks)

/-- What `step` leads to when it is taken at most `n` times. -/
def gathered (step : List Bool → List Bool) : Nat → List Bool → List Bool
  | 0, marks => marks
  | n + 1, marks => union marks (gathered step n (step marks))

/-- The places behind those characters in the set that stand at marked places. -/
def pass (set : CharSet) (text : List Char) (marks : List Bool) : List Bool :=
  false :: List.zipWith (fun marked c => marked && set.has c.toNat) marks text

/-- The places at which something that fits may end, if it begins at a marked one.  In a text with
`n` characters at most `n` turns of a repetition lead onward, and as further turns lead nowhere they
need not be counted. -/
def reach (text : List Char) : Pattern → List Bool → List Bool
  | nothing, marks => marks
  | one set, marks => pass set text marks
  | place k, marks => List.zipWith (· && ·) marks (k.marks none text)
  | both p q, marks => reach text q (reach text p marks)
  | either p q, marks => union (reach text p marks) (reach text q marks)
  | times p least most, marks =>
    let enough := text.length + 1
    let more := match most with
      | none => enough
      | some most => min (most - least) enough
    gathered (reach text p) more (repeated (reach text p) (min least enough) marks)

def occursIn (p : Pattern) (text : List Char) : Bool :=
  (p.reach text (List.replicate (text.length + 1) true)).contains true

@[simp] theorem occursIn_nothing (text : List Char) : nothing.occursIn text = true := by
  simp [occursIn, reach]

def isEmptyOnly : Pattern → Bool
  | nothing | .place _ => true
  | one _ => false
  | both p q | either p q => p.isEmptyOnly && q.isEmptyOnly
  | times p _ _ => p.isEmptyOnly

/-- A repetition; one of nothing is done once at most, and one of no turns is nothing. -/
def turns (p : Pattern) (least : Nat) (most : Option Nat) : Pattern :=
  let (least, most) :=
    if p.isEmptyOnly then (min least 1, some (min (most.getD 1) 1)) else (least, most)
  if most = some 0 then nothing
  else if least = 1 ∧ most = some 1 then p
  else times p least most

/-- Whether words of every script have to be told from what lies between them. -/
def hasWide : Pattern → Bool
  | .place (.word wide _) => wide
  | nothing | one _ | .place _ => false
  | both p q | either p q => p.hasWide || q.hasWide
  | times p _ _ => p.hasWide

/-- About how many states a machine needs for one character of a set. -/
def setStates : CharSet → Nat
  | .within bounds =>
    match bounds.getLast? with
    | some last => if last ≤ 0x80 then 1 else if last ≤ 0x800 then 2 else if last ≤ 0x10000 then 3 else 4
    | none => 1
  | .outside _ => 10
  | .caseless a => setStates a
  | .union a b | .common a b | .without a b | .apart a b => max (setStates a) (setStates b)

/-- About how many states a machine needs that searches for a pattern. -/
def states : Pattern → Nat
  | nothing | .place _ => 1
  | one set => setStates set
  | both p q => p.states + q.states
  | either p q => p.states + q.states + 1
  | times p least most =>
    match most with
    | none => max least 1 * p.states + 1
    | some most => least * p.states + (most - least) * (p.states + 1)

def stateSize : Nat := 32

def sizeLimit : Nat := 10485760

end Pattern

end FtpServer
