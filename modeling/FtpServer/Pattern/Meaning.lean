import FtpServer.Pattern.Reader

/-!
# What written patterns mean

Flags hold up to the end of the group that they stand in, through its branches.  While the flag for
characters of all scripts is set, kinds, properties and letters in either case are not known; while
it is not, only sets of ASCII characters are.
-/

namespace FtpServer.Pattern

open Text

structure Flags where
  caseless : Bool
  multiline : Bool
  dotAll : Bool
  /-- Characters are those of all scripts. -/
  wide : Bool
  /-- Carriage returns end lines. -/
  returns : Bool
  deriving DecidableEq, Repr

namespace Flags

def plain : Flags := ⟨false, false, false, true, false⟩

def set (fs : Flags) : Flag × Bool → Flags
  | (.caseless, b) => { fs with caseless := b }
  | (.multiline, b) => { fs with multiline := b }
  | (.dotAll, b) => { fs with dotAll := b }
  | (.wide, b) => { fs with wide := b }
  | (.returns, b) => { fs with returns := b }
  | (.lazy, _) | (.loose, _) => fs

def change (fs : Flags) (changes : Changes) : Flags := changes.foldl set fs

end Flags

def misfit (cause : Cause) (span : Span) : Except Fault α := .error ⟨cause, span, none⟩

/-- A property's name without marks between words, in small letters and without a leading `is`. -/
def plainName (name : List Char) : List Char :=
  let leads := (name.take 2).map Char.toLower = ['i', 's']
  let rest := (if leads then name.drop 2 else name).filter fun c =>
    c.toNat < 0x80 && c != ' ' && c != '_' && c != '-'
  let rest := rest.map Char.toLower
  if leads ∧ rest = ['c'] then ['i', 's', 'c'] else rest

/-- Why a property is not known: short names that could be both properties and values are taken for
values. -/
def propertyCause (name : List Char) : Cause :=
  if ["cf", "sc", "lc"].contains (String.ofList (plainName name)) then .propertyValueUnknown
  else .propertyUnknown

def Kind.members : Kind → CharSet
  | digit => .within [48, 58]
  | space => .within [9, 14, 32, 33]
  | word => .within [48, 58, 65, 91, 95, 96, 97, 123]

namespace Flags

/-- The set of letters in either case, if this is asked for. -/
def fold (fs : Flags) (set : CharSet) : CharSet := if fs.caseless then .caseless set else set

def kindSet (fs : Flags) (span : Span) (k : Kind) (negated : Bool) : Except Fault CharSet :=
  if fs.wide then misfit .wideSetUnknown span
  else if negated then misfit .invalidText span
  else .ok k.members

def propertySet (fs : Flags) (span : Span) (name : List Char) : Except Fault CharSet :=
  misfit (if fs.wide then propertyCause name else .wideNotAllowed) span

/-- A character outside of brackets must be part of a text. -/
def checkLiteral (fs : Flags) (l : Literal) : Except Fault Unit :=
  if !fs.wide && l.isByte && 0x7F < l.char.toNat then misfit .invalidText l.span else .ok ()

/-- A character in brackets must be one of those that sets may have. -/
def checkMember (fs : Flags) (l : Literal) : Except Fault Unit := do
  fs.checkLiteral l
  if !fs.wide && 0x7F < l.char.toNat then misfit .wideNotAllowed l.span

/-- Letters in either case and the complement of a set; `bare` if it has characters whose other
cases are not in it yet. -/
def foldAndNegate (fs : Flags) (span : Span) (bare negated : Bool) (set : CharSet) :
    Except Fault CharSet :=
  if fs.wide && fs.caseless && bare then misfit .wideCaseUnknown span
  else if negated then if fs.wide then .ok (.outside set) else misfit .invalidText span
  else .ok (if fs.wide then set else fs.fold set)

end Flags

mutual

/-- Whether a set has characters that do not stand in brackets of their own. -/
def WrittenSet.isBare : WrittenSet → Bool
  | .primitive (.literal _) | .range _ _ _ => true
  | .union _ parts => anyBare parts
  | _ => false

def anyBare : List WrittenSet → Bool
  | [] => false
  | part :: rest => part.isBare || anyBare rest

end

def Combination.apply : Combination → CharSet → CharSet → CharSet
  | common, a, b => .common a b
  | without, a, b => .without a b
  | apart, a, b => .apart a b

mutual

def WrittenSet.meaning (fs : Flags) : WrittenSet → Except Fault CharSet
  | .empty _ => .ok .empty
  | .primitive (.literal l) => do
    fs.checkMember l
    return .single l.char
  | .primitive (.kind span k negated) => fs.kindSet span k negated
  | .primitive (.property span name) => fs.propertySet span name
  | .primitive (.dot _) | .primitive (.anchor _ _) => .ok .empty
  | .range _ first last => do
    fs.checkMember first
    fs.checkMember last
    return .between first.char last.char
  | .named span members negated => fs.foldAndNegate span true negated members
  | .bracketed span negated inner => do
    fs.foldAndNegate span inner.isBare negated (← inner.meaning fs)
  | .union _ parts => unionOf fs parts
  | .combined _ c left right => do
    let a ← left.meaning fs
    let b ← right.meaning fs
    let b ← fs.foldAndNegate right.span right.isBare false b
    let a ← fs.foldAndNegate left.span left.isBare false a
    return c.apply a b

def unionOf (fs : Flags) : List WrittenSet → Except Fault CharSet
  | [] => .ok .empty
  | part :: rest => do
    let a ← part.meaning fs
    return .union a (← unionOf fs rest)

end

/-- One character that is `c`, or the same letter in the other case. -/
def Flags.literal (fs : Flags) (l : Literal) : Except Fault Pattern := do
  fs.checkLiteral l
  if fs.wide && fs.caseless then misfit .wideCaseUnknown l.span
  else return .one (fs.fold (.single l.char))

def Flags.anchor (fs : Flags) : Anchor → Condition
  | .lineStart => if fs.multiline then .lineStart fs.returns else .start
  | .lineStop => if fs.multiline then .lineStop fs.returns else .stop
  | .start => .start
  | .stop => .stop
  | .word w => .word fs.wide w

def Flags.primitive (fs : Flags) : Primitive → Except Fault Pattern
  | .literal l => fs.literal l
  | .dot span =>
    if !fs.wide then misfit .invalidText span
    else .ok (.one (if fs.dotAll then .anything else .inLine fs.returns))
  | .anchor _ a => .ok (.place (fs.anchor a))
  | .kind span k negated => (fs.kindSet span k negated).map .one
  | .property span name => (fs.propertySet span name).map .one

mutual

/-- What fits a written pattern, and the flags behind it. -/
def Written.meaning (fs : Flags) : Written → Except Fault (Pattern × Flags)
  | .empty => .ok (.nothing, fs)
  | .flags changes => .ok (.nothing, fs.change changes)
  | .primitive p => do return (← fs.primitive p, fs)
  | .bracketed span negated inner => do
    let set ← fs.foldAndNegate span inner.isBare negated (← inner.meaning fs)
    return (.one set, fs)
  | .repetition _ inner least most => do
    let (p, fs) ← inner.meaning fs
    return (p.turns least most, fs)
  | .group _ changes inner => do
    let (p, _) ← inner.meaning (fs.change changes)
    return (p, fs)
  | .alternatives _ branches => anyOf fs branches
  | .sequence _ parts => allOf fs parts

def allOf (fs : Flags) : List Written → Except Fault (Pattern × Flags)
  | [] => .ok (.nothing, fs)
  | part :: rest => do
    let (p, fs) ← part.meaning fs
    let (q, fs) ← allOf fs rest
    return (.both p q, fs)

def anyOf (fs : Flags) : List Written → Except Fault (Pattern × Flags)
  | [] => .ok (.one .empty, fs)
  | part :: rest => do
    let (p, fs) ← part.meaning fs
    let (q, fs) ← anyOf fs rest
    return (.either p q, fs)

end

inductive Refusal
  | fault (f : Fault)
  /-- Words of every script would have to be known. -/
  | wideWords
  | tooLarge
  deriving DecidableEq, Repr

def Refusal.message (text : List Char) : Refusal → String
  | fault f => f.message text
  | wideWords => "error building NFA"
  | tooLarge => "Compiled regex exceeds size limit of " ++ Text.ofNat sizeLimit ++ " bytes."

/-- The pattern that a regular expression describes. -/
def read (text : List Char) : Except Refusal Pattern := do
  let written ← (Written.read text).mapError .fault
  let (p, _) ← (written.meaning .plain).mapError .fault
  if p.hasWide then .error .wideWords
  else if sizeLimit < p.states * stateSize then .error .tooLarge
  else .ok p

end FtpServer.Pattern
