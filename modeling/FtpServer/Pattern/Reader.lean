import FtpServer.Pattern.Written
import FtpServer.Text.Blank
import FtpServer.Text.Digit

/-!
# Reading patterns

A pattern is read from front to back, with the position at hand for faults.  Where blanks mean
nothing they may stand between most characters, and a comment runs from a hash to the end of its
line.
-/

namespace FtpServer.Pattern

open Text

structure Cursor where
  rest : List Char
  position : Position
  /-- Whether blanks and comments mean nothing. -/
  loose : Bool
  /-- The groups with names so far. -/
  names : List (List Char × Span)
  deriving DecidableEq, Repr

/-- What follows blanks and comments, from in between them or from within a comment. -/
def skipLoose (inComment : Bool) (p : Position) : List Char → List Char × Position
  | [] => ([], p)
  | c :: rest =>
    if inComment then skipLoose (c ≠ '\n') (p.past c) rest
    else if isBlank c then skipLoose false (p.past c) rest
    else if c = '#' then skipLoose true (p.past c) rest
    else (c :: rest, p)

namespace Cursor

def step (c : Cursor) : Cursor :=
  match c.rest with
  | [] => c
  | x :: rest => { c with rest, position := c.position.past x }

def skipBlanks (c : Cursor) : Cursor :=
  if c.loose then
    let (rest, position) := skipLoose false c.position c.rest
    { c with rest, position }
  else c

end Cursor

abbrev Reader := StateT Cursor (Except Fault)

namespace Reader

def fault (cause : Cause) (span : Span) : Reader α := throw ⟨cause, span, none⟩

def here : Reader Position := return (← get).position

def next? : Reader (Option Char) := return (← get).rest.head?

def place : Reader Span := return ⟨← here, ← here⟩

def spanFrom (first : Position) : Reader Span := return ⟨first, ← here⟩

def nextSpan : Reader Span := return ⟨← here, (← get).step.position⟩

def step : Reader Unit := modify Cursor.step

def steps : Nat → Reader Unit
  | 0 => return ()
  | n + 1 => do
    step
    steps n

def skipBlanks : Reader Unit := modify Cursor.skipBlanks

/-- Goes past a character and what means nothing behind it. -/
def advance : Reader (Option Char) := do
  step
  skipBlanks
  next?

/-- Takes characters for as long as `p` holds of the next one, at most `n`. -/
def takeUpTo (p : Char → Bool) : Nat → Reader (List Char)
  | 0 => return []
  | n + 1 => do
    match ← next? with
    | some c =>
      if p c then
        let _ ← advance
        return c :: (← takeUpTo p n)
      else return []
    | none => return []

def takeWhile (p : Char → Bool) : Reader (List Char) := do takeUpTo p (← get).rest.length

def isOpenBrace (c : Char) : Bool := c == '\x7b'

def isCloseBrace (c : Char) : Bool := c == '\x7d'

/-- A number between blanks, or what is wrong with it. -/
def readCount : Reader (Except Fault Nat) := do
  steps ((← get).rest.takeWhile isBlank).length
  let first ← here
  let digits ← takeWhile isDigit
  let span ← spanFrom first
  let _ ← takeWhile isBlank
  if digits = [] then return .error ⟨.countMissing, span, none⟩
  else if valueOf digits < UInt32.size then return .ok (valueOf digits)
  else return .error ⟨.countTooLarge, span, none⟩

/-- A mark behind a repetition that makes no difference to what fits. -/
def skipLazy : Reader Unit := do
  if (← next?) = some '?' then step

/-- How often something may stand, from the opening brace on. -/
def readCounts : Reader (Nat × Option Nat) := do
  let first ← here
  if (← advance).isNone then fault .countUnclosed (← spanFrom first)
  let least ← readCount
  let counts ← match ← next? with
    | none => fault .countUnclosed (← spanFrom first)
    | some ',' =>
      match ← advance with
      | none => fault .countUnclosed (← spanFrom first)
      | some c => do
        let least ← (least : Except Fault Nat)
        if isCloseBrace c then pure (least, none)
        else
          let most ← (← readCount : Except Fault Nat)
          pure (least, some most)
    | some _ => do
      let n ← (least : Except Fault Nat)
      pure (n, some n)
  if !((← next?).map isCloseBrace).getD false then fault .countUnclosed (← spanFrom first)
  let _ ← advance
  skipLazy
  if (counts.2.map fun most => decide (most < counts.1)).getD false then
    fault .countOrder (← spanFrom first)
  return counts

def readHexDigits : Nat → Reader (List Nat)
  | 0 => return []
  | n + 1 => do
    match ← next? with
    | none => fault .escapeUnfinished (← place)
    | some c =>
      match hexValue c with
      | none => fault .hexDigit (← nextSpan)
      | some d =>
        let _ ← advance
        return d :: (← readHexDigits n)

/-- At most so many hexadecimal digits, from the brace before them up to that behind. -/
def readBracedDigits : Nat → Reader (List Nat)
  | 0 => return []
  | n + 1 => do
    match ← advance with
    | none => return []
    | some c =>
      if isCloseBrace c then return []
      else
        match hexValue c with
        | none => fault .hexDigit (← nextSpan)
        | some d => return d :: (← readBracedDigits n)

/-- A character by its number, from the letter behind the backslash on. -/
def readHex (first : Position) (digits : Nat) : Reader Primitive := do
  let character (ds : List Nat) (span : Span) (isByte : Bool) : Reader Primitive := do
    let n := valueIn 16 ds
    if n.isValidChar then return .literal ⟨← spanFrom first, Char.ofNat n, isByte⟩
    else fault .hexNoCharacter span
  match ← advance with
  | none => fault .escapeUnfinished (← place)
  | some c =>
    let start ← here
    if isOpenBrace c then
      let inner := (← nextSpan).last
      let ds ← readBracedDigits (← get).rest.length
      if (← next?).isNone then fault .escapeUnfinished (← spanFrom start)
      let span ← spanFrom inner
      let _ ← advance
      if ds = [] then fault .hexEmpty (← spanFrom start)
      character ds span false
    else
      let ds ← readHexDigits digits
      character ds (← spanFrom start) (digits = 2)

/-- At most so many characters, from the brace before them up to that behind. -/
def readBracedName : Nat → Reader (List Char)
  | 0 => return []
  | n + 1 => do
    match ← advance with
    | none => return []
    | some c => if isCloseBrace c then return [] else return c :: (← readBracedName n)

/-- A property of characters, from the letter behind the backslash on. -/
def readProperty (first : Position) : Reader Primitive := do
  match ← advance with
  | none => fault .escapeUnfinished (← place)
  | some c =>
    if isOpenBrace c then
      let name ← readBracedName (← get).rest.length
      if (← next?).isNone then fault .escapeUnfinished (← place)
      step
      return .property (← spanFrom first) name
    else if c = '\\' then fault .propertyMalformed (← nextSpan)
    else
      let _ ← advance
      return .property (← spanFrom first) [c]

def isEdgeChar (c : Char) : Bool := c.isAlpha || c == '-'

def edge? (name : List Char) : Option WordEdge :=
  [("start", WordEdge.start), ("end", .stop), ("start-half", .startHalf),
    ("end-half", .stopHalf)].lookup (String.ofList name)

/-- The name of an edge in braces behind `\b`, which begins at `first`.  Without a name the braces
count repetitions. -/
def readEdge (first : Position) : Reader WordEdge := do
  if !((← next?).map isOpenBrace).getD false then return .boundary
  else
    let outside ← get
    match ← advance with
    | none => fault .wordEdgeUnfinished (← spanFrom first)
    | some c =>
      if !isEdgeChar c then
        set outside
        return .boundary
      else
        let start ← here
        let name ← takeWhile isEdgeChar
        if !((← next?).map isCloseBrace).getD false then
          fault .wordEdgeUnclosed (← spanFrom outside.position)
        let span ← spanFrom start
        step
        match edge? name with
        | some w => return w
        | none => fault .wordEdgeUnknown span

def kind? : Char → Option (Kind × Bool)
  | 'd' => some (.digit, false)
  | 's' => some (.space, false)
  | 'w' => some (.word, false)
  | 'D' => some (.digit, true)
  | 'S' => some (.space, true)
  | 'W' => some (.word, true)
  | _ => none

def control? : Char → Option Char
  | 'a' => some '\x07'
  | 'f' => some '\x0C'
  | 't' => some '\t'
  | 'n' => some '\n'
  | 'r' => some '\r'
  | 'v' => some '\x0B'
  | _ => none

def anchor? : Char → Option Anchor
  | 'A' => some .start
  | 'z' => some .stop
  | 'B' => some (.word .noBoundary)
  | '<' => some (.word .start)
  | '>' => some (.word .stop)
  | _ => none

/-- Whether a character stands for itself behind a backslash. -/
def isPlainEscape (c : Char) : Bool :=
  c.toNat < 0x80 && !c.isAlphanum && c != '<' && c != '>'

def readEscape : Reader Primitive := do
  let first ← here
  step
  match ← next? with
  | none => fault .escapeUnfinished (← spanFrom first)
  | some c =>
    if isDigit c then fault .backreference ⟨first, (← nextSpan).last⟩
    else if c = 'x' then readHex first 2
    else if c = 'u' then readHex first 4
    else if c = 'U' then readHex first 8
    else if c = 'p' ∨ c = 'P' then readProperty first
    else
      step
      let span ← spanFrom first
      if isPlainEscape c then return .literal ⟨span, c, false⟩
      else if c = 'b' then
        let w ← readEdge first
        return .anchor (← spanFrom first) (.word w)
      else
        match kind? c, control? c, anchor? c with
        | some (k, negated), _, _ => return .kind span k negated
        | none, some control, _ => return .literal ⟨span, control, false⟩
        | none, none, some a => return .anchor span a
        | none, none, none => fault .escapeUnknown span

def readCharacter (c : Char) : Reader Literal := do
  let span ← nextSpan
  step
  return ⟨span, c, false⟩

def namedSet? (name : List Char) : Option CharSet :=
  ([("alnum", [48, 58, 65, 91, 97, 123]), ("alpha", [65, 91, 97, 123]), ("ascii", [0, 128]),
    ("blank", [9, 10, 32, 33]), ("cntrl", [0, 32, 127, 128]), ("digit", [48, 58]),
    ("graph", [33, 127]), ("lower", [97, 123]), ("print", [32, 127]),
    ("punct", [33, 48, 58, 65, 91, 97, 123, 127]), ("space", [9, 14, 32, 33]), ("upper", [65, 91]),
    ("word", [48, 58, 65, 91, 95, 96, 97, 123]),
    ("xdigit", [48, 58, 65, 71, 97, 103])].lookup (String.ofList name)).map CharSet.within

/-- A set with a name between colons, if one stands here. -/
def tryNamed : Reader (Option WrittenSet) := do
  let first ← here
  match (← get).rest with
  | '[' :: ':' :: rest =>
    let negated := rest.head? = some '^'
    let rest := if negated then rest.drop 1 else rest
    let name := rest.takeWhile (· ≠ ':')
    match rest.drop name.length, namedSet? name with
    | ':' :: ']' :: _, some members =>
      steps (name.length + if negated then 5 else 4)
      return some (.named (← spanFrom first) members negated)
    | _, _ => return none
  | _ => return none

structure Bracket where
  /-- From the bracket up to the first character that decides nothing about it. -/
  opening : Span
  negated : Bool
  /-- What stands before the last operator. -/
  left : Option (Combination × WrittenSet)
  /-- Where the parts begin. -/
  start : Position
  /-- The parts behind the last operator, the last one first. -/
  parts : List WrittenSet

namespace Bracket

def add (b : Bracket) (part : WrittenSet) : Bracket := { b with parts := part :: b.parts }

/-- The set of the parts behind the last operator. -/
def right (b : Bracket) : WrittenSet :=
  let span : Span := match b.parts.getLast?, b.parts.head? with
    | some first, some last => ⟨first.span.first, last.span.last⟩
    | _, _ => ⟨b.start, b.start⟩
  .ofParts span b.parts.reverse

def inner (b : Bracket) : WrittenSet :=
  match b.left with
  | none => b.right
  | some (c, left) => .combined ⟨left.span.first, b.right.span.last⟩ c left b.right

def combine (b : Bracket) (c : Combination) (start : Position) : Bracket :=
  { b with left := some (c, b.inner), start, parts := [] }

end Bracket

/-- Minus signs at the front of a bracket, which stand for themselves; the last one first. -/
def readDashes (first : Position) : Nat → List WrittenSet → Reader (List WrittenSet)
  | 0, parts => return parts
  | n + 1, parts => do
    if (← next?) = some '-' then
      let part := WrittenSet.primitive (.literal ⟨← nextSpan, '-', false⟩)
      if (← advance).isNone then fault .setUnclosed ⟨first, first⟩
      readDashes first n (part :: parts)
    else return parts

/-- The front of a bracket.  A closing bracket as the first character stands for itself. -/
def openBracket : Reader Bracket := do
  let first ← here
  let mut next ← advance
  if next.isNone then fault .setUnclosed (← spanFrom first)
  let negated := next = some '^'
  if negated then
    next ← advance
    if next.isNone then fault .setUnclosed (← spanFrom first)
  let start ← here
  let mut parts ← readDashes first (← get).rest.length []
  if parts = [] ∧ (← next?) = some ']' then
    parts := [.primitive (.literal ⟨← nextSpan, ']', false⟩)]
    if (← advance).isNone then fault .setUnclosed (← spanFrom first)
  return ⟨← spanFrom first, negated, none, start, parts⟩

def readSetPrimitive : Reader Primitive := do
  match ← next? with
  | some '\\' => readEscape
  | some c => return .literal (← readCharacter c)
  | none => fault .setUnclosed (← place)

def boundaryOf (p : Primitive) : Reader Literal :=
  match p with
  | .literal l => return l
  | p => fault .setRangeBoundary p.span

/-- The character behind the next one; where blanks mean nothing, behind them.  The hash of a
comment is passed over, but not the comment. -/
def peek? : Reader (Option Char) := do
  let c ← get
  let rest := c.rest.drop 1
  if c.loose then
    match rest.dropWhile isBlank with
    | '#' :: more => return ((more.dropWhile isBlank).head?).or rest.head?
    | found :: _ => return some found
    | [] => return rest.head?
  else return rest.head?

/-- A character, a set or a range within the bracket that opens at `opening`.  A minus sign before
another one or before the end stands for itself. -/
def readSetPart (opening : Span) : Reader WrittenSet := do
  let p ← readSetPrimitive
  skipBlanks
  let next ← next?
  let behind ← peek?
  if next.isNone then fault .setUnclosed opening
  else if next ≠ some '-' ∨ behind = some ']' ∨ behind = some '-' then
    match p with
    | .anchor span _ => fault .setEscape span
    | p => return .primitive p
  else
    if (← advance).isNone then fault .setUnclosed opening
    let q ← readSetPrimitive
    let span : Span := ⟨p.span.first, q.span.last⟩
    let first ← boundaryOf p
    let last ← boundaryOf q
    if last.char < first.char then fault .setRange span
    return .range span first last

/-- What follows in a bracket, and the bracket within it. -/
def fillBracket : Nat → Bracket → Reader (Span × Bool × WrittenSet)
  | 0, b => fault .setUnclosed b.opening
  | fuel + 1, b => do
    skipBlanks
    match (← get).rest with
    | [] => fault .setUnclosed b.opening
    | '[' :: _ =>
      match ← tryNamed with
      | some part => fillBracket fuel (b.add part)
      | none =>
        let (span, negated, inner) ← fillBracket fuel (← openBracket)
        fillBracket fuel (b.add (.bracketed span negated inner))
    | ']' :: _ =>
      step
      return (← spanFrom b.opening.first, b.negated, b.inner)
    | '&' :: '&' :: _ =>
      steps 2
      fillBracket fuel (b.combine .common (← here))
    | '-' :: '-' :: _ =>
      steps 2
      fillBracket fuel (b.combine .without (← here))
    | '~' :: '~' :: _ =>
      steps 2
      fillBracket fuel (b.combine .apart (← here))
    | _ =>
      let part ← readSetPart b.opening
      fillBracket fuel (b.add part)

def readBracket : Reader Written := do
  let (span, negated, inner) ← fillBracket (← get).rest.length (← openBracket)
  return .bracketed span negated inner

def flag? : Char → Option Flag
  | 'i' => some .caseless
  | 'm' => some .multiline
  | 's' => some .dotAll
  | 'U' => some .lazy
  | 'u' => some .wide
  | 'R' => some .returns
  | 'x' => some .loose
  | _ => none

/-- Flags before a minus sign are set, and those behind it are not. -/
def changesOf (items : List (Option Flag)) : Changes :=
  let on := items.takeWhile Option.isSome
  let off := items.dropWhile Option.isSome
  (on.filterMap id).map (·, true) ++ (off.filterMap id).map (·, false)

/-- Flags up to a colon or a parenthesis, behind those in `seen`, the last one first; nothing stands
for a minus sign. -/
def readFlags : Nat → List (Option Flag × Span) → Reader Changes
  | 0, _ => return []
  | fuel + 1, seen => do
    match ← next? with
    | none => fault .flagMissing (← place)
    | some c =>
      if c = ':' ∨ c = ')' then
        match seen with
        | (none, span) :: _ => fault .flagNegationDangling span
        | _ => return changesOf (seen.reverse.map (·.1))
      else
        let span ← nextSpan
        let item ← if c = '-' then pure none else
          match flag? c with
          | some f => pure (some f)
          | none => fault .flagUnknown span
        match seen.lookup item with
        | some other =>
          throw ⟨if item.isNone then .flagNegationTwice else .flagTwice, span, some other⟩
        | none =>
          step
          readFlags fuel ((item, span) :: seen)

def isNameChar (isFirst : Bool) (c : Char) : Bool :=
  c == '_' || isLetter c
    || (!isFirst && (isMark c || c == '.' || c == '[' || c == ']'))

def readNameChars (isFirst : Bool) : List Char → Reader (List Char)
  | [] => return []
  | c :: rest => do
    if c = '>' then return []
    else if isNameChar isFirst c then
      step
      return c :: (← readNameChars false rest)
    else fault .nameCharacter (← nextSpan)

def readName : Reader Unit := do
  let first ← here
  let name ← readNameChars true (← get).rest
  let span ← spanFrom first
  if (← next?).isNone then fault .nameUnclosed (← place)
  step
  if name = [] then fault .nameEmpty ⟨first, first⟩
  match (← get).names.lookup name with
  | some other => throw ⟨.nameTwice, span, some other⟩
  | none => modify fun c => { c with names := (name, span) :: c.names }

inductive Opening
  /-- Flags for what follows. -/
  | flags (changes : Changes)
  | group (changes : Changes)
  deriving DecidableEq, Repr

/-- An opening parenthesis with what belongs to it; `opening` is its span. -/
def readOpening (opening : Span) : Reader Opening := do
  step
  skipBlanks
  match (← get).rest with
  | '?' :: '=' :: _ | '?' :: '!' :: _ =>
    steps 2
    fault .lookAround (← spanFrom opening.first)
  | '?' :: '<' :: '=' :: _ | '?' :: '<' :: '!' :: _ =>
    steps 3
    fault .lookAround (← spanFrom opening.first)
  | '?' :: 'P' :: '<' :: _ =>
    steps 3
    readName
    return .group []
  | '?' :: '<' :: _ =>
    steps 2
    readName
    return .group []
  | '?' :: rest =>
    let mark ← place
    step
    if rest = [] then fault .groupUnclosed opening
    let changes ← readFlags rest.length []
    let closing ← next?
    step
    if closing ≠ some ')' then return .group changes
    else if changes = [] then fault .repetitionOfNothing mark
    else return .flags changes
  | _ => return .group []

structure Body where
  first : Position
  /-- The complete branches, the last one first. -/
  branches : List Written
  /-- Where the last branch begins. -/
  start : Position
  /-- The parts of the last branch, the last one first. -/
  parts : List Written

namespace Body

def opened (p : Position) : Body := ⟨p, [], p, []⟩

def add (b : Body) (part : Written) : Body := { b with parts := part :: b.parts }

def branch (b : Body) (last : Position) : Written := .ofParts ⟨b.start, last⟩ b.parts.reverse

/-- With a new branch at `start` behind one that ends at `last`. -/
def split (b : Body) (last start : Position) : Body :=
  { b with branches := b.branch last :: b.branches, start, parts := [] }

def close (b : Body) (last : Position) : Written :=
  match b.branches with
  | [] => b.branch last
  | branches => .alternatives ⟨b.first, last⟩ (b.branch last :: branches).reverse

end Body

/-- The last part of a branch repeated; `counts` reads how often, and goes past it. -/
def readRepetition (counts : Reader (Nat × Option Nat)) (b : Body) : Reader Body := do
  match b.parts with
  | [] => fault .repetitionOfNothing (← place)
  | part :: parts =>
    match part.span? with
    | none => fault .repetitionOfNothing (← place)
    | some span =>
      let (least, most) ← counts
      let part := .repetition (← spanFrom span.first) part least most
      return { b with parts := part :: parts }

def readSign (least : Nat) (most : Option Nat) : Reader (Nat × Option Nat) := do
  step
  skipLazy
  return (least, most)

def setLoose (changes : Changes) : Reader Unit :=
  match changes.lookup .loose with
  | some loose => modify ({ · with loose })
  | none => return ()

/-- What follows the beginning `b` of a group with its parenthesis at `opening`, or of the whole
pattern, up to the end. -/
def readBody : Nat → Option Span → Body → Reader Written
  | 0, _, b => return b.close (← here)
  | fuel + 1, opening, b => do
    skipBlanks
    match ← next? with
    | none =>
      match opening with
      | some span => fault .groupUnclosed span
      | none => return b.close (← here)
    | some '(' =>
      let span ← nextSpan
      let outer := (← get).loose
      match ← readOpening span with
      | .flags changes =>
        setLoose changes
        readBody fuel opening (b.add (.flags changes))
      | .group changes =>
        setLoose changes
        let inner ← readBody fuel (some span) (.opened (← here))
        modify ({ · with loose := outer })
        step
        readBody fuel opening (b.add (.group (← spanFrom span.first) changes inner))
    | some ')' =>
      if opening.isNone then fault .groupUnopened (← nextSpan)
      else return b.close (← here)
    | some '|' =>
      let last ← here
      step
      readBody fuel opening (b.split last (← here))
    | some '[' => readBody fuel opening (b.add (← readBracket))
    | some '?' => readBody fuel opening (← readRepetition (readSign 0 (some 1)) b)
    | some '*' => readBody fuel opening (← readRepetition (readSign 0 none) b)
    | some '+' => readBody fuel opening (← readRepetition (readSign 1 none) b)
    | some '\x7b' => readBody fuel opening (← readRepetition readCounts b)
    | some '\\' => readBody fuel opening (b.add (.primitive (← readEscape)))
    | some c =>
      let l ← readCharacter c
      let p : Primitive :=
        if c = '.' then .dot l.span
        else if c = '^' then .anchor l.span .lineStart
        else if c = '$' then .anchor l.span .lineStop
        else .literal l
      readBody fuel opening (b.add (.primitive p))

end Reader

def Written.read (text : List Char) : Except Fault Written := do
  let start : Cursor := ⟨text, .origin, false, []⟩
  let (w, _) ← (Reader.readBody (text.length + 1) none (.opened .origin)).run start
  match w.tooDeep? depthLimit with
  | some span => throw ⟨.tooDeep, span, none⟩
  | none => return w

end FtpServer.Pattern
