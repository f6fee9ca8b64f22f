import FtpServer.Text.Decimal

/-!
# Dates and times of a TOML document

A moment is a date, a time of day, or both; only one with a date may say how far it is from
universal time.  It is written in one form, whatever form it was read in.
-/

namespace FtpServer.Settings.Toml

open Text

structure Date where
  year : Nat
  month : Nat
  day : Nat
  deriving DecidableEq, Repr

structure TimeOfDay where
  hour : Nat
  minute : Nat
  second : Nat
  nanosecond : Nat
  deriving DecidableEq, Repr

inductive Offset
  | universal
  | shifted (hours : Int) (minutes : Nat)
  deriving DecidableEq, Repr

structure Moment where
  date : Option Date
  time : Option TimeOfDay
  offset : Option Offset
  deriving DecidableEq, Repr

def readFixed (width : Nat) (cs : List Char) : Option (Nat × List Char) :=
  let ds := cs.take width
  if ds.length = width ∧ ds.all isDigit then some (valueOf ds, cs.drop width) else none

def readMark (mark : Char) : List Char → Option (List Char)
  | c :: rest => if c = mark then some rest else none
  | [] => none

def readDate (cs : List Char) : Option (Date × List Char) := do
  let (year, cs) ← readFixed 4 cs
  let cs ← readMark '-' cs
  let (month, cs) ← readFixed 2 cs
  let cs ← readMark '-' cs
  let (day, cs) ← readFixed 2 cs
  if 1 ≤ month ∧ month ≤ 12 ∧ 1 ≤ day ∧ day ≤ 31 then some (⟨year, month, day⟩, cs) else none

/-- Digits behind a point, of which the first nine count. -/
def readNanoseconds : List Char → Option (Nat × List Char)
  | '.' :: cs =>
    let ds := cs.takeWhile isDigit
    if ds = [] then none
    else some (valueOf (ds.take 9) * tenTo (9 - (ds.take 9).length), cs.drop ds.length)
  | cs => some (0, cs)

def readTime (cs : List Char) : Option (TimeOfDay × List Char) := do
  let (hour, cs) ← readFixed 2 cs
  let cs ← readMark ':' cs
  let (minute, cs) ← readFixed 2 cs
  let cs ← readMark ':' cs
  let (second, cs) ← readFixed 2 cs
  let (nanosecond, cs) ← readNanoseconds cs
  if hour ≤ 24 ∧ minute ≤ 59 ∧ second ≤ 59 then some (⟨hour, minute, second, nanosecond⟩, cs)
  else none

def readOffset : List Char → Option (Option Offset)
  | [] => some none
  | c :: cs =>
    if c = 'Z' ∨ c = 'z' then if cs = [] then some (some .universal) else none
    else if c = '+' ∨ c = '-' then do
      let (hours, cs) ← readFixed 2 cs
      let cs ← readMark ':' cs
      let (minutes, cs) ← readFixed 2 cs
      if cs = [] then some (some (.shifted (if c = '-' then -hours else hours) minutes)) else none
    else none

def readMoment (cs : List Char) : Option Moment :=
  if (cs.drop 2).head? = some ':' then
    match readTime cs with
    | some (time, []) => some ⟨none, some time, none⟩
    | _ => none
  else do
    let (date, cs) ← readDate cs
    match cs with
    | [] => some ⟨some date, none, none⟩
    | c :: rest =>
      if c = 'T' ∨ c = 't' ∨ c = ' ' then
        let (time, cs) ← readTime rest
        let offset ← readOffset cs
        some ⟨some date, some time, offset⟩
      else
        let offset ← readOffset cs
        some ⟨some date, none, offset⟩

def Date.chars (d : Date) : List Char :=
  padded 4 d.year ++ '-' :: padded 2 d.month ++ '-' :: padded 2 d.day

def TimeOfDay.chars (t : TimeOfDay) : List Char :=
  let fraction :=
    if t.nanosecond = 0 then []
    else '.' :: ((padded 9 t.nanosecond).reverse.dropWhile (· = '0')).reverse
  padded 2 t.hour ++ ':' :: padded 2 t.minute ++ ':' :: padded 2 t.second ++ fraction

def Offset.chars : Offset → List Char
  | universal => ['Z']
  | shifted hours minutes =>
    (if hours < 0 then '-' else '+') :: padded 2 hours.natAbs ++ ':' :: padded 2 minutes

def Moment.text (m : Moment) : String :=
  let date := (m.date.map Date.chars).getD []
  let time := (m.time.map TimeOfDay.chars).getD []
  let offset := (m.offset.map Offset.chars).getD []
  let mark := if m.date.isSome ∧ m.time.isSome then ['T'] else []
  String.ofList (date ++ mark ++ time ++ offset)

end FtpServer.Settings.Toml
