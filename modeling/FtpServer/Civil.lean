import FtpServer.Text.Decimal

/-!
# Dates

The day and time of a moment given in seconds since the beginning of 1970, in the Gregorian
calendar and without leap seconds.  Years are counted from the first of March, so that a leap day
comes last.
-/

namespace FtpServer

structure Civil where
  year : Int
  month : Nat
  day : Nat
  hour : Nat
  minute : Nat
  second : Nat
  deriving DecidableEq, Repr

namespace Civil

def secondsOfDay : Nat := 86400

def eraDays : Nat := 146097

/-- Days from the first of March of the year zero to the first of January 1970. -/
def epochDay : Int := 719468

def yearsOf (d : Nat) : Nat := (d - d / 1460 + d / 36524 - d / 146096) / 365

def daysBefore (y : Nat) : Nat := 365 * y + y / 4 - y / 100

/-- The month of day `d` of a year, counted from March. -/
def monthOf (d : Nat) : Nat := (5 * d + 2) / 153

/-- Days of a year before month `m`, counted from March. -/
def daysBeforeMonth (m : Nat) : Nat := (153 * m + 2) / 5

def ofSeconds (seconds : Int) : Civil :=
  let day := seconds.fdiv secondsOfDay
  let second := (seconds.fmod secondsOfDay).toNat
  let shifted := day + epochDay
  let era := shifted.fdiv eraDays
  let d := (shifted.fmod eraDays).toNat
  let y := yearsOf d
  let inYear := d - daysBefore y
  let m := monthOf inYear
  { year := era * 400 + y + (if m < 10 then 0 else 1)
    month := if m < 10 then m + 3 else m - 9
    day := inYear - daysBeforeMonth m + 1
    hour := second / 3600
    minute := second / 60 % 60
    second := second % 60 }

theorem ofSeconds_lt (seconds : Int) : (ofSeconds seconds).day < 100 ∧
    (ofSeconds seconds).hour < 100 ∧ (ofSeconds seconds).minute < 100 := by
  have hsecond : seconds.fmod secondsOfDay < 86400 := Int.fmod_lt_of_pos _ (by decide)
  simp only [ofSeconds, daysBeforeMonth, monthOf]
  omega

/-- Year, month and day, and the time in the first time zone. -/
def text (c : Civil) : String :=
  let two (n : Nat) : String := String.ofList (Text.padded 2 n)
  String.ofList (Text.padded 4 c.year.toNat) ++ "-" ++ two c.month ++ "-" ++ two c.day
    ++ "T" ++ two c.hour ++ ":" ++ two c.minute ++ ":" ++ two c.second ++ "Z"

example : ofSeconds 0 = ⟨1970, 1, 1, 0, 0, 0⟩ := by decide

example : ofSeconds 951782400 = ⟨2000, 2, 29, 0, 0, 0⟩ := by decide

example : ofSeconds (-86401) = ⟨1969, 12, 30, 23, 59, 59⟩ := by decide

end Civil

end FtpServer
