/-!
# Bytes read as text

Text travels as UTF-8.  `decode` reads any bytes at all: a sequence that cannot be continued is
replaced by one U+FFFD for its longest acceptable start, and reading resumes at the byte that did
not fit.  `encode` is the other direction and loses nothing.
-/

namespace FtpServer.Text

abbrev Bytes := List UInt8

namespace Lossy

def replacement : Char := '\uFFFD'

/-- A character of several bytes that still owes `missing + 1` of them; the next must lie between
`low` and `high`. -/
structure Unfinished where
  value : Nat
  missing : Nat
  low : UInt8
  high : UInt8
  deriving DecidableEq, Repr

/-- The first byte of a character: the text it settles and what is left open after it. -/
def start (b : UInt8) : List Char × Option Unfinished :=
  if b < 0x80 then ([Char.ofNat b.toNat], none)
  else if b < 0xC2 then ([replacement], none)
  else if b < 0xE0 then ([], some ⟨b.toNat - 0xC0, 0, 0x80, 0xBF⟩)
  else if b < 0xF0 then
    ([], some ⟨b.toNat - 0xE0, 1, if b = 0xE0 then 0xA0 else 0x80, if b = 0xED then 0x9F else 0xBF⟩)
  else if b < 0xF5 then
    ([], some ⟨b.toNat - 0xF0, 2, if b = 0xF0 then 0x90 else 0x80, if b = 0xF4 then 0x8F else 0xBF⟩)
  else ([replacement], none)

/-- One byte, after whatever the bytes before it left open. -/
def step : Option Unfinished → UInt8 → List Char × Option Unfinished
  | none, b => start b
  | some u, b =>
    if u.low ≤ b ∧ b ≤ u.high then
      let value := u.value * 64 + (b.toNat - 0x80)
      match u.missing with
      | 0 => ([Char.ofNat value], none)
      | n + 1 => ([], some ⟨value, n, 0x80, 0xBF⟩)
    else
      (replacement :: (start b).1, (start b).2)

def run (opened : Option Unfinished) : Bytes → List Char
  | [] => if opened.isSome then [replacement] else []
  | b :: rest => (step opened b).1 ++ run (step opened b).2 rest

@[simp] theorem run_nil : run none [] = [] := rfl

@[simp] theorem run_cons (opened : Option Unfinished) (b : UInt8) (rest : Bytes) :
    run opened (b :: rest) = (step opened b).1 ++ run (step opened b).2 rest := rfl

end Lossy

def decode (bytes : Bytes) : String :=
  String.ofList (Lossy.run none bytes)

def encode (s : String) : Bytes :=
  s.toList.flatMap String.utf8EncodeChar

/-- The text of bytes of which reading replaces nothing. -/
def decode? (bytes : Bytes) : Option String :=
  if encode (decode bytes) = bytes then some (decode bytes) else none

end FtpServer.Text
