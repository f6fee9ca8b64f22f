/-!
# Whole numbers in decimal

Digits as the program writes them, and the two readings its formats share: a run of ASCII digits,
and such a run with an optional sign.
-/

namespace FtpServer.Text

def isDigit (c : Char) : Bool :=
  '0' ≤ c && c ≤ '9'

def digitValue (c : Char) : Nat :=
  c.toNat - 48

def digits (n : Nat) : List Char :=
  Nat.toDigits 10 n

/-- The text of `n` without a sign or leading zeros. -/
def ofNat (n : Nat) : String :=
  String.ofList (digits n)

def ofInt : Int → String
  | .ofNat n => ofNat n
  | .negSucc n => "-" ++ ofNat (n + 1)

/-- The value of a run of digits; the most significant comes first. -/
def valueOf (cs : List Char) : Nat :=
  cs.foldl (fun n c => n * 10 + digitValue c) 0

@[simp] theorem valueOf_nil : valueOf [] = 0 := rfl

def readNat (cs : List Char) : Option Nat :=
  if cs ≠ [] ∧ cs.all isDigit then some (valueOf cs) else none

/-- A run of digits after at most one plus sign. -/
def readUnsigned : List Char → Option Nat
  | '+' :: cs => readNat cs
  | cs => readNat cs

def readInt : List Char → Option Int
  | '+' :: cs => (readNat cs).map Int.ofNat
  | '-' :: cs => (readNat cs).map fun n => -Int.ofNat n
  | cs => (readNat cs).map Int.ofNat

/-- `n`, if a word of 64 bits with a sign holds it. -/
def signedWord? (n : Int) : Option Int :=
  if Int64.minValue.toInt ≤ n ∧ n ≤ Int64.maxValue.toInt then some n else none

def tenTo (k : Nat) : Nat := Nat.pow 10 k

/-- `text` behind enough blanks to fill `width` columns. -/
def padLeft (width : Nat) (text : List Char) : List Char :=
  List.replicate (width - text.length) ' ' ++ text

def padded (width n : Nat) : List Char :=
  List.replicate (width - (digits n).length) '0' ++ digits n

variable {c : Char} {cs : List Char} {n : Nat}

theorem isDigit_of_mem_digits (h : c ∈ digits n) : isDigit c :=
  Nat.isDigit_of_mem_toDigits (by decide) (by decide) h

theorem isDigit_of_mem_padded {width : Nat} (h : c ∈ padded width n) : isDigit c := by
  rcases List.mem_append.1 h with hzero | h
  · obtain rfl := List.eq_of_mem_replicate hzero
    rfl
  · exact isDigit_of_mem_digits h

theorem length_padded {width : Nat} (h : (digits n).length ≤ width) :
    (padded width n).length = width := by
  rw [padded, List.length_append, List.length_replicate, Nat.sub_add_cancel h]

theorem digits_ne_nil (n : Nat) : digits n ≠ [] := Nat.toDigits_ne_nil

theorem valueOf_eq (cs : List Char) : valueOf cs = Nat.ofDigitChars 10 cs 0 := by
  simp [valueOf, Nat.ofDigitChars, digitValue, Nat.mul_comm]

theorem readNat_eq_some_iff :
    readNat cs = some n ↔ cs ≠ [] ∧ (∀ c ∈ cs, isDigit c) ∧ valueOf cs = n := by
  simp [readNat, and_assoc]

theorem readNat_digits (n : Nat) : readNat (digits n) = some n :=
  readNat_eq_some_iff.2 ⟨digits_ne_nil n, fun _ => isDigit_of_mem_digits,
    (valueOf_eq _).trans Nat.ofDigitChars_ten_toDigits⟩

theorem readUnsigned_eq_some_iff :
    readUnsigned cs = some n ↔ ∃ sign ds, cs = sign ++ ds ∧ (sign = [] ∨ sign = ['+']) ∧
      readNat ds = some n := by
  constructor
  · intro h
    unfold readUnsigned at h
    split at h
    next ds => exact ⟨['+'], ds, rfl, .inr rfl, h⟩
    next => exact ⟨[], cs, rfl, .inl rfl, h⟩
  · rintro ⟨sign, ds, rfl, rfl | rfl, h⟩
    · unfold readUnsigned
      split
      next more hds =>
        have hplus := (readNat_eq_some_iff.1 h).2.1 '+' (by rw [← List.nil_append ds, hds]; simp)
        cases hplus
      next => exact h
    · exact h

end FtpServer.Text
