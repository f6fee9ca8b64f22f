import FtpServer.Civil
import FtpServer.Text.Decimal
import FtpServer.Tree

/-!
# Directory listings

A listing has one row for every entry of a directory, in the order of the names' bytes: type and
permissions, owner, size, time of the last change, and the name.  What is no directory is listed
as the only row.  How a moment is written and what the size of a directory is depends on the host.
-/

namespace FtpServer

open Text

/-- How a host writes moments: in twelve columns of one line. -/
structure DateStyle where
  write : Int → List Char
  length_write : ∀ seconds, (write seconds).length = 12
  write_plain : ∀ seconds, '\r' ∉ write seconds ∧ '\n' ∉ write seconds

namespace DateStyle

def monthName : Nat → String
  | 1 => "Jan"
  | 2 => "Feb"
  | 3 => "Mar"
  | 4 => "Apr"
  | 5 => "May"
  | 6 => "Jun"
  | 7 => "Jul"
  | 8 => "Aug"
  | 9 => "Sep"
  | 10 => "Oct"
  | 11 => "Nov"
  | _ => "Dec"

def chars (c : Civil) : List Char :=
  (monthName c.month).toList ++ ' ' :: padded 2 c.day ++ ' ' :: padded 2 c.hour
    ++ ':' :: padded 2 c.minute

theorem monthName_plain (m : Nat) : (monthName m).toList.length = 3 ∧
    '\r' ∉ (monthName m).toList ∧ '\n' ∉ (monthName m).toList := by
  unfold monthName
  split <;> decide

theorem length_chars (seconds : Int) : (chars (.ofSeconds seconds)).length = 12 := by
  obtain ⟨hday, hhour, hminute⟩ := Civil.ofSeconds_lt seconds
  have htwo {n : Nat} (h : n < 100) : (padded 2 n).length = 2 :=
    length_padded ((Nat.length_toDigits_le_iff (by decide) (by decide)).2 h)
  simp [chars, (monthName_plain _).1, htwo hday, htwo hhour, htwo hminute]

theorem chars_plain (c : Civil) : '\r' ∉ chars c ∧ '\n' ∉ chars c := by
  have hreturn (n : Nat) : '\r' ∉ padded 2 n := fun h => nomatch isDigit_of_mem_padded h
  have hfeed (n : Nat) : '\n' ∉ padded 2 n := fun h => nomatch isDigit_of_mem_padded h
  constructor
  · simp [chars, (monthName_plain _).2.1, hreturn]
  · simp [chars, (monthName_plain _).2.2, hfeed]

/-- Where the time is `offset` seconds ahead, which may depend on the moment. -/
def ofZone (offset : Int → Int) : DateStyle where
  write seconds := chars (.ofSeconds (seconds + offset seconds))
  length_write _ := length_chars _
  write_plain _ := chars_plain _

def utc : DateStyle := ofZone fun _ => 0

end DateStyle

structure Row where
  kind : Kind
  mode : Nat
  size : Nat
  modified : Int
  name : String
  deriving DecidableEq, Repr

namespace Row

def kindMark : Kind → Char
  | .directory => 'd'
  | .symlink => 'l'
  | .file | .other => '-'

def triad (bits : Nat) : List Char :=
  [if bits.testBit 2 then 'r' else '-', if bits.testBit 1 then 'w' else '-',
    if bits.testBit 0 then 'x' else '-']

def permissions (kind : Kind) (mode : Nat) : List Char :=
  kindMark kind :: (triad (mode / 64) ++ triad (mode / 8) ++ triad mode)

def sizeWidth : Nat := 12

def owner : String := " 1 ftp ftp "

def chars (style : DateStyle) (r : Row) : List Char :=
  permissions r.kind r.mode ++ owner.toList ++ padLeft sizeWidth (digits r.size)
    ++ ' ' :: style.write r.modified ++ ' ' :: r.name.toList ++ ['\r', '\n']

def listing (style : DateStyle) (rows : List Row) : Bytes :=
  encode (String.ofList (rows.flatMap (chars style)))

end Row

def nameLe (a b : Row) : Bool := encode a.name ≤ encode b.name

namespace Tree

/-- The size of a node at a key; `sizes` are those that the host gives directories. -/
def sizeOf (t : Tree) (sizes : Key → Nat) (k : Key) : Node → Nat
  | .directory => sizes k
  | .file content => (t.content content).size
  | .symlink target => target.length
  | .other => 0

def row (t : Tree) (sizes : Key → Nat) (k : Key) (name : Bytes) (e : Entry) : Row :=
  ⟨e.node.kind, e.mode, t.sizeOf sizes k e.node, e.modified, decode name⟩

def rows (t : Tree) (sizes : Key → Nat) (k : Key) : List Row :=
  ((t.children k).map fun (name, e) => t.row sizes (k ++ [name]) name e).mergeSort nameLe

/-- The last name of a place; slashes and dots at its end do not count. -/
def lastName (p : Place) : Bytes :=
  match p.names.reverse.dropWhile fun name => name = [] ∨ name = dot with
  | name :: _ => if name = dotdot then [] else name
  | [] => []

def list (t : Tree) (style : DateStyle) (sizes : Key → Nat) (p : Place) : Except OsError Bytes := do
  match ← t.locate p with
  | .existing k ⟨.directory, _, _⟩ => return Row.listing style (t.rows sizes k)
  | .existing k e => return Row.listing style [t.row sizes k (lastName p) e]
  | .missing _ _ => throw .notFound

end Tree

end FtpServer
