import FtpServer.Log
import FtpServer.Pattern.Meaning
import FtpServer.Text.Blank
import FtpServer.Text.Lowercase
import FtpServer.Text.Split

/-!
# Which records are shown

A filter is written as directives with commas between them: a level for everything, the name of a
part of the program, or `part=level`.  The longest part name that a record's part begins with
decides; without any directive only errors are shown.  Behind a slash stands a pattern that must
occur in a record.
-/

namespace FtpServer

open Text

/-- A record and the part of the program it comes from. -/
structure Notice where
  part : String
  record : Record
  deriving DecidableEq, Repr

namespace Log

/-- How much is shown: nothing at `0`, everything at `5`. -/
abbrev Rank := Nat

def levelRank : Level → Rank
  | .error => 1
  | .warn => 2
  | .info => 3

def everything : Rank := 5

def rank? (name : String) : Option Rank :=
  ["off", "error", "warn", "info", "debug", "trace"].idxOf? (lower name)

structure Directive where
  part : Option String
  rank : Rank
  deriving DecidableEq, Repr

structure Filter where
  directives : List Directive
  occurring : Option Pattern
  deriving DecidableEq, Repr

namespace Filter

def readDirective (text : String) : Except String Directive :=
  match (split '=' text.toList).map String.ofList with
  | [name] =>
    match rank? name with
    | some rank => .ok ⟨none, rank⟩
    | none => .ok ⟨some name, everything⟩
  | [part, level] =>
    let level := String.ofList (trim level.toList)
    if level = "" then .ok ⟨some part, everything⟩
    else
      match rank? level with
      | some rank => .ok ⟨some part, rank⟩
      | none => .error ("invalid logging spec '" ++ level ++ "'")
  | _ => .error ("invalid logging spec '" ++ text ++ "'")

/-- A directive takes the place of an earlier one for the same part. -/
def add (ds : List Directive) (d : Directive) : List Directive :=
  if ds.any fun e => e.part = d.part then ds.map fun e => if e.part = d.part then d else e
  else ds ++ [d]

/-- A pattern, if there is one, or what is wrong with it. -/
def readOccurring (text : Option (List Char)) : Option Pattern × List String :=
  match text with
  | none => (none, [])
  | some text =>
    match Pattern.read text with
    | .ok p => (some p, [])
    | .error refusal => (none, ["invalid regex filter - " ++ refusal.message text])

/-- The filter that a text describes, and what in it is passed over. -/
def read (text : String) : Filter × List String :=
  match (split '/' text.toList).map String.ofList with
  | _ :: _ :: _ :: _ => (⟨[], none⟩, ["invalid logging spec '" ++ text ++ "' (too many '/'s)"])
  | parts =>
    let written := ((split ',' (parts.headD "").toList).map fun cs => String.ofList (trim cs)).filter
      (· ≠ "")
    let results := written.map readDirective
    let directives := results.filterMap (·.toOption)
    let faults := results.filterMap fun
      | .error fault => some fault
      | .ok _ => none
    let (occurring, more) := readOccurring (parts[1]?.map String.toList)
    (⟨directives.foldl add [], occurring⟩, faults ++ more)

def warnings (faults : List String) : List String :=
  faults.flatMap fun fault =>
    (split '\n' ("warning: " ++ fault ++ ", ignoring it").toList).map String.ofList

def partLength (d : Directive) : Nat := (d.part.map String.utf8ByteSize).getD 0

def deciding? (f : Filter) (part : String) : Option Directive :=
  (f.directives.mergeSort fun a b => partLength a ≤ partLength b).reverse.find? fun d =>
    match d.part with
    | some name => part.startsWith name
    | none => true

def shows (f : Filter) (n : Notice) : Bool :=
  let limit := if f.directives = [] then levelRank .error
    else ((f.deciding? n.part).map Directive.rank).getD 0
  levelRank n.record.level ≤ limit
    && (f.occurring.map fun p => p.occursIn n.record.text.toList).getD true

end Filter

end Log

end FtpServer
