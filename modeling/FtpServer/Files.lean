import FtpServer.Listing
import FtpServer.Program

/-!
# Calls on the file tree

Everything that the server asks of the host's files, and what the tree answers.
-/

namespace FtpServer

open Text

inductive Source
  /-- Bytes that are there already. -/
  | bytes (rest : Bytes)
  /-- An open file and how far it has been read. -/
  | file (content offset : Nat)
  /-- An open node that cannot be read. -/
  | unreadable (cause : OsError)
  deriving DecidableEq, Repr

inductive Sink
  /-- An open file and how far it has been written. -/
  | file (content offset : Nat)
  /-- An open node that takes no byte. -/
  | unwritable (cause : OsError)
  deriving DecidableEq, Repr

inductive FileCall
  | look (p : Place)
  | makeDirectory (p : Place)
  | removeDirectory (p : Place)
  | removeFile (p : Place)
  | rename (source target : Place)
  | openSource (p : Place)
  | openSink (p : Place)
  | list (p : Place)
  deriving DecidableEq, Repr

namespace FileCall

def Answer : FileCall → Type
  | look _ => Except OsError Kind
  | makeDirectory _ | removeDirectory _ | removeFile _ | rename _ _ => Except OsError Unit
  | openSource _ => Except OsError Source
  | openSink _ => Except OsError Sink
  | list _ => Except OsError Bytes

def places : FileCall → List Place
  | look p | makeDirectory p | removeDirectory p | removeFile p | openSource p | openSink p
  | list p => [p]
  | rename source target => [source, target]

end FileCall

abbrev Files := Program FileCall.Answer

namespace Files

def look (p : Place) : Files (Except OsError Kind) := .ask (.look p) .done

def makeDirectory (p : Place) : Files (Except OsError Unit) := .ask (.makeDirectory p) .done

def removeDirectory (p : Place) : Files (Except OsError Unit) := .ask (.removeDirectory p) .done

def removeFile (p : Place) : Files (Except OsError Unit) := .ask (.removeFile p) .done

def rename (source target : Place) : Files (Except OsError Unit) :=
  .ask (.rename source target) .done

def openSource (p : Place) : Files (Except OsError Source) := .ask (.openSource p) .done

def openSink (p : Place) : Files (Except OsError Sink) := .ask (.openSink p) .done

def list (p : Place) : Files (Except OsError Bytes) := .ask (.list p) .done

/-- Whether the place names something of the kinds that `test` accepts. -/
def holds (p : Place) (test : Kind → Bool) : Files Bool := do
  match ← look p with
  | .ok kind => return test kind
  | .error _ => return false

end Files

namespace Tree

/-- The result of a call that changes the tree or refuses. -/
def changed (t : Tree) (result : Except OsError Tree) : Except OsError Unit × Tree :=
  match result with
  | .ok t => (.ok (), t)
  | .error e => (.error e, t)

def openSource (t : Tree) (p : Place) : Except OsError Source := do
  match ← t.openFile p with
  | some content => return .file content 0
  | none => return .unreadable .isADirectory

def openSink (t : Tree) (p : Place) : Except OsError Sink × Tree :=
  match t.createFile p with
  | .ok (some content, t) => (.ok (.file content 0), t)
  | .ok (none, t) => (.ok (.unwritable .noSpace), t)
  | .error e => (.error e, t)

/-- What a call answers and leaves; `lists` makes the listings. -/
def perform (lists : Place → Except OsError Bytes) : (c : FileCall) → Tree → c.Answer × Tree
  | .look p, t => (t.look p, t)
  | .makeDirectory p, t => t.changed (t.makeDirectory p)
  | .removeDirectory p, t => t.changed (t.removeDirectory p)
  | .removeFile p, t => t.changed (t.removeFile p)
  | .rename source target, t => t.changed (t.rename source target)
  | .openSource p, t => (t.openSource p, t)
  | .openSink p, t => t.openSink p
  | .list p, t => (lists p, t)

/-- The next bytes of a source, at most `most`; none at its end. -/
def readSource (t : Tree) (most : Nat) : Source → Except OsError (Bytes × Source)
  | .bytes rest => .ok (rest.take most, .bytes (rest.drop most))
  | .file content offset =>
    let chunk := (t.content content).read offset most
    .ok (chunk, .file content (offset + chunk.length))
  | .unreadable cause => .error cause

def writeSink (t : Tree) (chunk : Bytes) : Sink → Except OsError (Sink × Tree)
  | .file content offset =>
    .ok (.file content (offset + chunk.length),
      t.setContent content ((t.content content).write offset chunk))
  | .unwritable cause => if chunk = [] then .ok (.unwritable cause, t) else .error cause

end Tree

end FtpServer
