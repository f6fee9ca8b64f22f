import FtpServer.Tree.Root
import Std.Time.Zoned

/-!
# The files of the host

Answers to the calls on files from the host's own file tree.  The host does not tell permissions:
listings show those that the server gives to what it makes.
-/

namespace FtpServer.Host

open Text

/-- What the host says about a call that failed. -/
def causeOf (e : IO.Error) : OsError :=
  match e with
  | .noFileOrDirectory _ number text | .interrupted _ number text => .ofNumber number.toNat text
  | .alreadyExists _ number text | .invalidArgument _ number text
  | .permissionDenied _ number text | .resourceExhausted _ number text
  | .inappropriateType _ number text | .noSuchThing _ number text => .ofNumber number.toNat text
  | .otherError number text | .resourceBusy number text | .resourceVanished number text
  | .unsupportedOperation number text | .hardwareFault number text
  | .unsatisfiedConstraints number text | .illegalOperation number text
  | .protocolError number text | .timeExpired number text => .ofNumber number.toNat text
  | .unexpectedEof => .other "unexpected end of file"
  | .userError text => .other text

def attempt {α : Type} (act : IO α) : IO (Except OsError α) := do
  try return .ok (← act)
  catch e => return .error (causeOf e)

/-- A call on the name of a place, if the place has one that a call can take. -/
def atPlace {α : Type} (p : Place) (act : String → IO α) : IO (Except OsError α) :=
  match Tree.namesOf p with
  | .error cause => return .error cause
  | .ok _ => attempt (act p.text)

def kindOf : IO.FS.FileType → Kind
  | .dir => .directory
  | .file => .file
  | .symlink => .symlink
  | .other => .other

def rowOf (name : String) (m : IO.FS.Metadata) : Row :=
  let kind := kindOf m.type
  ⟨kind, Tree.usualMode kind, m.byteSize.toNat, m.modified.sec, name⟩

/-- The rows of a directory; an entry that has gone meanwhile has none. -/
def rowsAt (path : String) : IO (List Row) := do
  let mut rows : List Row := []
  for entry in ← (← IO.FS.realPath path).readDir do
    match ← attempt entry.path.symlinkMetadata with
    | .ok m => rows := rowOf entry.fileName m :: rows
    | .error _ => pure ()
  return rows.mergeSort nameLe

/-- Dates in the time zone of the host, if it tells one. -/
def dateStyle : IO DateStyle := do
  match ← attempt Std.Time.Database.defaultGetLocalZoneRules with
  | .ok rules =>
    return .ofZone fun seconds =>
      let moment := Std.Time.Timestamp.ofSecondsSinceUnixEpoch (.ofInt seconds)
      (rules.findLocalTimeTypeForTimestamp moment).gmtOffset.second.val
  | .error _ => return .utc

def list (p : Place) (path : String) : IO Bytes := do
  let style ← dateStyle
  let m ← (← IO.FS.realPath path).metadata
  match kindOf m.type with
  | .directory => return Row.listing style (← rowsAt path)
  | _ => return Row.listing style [rowOf (decode (Tree.lastName p)) m]

/-- Answers a call; `keep` takes a file that was opened to be written. -/
def perform (keep : IO.FS.Handle → IO Sink) : (call : FileCall) → IO call.Answer
  | .look p => atPlace p fun path => do
      return kindOf (← (← IO.FS.realPath path).metadata).type
  | .makeDirectory p => atPlace p fun path => IO.FS.createDir path
  | .removeDirectory p => atPlace p fun path => IO.FS.removeDir path
  | .removeFile p => atPlace p fun path => IO.FS.removeFile path
  | .rename source target => do
      match Tree.namesOf target with
      | .error cause => return .error cause
      | .ok _ => atPlace source fun path => IO.FS.rename path target.text
  | .openSource p => atPlace p fun path => do
      return .bytes (← IO.FS.readBinFile path).toList
  | .openSink p => atPlace p fun path => do
      keep (← IO.FS.Handle.mk path .write)
  | .list p => atPlace p (list p)

/-- No file is opened to be written while the server root is made. -/
def keepNone (_ : IO.FS.Handle) : IO Sink := return .unwritable .badDescriptor

/-- The path without links to the server root, once it is there. -/
def prepareRoot (path : String) : IO (Except OsError String) := do
  let p := Place.ofText path
  match ← (Files.makeDirectories p (Place.above path)).interpret (perform keepNone) with
  | .error cause => return .error cause
  | .ok () => attempt do return (← IO.FS.realPath path).toString

end FtpServer.Host
