import FtpServer.Failure
import FtpServer.Files

/-!
# File commands

What the file commands do to the host, on resolved paths below the server root.  The root itself
is never removed, renamed or written to.
-/

namespace FtpServer.Storage

open Text Files

def isFile (k : Kind) : Bool := k = .file

def isDirectory (k : Kind) : Bool := k = .directory

def isAnything (_ : Kind) : Bool := true

def makeDirectory (root : String) (path : Path) : Files (Except StorageError Unit) := do
  return (← Files.makeDirectory (path.place root)).mapError .io

def removeDirectory (root : String) (path : Path) : Files (Except StorageError Unit) := do
  if path.isRoot then return .error .rootNotAllowed
  return (← Files.removeDirectory (path.place root)).mapError .io

def deleteFile (root : String) (path : Path) : Files (Except StorageError Unit) := do
  if ← holds (path.place root) isFile then
    return (← Files.removeFile (path.place root)).mapError .io
  else return .error (.fileNotFound path.text)

def rename (root : String) (source target : Path) : Files (Except StorageError Unit) := do
  if source.isRoot || target.isRoot then return .error .rootNotAllowed
  return (← Files.rename (source.place root) (target.place root)).mapError .io

def openDownload (root : String) (path : Path) : Files (Except StorageError Source) := do
  if ← holds (path.place root) isFile then
    return (← Files.openSource (path.place root)).mapError .io
  else return .error (.fileNotFound path.text)

def openUpload (root : String) (path : Path) : Files (Except StorageError Sink) := do
  if path.isRoot then return .error .rootNotAllowed
  return (← Files.openSink (path.place root)).mapError .io

def list (root : String) (path : Path) : Files (Except StorageError Bytes) := do
  if ← holds (path.place root) isAnything then
    return (← Files.list (path.place root)).mapError .io
  else return .error (.notFound path.text)

/-- The directory that `argument` names from `wd`. -/
def enter (root : String) (wd : Path) (argument : String) :
    Files (Except NavigationError Path) := do
  match wd.resolve argument with
  | none => return .error (.invalidPath (StorageError.pathRejected argument).message)
  | some path =>
    if ← holds (path.place root) isDirectory then return .ok path
    else return .error (.directoryNotFound path.text)

end FtpServer.Storage
