import FtpServer.Session.Data
import FtpServer.Storage

/-!
# File commands of a session

Commands on files and directories, and the three that open a transfer.  Arguments are resolved
from the working directory.
-/

namespace FtpServer.Session

open Dialogue Text

def refuseStorage (c : Client) (verb : String) (e : StorageError) (code : Nat) : Step := do
  note (.storage c.address verb e)
  return (c, .failure code e.replyText)

/-- The refusal of a command that reads or removes what exists. -/
def refuse (c : Client) (verb : String) (e : StorageError) : Step := refuseStorage c verb e e.code

/-- The refusal of a command that creates a name. -/
def refuseCreation (c : Client) (verb : String) (e : StorageError) : Step :=
  refuseStorage c verb e e.creationCode

def onCwd (ctx : Context) (c : Client) (argument : String) : Step := do
  match ← ofFiles (Storage.enter ctx.root c.directory argument) with
  | .ok path =>
    note (.directoryChanged c.address path)
    return (c.enter path, .success Reply.fileActionOk ("Directory changed to " ++ path.text ++ "."))
  | .error e =>
    note (.directoryRefused c.address e)
    return (c, .failure e.code "Directory not found.")

def onPwd (c : Client) : Outcome :=
  .success Reply.pathCreated ("\"" ++ c.directory.text ++ "\" is the current directory.")

def onMkd (ctx : Context) (c : Client) (argument : String) : Step := do
  match c.directory.resolve argument with
  | none => refuseCreation c "MKD" (.pathRejected argument)
  | some path =>
    match ← ofFiles (Storage.makeDirectory ctx.root path) with
    | .ok () =>
      note (.directoryMade path)
      return (c, .success Reply.fileActionOk ("\"" ++ path.text ++ "\" created."))
    | .error e => refuseCreation c "MKD" e

/-- A session whose working directory is removed moves to its parent. -/
def onRmd (ctx : Context) (c : Client) (argument : String) : Step := do
  match c.directory.resolve argument with
  | none => refuse c "RMD" (.pathRejected argument)
  | some path =>
    match ← ofFiles (Storage.removeDirectory ctx.root path) with
    | .ok () =>
      note (.directoryRemoved path)
      return (c.enter (c.directory.afterRemove path),
        .success Reply.fileActionOk "Directory removed.")
    | .error e => refuse c "RMD" e

def onDele (ctx : Context) (c : Client) (argument : String) : Step := do
  match c.directory.resolve argument with
  | none => refuse c "DELE" (.pathRejected argument)
  | some path =>
    match ← ofFiles (Storage.deleteFile ctx.root path) with
    | .ok () =>
      note (.fileDeleted path)
      return (c, .success Reply.fileActionOk "File deleted.")
    | .error e => refuse c "DELE" e

def unstage (c : Client) : Dialogue Client := do
  match c.renameSource with
  | some source => note (.renameDropped source)
  | none => pure ()
  return c.dropRename

/-- Whatever was staged before is dropped, also where nothing new is staged. -/
def onRnfr (ctx : Context) (c : Client) (argument : String) : Step := do
  let c ← unstage c
  match c.directory.resolve argument with
  | none => refuse c "RNFR" (.pathRejected argument)
  | some path =>
    if path.isRoot then refuse c "RNFR" .rootNotAllowed
    else if ← ofFiles (Files.holds (path.place ctx.root) Storage.isAnything) then
      return (c.stageRename path, .success Reply.fileActionOk "Ready for RNTO.")
    else refuse c "RNFR" (.notFound path.text)

/-- A working directory at or below the renamed path goes with it. -/
def onRnto (ctx : Context) (c : Client) (argument : String) : Step := do
  match c.renameSource with
  | none => return (c, .failure Reply.badSequence "RNFR required first.")
  | some source =>
    let c := c.dropRename
    match c.directory.resolve argument with
    | none => refuseCreation c "RNTO" (.pathRejected argument)
    | some target =>
      match ← ofFiles (Storage.rename ctx.root source target) with
      | .ok () =>
        note (.renamed source target)
        return (c.enter (c.directory.afterRename source target),
          .success Reply.fileActionOk "Rename successful.")
      | .error e => refuseCreation c "RNTO" e

/-- Runs a command that opens a transfer, unless one is in progress or there is no data mode. -/
def withData (c : Client) (command : Client → Step) : Step := do
  let c ← reapWorker c
  if ← isInProgress then
    note (.transferIgnored c.address)
    return (c, .ignored)
  else if c.dataMode = .none then
    return (c, .failure Reply.cannotOpenData "Use PORT or PASV first.")
  else command c

/-- An argument that looks like an option counts as none. -/
def listTarget (c : Client) (argument : String) : Option Path :=
  if argument = "" ∨ argument.toList.head? = some '-' then some c.directory
  else c.directory.resolve argument

def beginList (ctx : Context) (argument : String) (c : Client) : Step := do
  match listTarget c argument with
  | none => refuse c "LIST" (.pathRejected argument)
  | some path =>
    match ← ofFiles (Storage.list ctx.root path) with
    | .ok listing =>
      return (c, .begin "Here comes the directory listing."
        ⟨.sendListing, some (.source (.bytes listing))⟩)
    | .error e => refuse c "LIST" e

def onList (ctx : Context) (c : Client) (argument : String) : Step :=
  withData c (beginList ctx argument)

def beginRetr (ctx : Context) (argument : String) (c : Client) : Step := do
  match c.directory.resolve argument with
  | none => refuse c "RETR" (.pathRejected argument)
  | some path =>
    match ← ofFiles (Storage.openDownload ctx.root path) with
    | .ok source =>
      note (.retrieving c.address path)
      return (c, .begin ("Opening BINARY mode data connection for " ++ path.text ++ ".")
        ⟨.sendFile, some (.source source)⟩)
    | .error e => refuse c "RETR" e

def onRetr (ctx : Context) (c : Client) (argument : String) : Step :=
  withData c (beginRetr ctx argument)

def beginStor (ctx : Context) (argument : String) (c : Client) : Step := do
  match c.directory.resolve argument with
  | none => refuseCreation c "STOR" (.pathRejected argument)
  | some path =>
    match ← ofFiles (Storage.openUpload ctx.root path) with
    | .ok sink =>
      note (.storing c.address path)
      return (c, .begin ("Ok to send data for " ++ path.text ++ ".")
        ⟨.receiveFile, some (.sink sink)⟩)
    | .error e => refuseCreation c "STOR" e

def onStor (ctx : Context) (c : Client) (argument : String) : Step :=
  withData c (beginStor ctx argument)

end FtpServer.Session
