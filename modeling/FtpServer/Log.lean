import FtpServer.Client
import FtpServer.Command
import FtpServer.Failure
import FtpServer.Account
import FtpServer.Text.Quoted
import FtpServer.Transfer.Slot

/-!
# The log

Records with a level and a text.  A password is shown as stars wherever a command is logged.

These are the records of the server, of a session and of what a session does with files.  Left out
are those of a transfer worker and its data connection, of a read of the control connection that
failed, and all that are only for debugging.
-/

namespace FtpServer

inductive Level
  | error
  | warn
  | info
  deriving DecidableEq, Repr

def Level.text : Level → String
  | error => "ERROR"
  | warn => "WARN"
  | info => "INFO"

structure Record where
  level : Level
  text : String
  deriving DecidableEq, Repr

namespace Record

def line (r : Record) : String := "[" ++ r.level.text ++ "] " ++ r.text

def describe (c : Command) : String :=
  match c with
  | .pass _ => "PASS ****"
  | c =>
    match c.argument? with
    | some arg => if arg = "" then c.verb else c.verb ++ " " ++ arg
    | none => c.verb

def executed (client : Socket) (c : Command) : Record :=
  ⟨.info, "Client " ++ client.text ++ " executed: " ++ describe c⟩

def connected (client : Socket) : Record :=
  ⟨.info, "Client connected: " ++ client.text⟩

def loggedIn (client : Socket) (identity : String) : Record :=
  ⟨.info, "Client " ++ client.text ++ " logged in as " ++ identity⟩

def loginRefused (client : Socket) (e : LoginError) : Record :=
  ⟨.warn, "Authentication error for " ++ client.text ++ ": " ++ e.message⟩

def portRejected (client : Socket) (e : TransferError) : Record :=
  ⟨.warn, "PORT from " ++ client.text ++ " rejected: " ++ e.message⟩

def portAnnounced (client : Socket) (address : SocketV4) : Record :=
  ⟨.info, "Client " ++ client.text ++ " announced data socket " ++ address.text ++ " in PORT mode"⟩

def passiveBound (client : Socket) (address : SocketV4) : Record :=
  ⟨.info, "Client " ++ client.text ++ " bound to data socket " ++ address.text ++ " in PASV mode"⟩

def passiveFailed (client : Socket) (e : TransferError) : Record :=
  ⟨.error, "PASV setup failed for " ++ client.text ++ ": " ++ e.message⟩

def directoryChanged (client : Socket) (directory : Path) : Record :=
  ⟨.info, "Client " ++ client.text ++ " changed directory to " ++ directory.text⟩

def directoryRefused (client : Socket) (e : NavigationError) : Record :=
  ⟨.warn, "CWD refused for " ++ client.text ++ ": " ++ e.message⟩

def directoryMade (path : Path) : Record := ⟨.info, "Created directory " ++ path.text⟩

def directoryRemoved (path : Path) : Record := ⟨.info, "Removed directory " ++ path.text⟩

def fileDeleted (path : Path) : Record := ⟨.info, "Deleted file " ++ path.text⟩

def renamed (source target : Path) : Record :=
  ⟨.info, "Renamed " ++ source.text ++ " to " ++ target.text⟩

def renameDropped (source : Path) : Record :=
  ⟨.info, "Dropping staged rename source " ++ source.text⟩

def transferIgnored (client : Socket) : Record :=
  ⟨.info, "Ignoring data command from " ++ client.text ++ " while a transfer is in progress"⟩

def retrieving (client : Socket) (path : Path) : Record :=
  ⟨.info, "Client " ++ client.text ++ " retrieving " ++ path.text⟩

def storing (client : Socket) (path : Path) : Record :=
  ⟨.info, "Client " ++ client.text ++ " storing " ++ path.text⟩

def aborted (client : Socket) : Record :=
  ⟨.info, "Client " ++ client.text ++ " aborted its transfer"⟩

/-- A failure of the host is an error; a refusal by the server is a warning. -/
def storage (client : Socket) (verb : String) (e : StorageError) : Record :=
  match e with
  | .io cause => ⟨.error, verb ++ " failed for client " ++ client.text ++ ": " ++ cause.message⟩
  | e => ⟨.warn, verb ++ " refused for client " ++ client.text ++ ": " ++ e.message⟩

/-- A line that was too long, by what it begins with. -/
def oversized (client : Socket) (kept : String) : Record :=
  ⟨.warn, "Client " ++ client.text ++ " sent an oversized command line starting with "
    ++ Text.quoted (kept.take 16).toString⟩

def unparseable (client : Socket) (e : CommandError) : Record :=
  ⟨.warn, "Unparseable command from " ++ client.text ++ ": " ++ e.message⟩

def replyFailed (client : Socket) (cause : OsError) : Record :=
  ⟨.error, "Failed to write reply to " ++ client.text ++ ": " ++ cause.message⟩

def commandFailed (client : Socket) (c : Command) (reason : String) : Record :=
  ⟨.info, c.verb ++ " failed for client " ++ client.text ++ ": " ++ reason⟩

def closing (client : Socket) : Record :=
  ⟨.info, "Closing control connection of " ++ client.text⟩

def closedByClient (client : Socket) : Record :=
  ⟨.info, "Connection closed by client " ++ client.text⟩

def disconnected (client : Socket) : Record :=
  ⟨.info, "Client " ++ client.text ++ " disconnected"⟩

def sessionFailed (client : Socket) (cause : OsError) : Record :=
  ⟨.warn, "Failed to handle client " ++ client.text ++ ": " ++ cause.message⟩

def acceptFailed (cause : OsError) : Record :=
  ⟨.error, "Error accepting connection: " ++ cause.message⟩

/-- Who the client was, and what its session moved. -/
def closed (c : Client) (t : Totals) : Record :=
  ⟨.info, "Session " ++ c.address.text ++ " (" ++ c.username.getD "not logged in" ++ ") closed: "
    ++ Text.ofNat t.files.toNat ++ " files, " ++ Text.ofNat t.bytes.toNat ++ " bytes transferred"⟩

def launching : Record := ⟨.info, "Launching FTP server..."⟩

def rootDirectory (path : String) : Record := ⟨.info, "Server root directory: " ++ path⟩

def bound (address : String) : Record := ⟨.info, "Server bound to " ++ address⟩

def starting (address : String) : Record := ⟨.info, "Starting RAX FTP server on " ++ address⟩

def fatal (e : ServerError) : Record := ⟨.error, "FTP Server Error: " ++ e.message⟩

end Record

end FtpServer
