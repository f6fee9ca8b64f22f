import FtpServer.Address
import FtpServer.Os
import FtpServer.Reply

/-!
# Failures of file and transfer commands

Every failure of a session knows the code it is reported with.  Commands that create a name report
a rejected one with a code of their own.
-/

namespace FtpServer

inductive StorageError
  | pathRejected (argument : String)
  | fileNotFound (path : String)
  | notFound (path : String)
  | rootNotAllowed
  | io (cause : OsError)
  deriving DecidableEq, Repr

namespace StorageError

def message : StorageError → String
  | pathRejected argument => "Path rejected: " ++ argument
  | fileNotFound path => "File not found: " ++ path
  | notFound path => "Not found: " ++ path
  | rootNotAllowed => "Operation not permitted on the root directory"
  | io cause => "IO error: " ++ cause.message

/-- For commands that read or remove what exists. -/
def code (_ : StorageError) : Nat := Reply.fileUnavailable

def creationCode : StorageError → Nat
  | pathRejected _ => Reply.nameNotAllowed
  | _ => Reply.fileUnavailable

def replyText : StorageError → String
  | pathRejected _ => "File name not allowed."
  | fileNotFound _ | notFound _ => "No such file or directory."
  | rootNotAllowed => "Operation not permitted on the root directory."
  | io _ => "Requested action not taken."

end StorageError

inductive NavigationError
  | invalidPath (reason : String)
  | directoryNotFound (path : String)
  deriving DecidableEq, Repr

namespace NavigationError

def message : NavigationError → String
  | invalidPath reason => "Invalid path: " ++ reason
  | directoryNotFound path => "Directory not found: " ++ path

def code (_ : NavigationError) : Nat := Reply.fileUnavailable

end NavigationError

inductive TransferError
  | invalidPortArgument (argument : String)
  | listenerSetupFailed (cause : OsError)
  | unsupportedAddress (control : Socket)
  | connectionTimeout
  | dataChannelSetupFailed (cause : OsError)
  | peerMismatch (expected provided : Socket)
  deriving DecidableEq, Repr

namespace TransferError

def message : TransferError → String
  | invalidPortArgument argument => "Invalid PORT argument: " ++ argument
  | listenerSetupFailed cause => "Failed to set up passive listener: " ++ cause.message
  | unsupportedAddress control =>
    "Passive mode needs an IPv4 control address, got " ++ control.text
  | connectionTimeout => "Timed out establishing data connection"
  | dataChannelSetupFailed cause => "Failed to establish data connection: " ++ cause.message
  | peerMismatch expected provided =>
    "Data connection from " ++ provided.text ++ " refused, expected " ++ expected.text

def code : TransferError → Nat
  | invalidPortArgument _ => Reply.argumentError
  | listenerSetupFailed _ | unsupportedAddress _ => Reply.serviceClosing
  | connectionTimeout | dataChannelSetupFailed _ | peerMismatch _ _ => Reply.cannotOpenData

end TransferError

inductive ServerError
  | settings (reason : String)
  | serverRoot (path : String) (cause : OsError)
  | bind (address : String) (cause : OsError)
  | io (cause : OsError)
  deriving DecidableEq, Repr

def ServerError.message : ServerError → String
  | settings reason => "Configuration error: " ++ reason
  | serverRoot path cause => "Server root " ++ path ++ " unusable: " ++ cause.message
  | bind address cause => "Failed to bind " ++ address ++ ": " ++ cause.message
  | io cause => "I/O error: " ++ cause.message

end FtpServer
