/-!
# Refusals of the operating system

The errors that file and network calls end with, and the texts they are reported with.
-/

namespace FtpServer

inductive OsError
  | notFound
  | inputOutput
  | badDescriptor
  | permissionDenied
  | busy
  | alreadyExists
  | notADirectory
  | isADirectory
  | invalidArgument
  | noSpace
  | brokenPipe
  | nameTooLong
  | notEmpty
  | symlinkLoop
  | addressUnavailable
  | nulInName
  | connectionReset
  | connectionRefused
  /-- An error that carries a text of its own. -/
  | other (text : String)
  deriving DecidableEq, Repr

namespace OsError

def message : OsError → String
  | notFound => "No such file or directory (os error 2)"
  | inputOutput => "Input/output error (os error 5)"
  | badDescriptor => "Bad file descriptor (os error 9)"
  | permissionDenied => "Permission denied (os error 13)"
  | busy => "Device or resource busy (os error 16)"
  | alreadyExists => "File exists (os error 17)"
  | notADirectory => "Not a directory (os error 20)"
  | isADirectory => "Is a directory (os error 21)"
  | invalidArgument => "Invalid argument (os error 22)"
  | noSpace => "No space left on device (os error 28)"
  | brokenPipe => "Broken pipe (os error 32)"
  | nameTooLong => "File name too long (os error 36)"
  | notEmpty => "Directory not empty (os error 39)"
  | symlinkLoop => "Too many levels of symbolic links (os error 40)"
  | addressUnavailable => "Cannot assign requested address (os error 99)"
  | nulInName => "file name contained an unexpected NUL byte"
  | connectionReset => "Connection reset by peer (os error 104)"
  | connectionRefused => "Connection refused (os error 111)"
  | other text => text

/-- The error that a host calls by a number, with what it says about one that has no name here. -/
def ofNumber (number : Nat) (text : String) : OsError :=
  match number with
  | 2 => notFound
  | 5 => inputOutput
  | 9 => badDescriptor
  | 13 => permissionDenied
  | 16 => busy
  | 17 => alreadyExists
  | 20 => notADirectory
  | 21 => isADirectory
  | 22 => invalidArgument
  | 28 => noSpace
  | 32 => brokenPipe
  | 36 => nameTooLong
  | 39 => notEmpty
  | 40 => symlinkLoop
  | 99 => addressUnavailable
  | 104 => connectionReset
  | 111 => connectionRefused
  | _ => other text

end OsError

end FtpServer
