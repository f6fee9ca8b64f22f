import FtpServer.Session.FileCommands
import FtpServer.Text.Blank

/-!
# Commands of a session

Which command does what.  Until the client has logged in most of them are refused.
-/

namespace FtpServer.Session

open Text

def loginFirst : Outcome := .failure Reply.notLoggedIn "Please login with USER and PASS."

def onType (kind : String) : Outcome :=
  if (trim kind.toList).map Char.toUpper = ['I'] then .success Reply.ok "Type set to I."
  else .failure Reply.parameterNotImplemented "Only binary mode is supported."

def unknown (verb : String) : Outcome :=
  .success Reply.unknownCommand ("Unknown command \"" ++ verb ++ "\".")

/-- What a command does once nothing stands against it. -/
def dispatch (ctx : Context) (c : Client) : Command → Step
  | .user name => onUser ctx c name
  | .pass password => onPass ctx c password
  | .syst => return (c, .success Reply.systemType "UNIX Type: L8")
  | .type kind => return (c, onType kind)
  | .noop => return (c, .success Reply.ok "NOOP ok.")
  | .port argument => onPort c argument
  | .pasv => onPasv ctx c
  | .cwd argument => onCwd ctx c argument
  | .cdup => onCwd ctx c ".."
  | .pwd => return (c, onPwd c)
  | .mkd argument => onMkd ctx c argument
  | .rmd argument => onRmd ctx c argument
  | .dele argument => onDele ctx c argument
  | .rnfr argument => onRnfr ctx c argument
  | .rnto argument => onRnto ctx c argument
  | .list argument => onList ctx c argument
  | .retr argument => onRetr ctx c argument
  | .stor argument => onStor ctx c argument
  | .abor => onAbor c
  | .quit => onQuit c
  | .unknown verb => return (c, unknown verb)

def handle (ctx : Context) (c : Client) (command : Command) : Step :=
  if command.requiresLogin && !c.isLoggedIn then return (c, loginFirst)
  else dispatch ctx c command

end FtpServer.Session
