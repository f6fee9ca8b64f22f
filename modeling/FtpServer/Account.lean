import FtpServer.Reply
import FtpServer.Settings
import FtpServer.Text.Blank

/-!
# Who may log in

What a user name and a password must look like, the identity of an anonymous client, and the
default table of credentials.  Lengths are counted in bytes.
-/

namespace FtpServer

inductive LoginError
  | invalidUsername (name : String)
  | malformedInput (what : String)
  | loginIncorrect (name : String)
  | passwordTooLong
  | anonymousDisabled
  | alreadyLoggedIn
  | userRequired
  deriving DecidableEq, Repr

namespace LoginError

def message : LoginError → String
  | invalidUsername name => "Invalid username: " ++ name
  | malformedInput what => "Malformed input: " ++ what
  | loginIncorrect name => "Login incorrect for user: " ++ name
  | passwordTooLong => "Anonymous password too long"
  | anonymousDisabled => "Anonymous access is disabled"
  | alreadyLoggedIn => "User already logged in"
  | userRequired => "PASS issued before USER"

def code : LoginError → Nat
  | invalidUsername _ | malformedInput _ => Reply.argumentError
  | alreadyLoggedIn | userRequired => Reply.badSequence
  | loginIncorrect _ | passwordTooLong | anonymousDisabled => Reply.notLoggedIn

def replyText : LoginError → String
  | loginIncorrect _ => "Login incorrect."
  | passwordTooLong => "Password too long."
  | anonymousDisabled => "Anonymous access is disabled."
  | alreadyLoggedIn => "Already logged in."
  | userRequired => "Specify your username first."
  | e => e.message ++ "."

end LoginError

namespace Account

open Text

def anonymous : String := "anonymous"

/-- No character that could end a line or a text early. -/
def isClean (text : String) : Bool :=
  text.toList.all fun c => c != '\r' && c != '\n' && c != '\x00'

def isAcceptable (text : String) (most : UInt64) : Bool :=
  text.utf8ByteSize ≤ most.toNat && isClean text

def isBlankName (name : String) : Bool := name.toList.all isBlank

def checkUser (settings : Settings) (name : String) : Except LoginError Unit :=
  if isBlankName name || !isAcceptable name settings.maxUsernameLength then
    .error (.invalidUsername name)
  else if name = anonymous ∧ settings.allowAnonymous = false then .error .anonymousDisabled
  else .ok ()

/-- The identity that an anonymous client gets from the password it sends. -/
def anonymousIdentity (settings : Settings) (password : String) : Except LoginError String :=
  if settings.maxPasswordLength.toNat < password.utf8ByteSize then .error .passwordTooLong
  else if !isAcceptable password settings.maxPasswordLength then
    .error (.malformedInput "Invalid password format")
  else .ok (anonymous ++ "/" ++ password)

abbrev Credentials := List (String × String)

def Credentials.accept (table : Credentials) (name password : String) : Bool :=
  table.lookup name == some password

end Account

end FtpServer
