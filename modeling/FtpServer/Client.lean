import FtpServer.Address
import FtpServer.Path

/-!
# What a session knows of its client

The stage of the login, the identity, the working directory, a staged rename and the way the next
data connection is made.
-/

namespace FtpServer

inductive LoginStage
  | connected
  | awaitingPassword
  | ready
  deriving DecidableEq, Repr

inductive DataMode
  | none
  /-- The server connects to the address that `PORT` gave. -/
  | active (address : SocketV4)
  /-- The server waits where the reply to `PASV` said. -/
  | passive
  deriving DecidableEq, Repr

structure Client where
  address : Socket
  stage : LoginStage
  /-- Nothing before `USER`, and while an anonymous login awaits its password. -/
  username : Option String
  directory : Path
  renameSource : Option Path
  dataMode : DataMode
  deriving DecidableEq, Repr

namespace Client

def connect (address : Socket) : Client :=
  ⟨address, .connected, none, Path.root, none, .none⟩

def isLoggedIn (c : Client) : Bool := c.stage = .ready

/-- `USER` was accepted; no name selects anonymous login. -/
def beginLogin (c : Client) (name : Option String) : Client :=
  { c with username := name, stage := .awaitingPassword }

def completeLogin (c : Client) (identity : String) : Client :=
  { c with username := some identity, stage := .ready }

def resetLogin (c : Client) : Client :=
  { c with username := none, stage := .connected }

def enter (c : Client) (directory : Path) : Client := { c with directory := directory }

def stageRename (c : Client) (source : Path) : Client := { c with renameSource := some source }

def dropRename (c : Client) : Client := { c with renameSource := none }

def withMode (c : Client) (mode : DataMode) : Client := { c with dataMode := mode }

end Client

end FtpServer
