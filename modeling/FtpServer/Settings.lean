import FtpServer.Text.Decimal

/-!
# Settings of the server

Everything an administrator can set, with the values that stand where nothing is said.  `check`
refuses the settings that no session could work with.
-/

namespace FtpServer

structure Settings where
  bindAddress : String := "0.0.0.0"
  /-- Zero leaves the choice to the host. -/
  controlPort : UInt16 := 21
  serverRoot : String := "/tmp"
  /-- Bytes moved at a time by a transfer. -/
  bufferSize : UInt64 := 1024
  connectionTimeoutSecs : UInt64 := 30
  /-- Bytes of a control line before its end. -/
  maxCommandLength : UInt64 := 1023
  maxUsernameLength : UInt64 := 64
  maxPasswordLength : UInt64 := 128
  authFailureDelayMs : UInt64 := 1000
  allowAnonymous : Bool := true
  /-- Passwords by user name; no name occurs twice. -/
  users : List (String × String) := []
  greeting : String := "RAX FTP server ready."
  deriving DecidableEq, Repr, Inhabited

namespace Settings

inductive Fault
  | emptyServerRoot
  | zeroBufferSize
  | zeroCommandLength
  | zeroCredentialLength
  deriving DecidableEq, Repr

def Fault.message : Fault → String
  | emptyServerRoot => "server_root cannot be empty"
  | zeroBufferSize => "buffer_size must be greater than 0"
  | zeroCommandLength => "max_command_length must be greater than 0"
  | zeroCredentialLength => "credential length limits must be greater than 0"

def fault? (s : Settings) : Option Fault :=
  if s.serverRoot = "" then some .emptyServerRoot
  else if s.bufferSize = 0 then some .zeroBufferSize
  else if s.maxCommandLength = 0 then some .zeroCommandLength
  else if s.maxUsernameLength = 0 ∨ s.maxPasswordLength = 0 then some .zeroCredentialLength
  else none

def check (s : Settings) : Except Fault Unit :=
  match s.fault? with
  | some f => .error f
  | none => .ok ()

/-- The address that control connections come to. -/
def controlSocket (s : Settings) : String :=
  s.bindAddress ++ ":" ++ Text.ofNat s.controlPort.toNat

def connectionTimeoutMs (s : Settings) : Nat := s.connectionTimeoutSecs.toNat * 1000

end Settings

end FtpServer
