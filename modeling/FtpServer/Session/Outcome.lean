import FtpServer.Session.Request

/-!
# What a command comes to

The reply of a command, whether the session goes on after it, and the transfer that is to begin
once the reply is out.
-/

namespace FtpServer

inductive Status
  | success
  | failure (reason : String)
  | close
  deriving DecidableEq, Repr

structure Outcome where
  status : Status
  /-- Nothing for a command that is ignored. -/
  reply : Option Reply
  transfer : Option Transfer
  deriving DecidableEq, Repr

namespace Outcome

def success (code : Nat) (text : String) : Outcome := ⟨.success, some ⟨code, text⟩, none⟩

def failure (code : Nat) (text : String) : Outcome := ⟨.failure text, some ⟨code, text⟩, none⟩

def close (code : Nat) (text : String) : Outcome := ⟨.close, some ⟨code, text⟩, none⟩

def ignored : Outcome := ⟨.success, none, none⟩

def begin (text : String) (transfer : Transfer) : Outcome :=
  ⟨.success, some ⟨Reply.fileStatusOk, text⟩, some transfer⟩

end Outcome

end FtpServer
