import FtpServer.Client
import FtpServer.Control
import FtpServer.Files
import FtpServer.Log
import FtpServer.Program
import FtpServer.Transfer.Endpoint
import FtpServer.Transfer.Slot

/-!
# What a session does in one step

A session is a program whose questions are its atomic steps: calls on the host, on the transfer
slot, on its worker and on the control connection.  Workers move between any two of them.
-/

namespace FtpServer

open Text

abbrev Transfer := Handle Source Sink

inductive Request
  | file (call : FileCall)
  /-- Asks whether a password belongs to a user. -/
  | authenticate (name password : String)
  | pause (ms : Nat)
  | note (record : Record)
  /-- Opens a listener for one data connection. -/
  | listen (ip : Ipv4)
  | holdsWorker
  /-- Lets go of the worker, and says which one it was. -/
  | letGoWorker
  /-- Waits until a worker has ended. -/
  | joinWorker (number : Nat)
  | startWorker (endpoint : Endpoint)
  | isInProgress
  | isArmed
  | install (transfer : Transfer)
  | cancel
  | finish
  | rearm
  | totals
  /-- Waits for the control connection and takes it. -/
  | lockControl
  | writeReply (reply : Reply)
  | shutControl
  | unlockControl
  deriving DecidableEq, Repr

namespace Request

def Answer : Request → Type
  | file call => call.Answer
  | authenticate _ _ | holdsWorker | isInProgress | isArmed => Bool
  | listen _ => Except OsError UInt16
  | letGoWorker => Option Nat
  | totals => Totals
  | writeReply _ => Except OsError Unit
  | pause _ | note _ | joinWorker _ | startWorker _ | install _ | cancel | finish | rearm
  | lockControl | shutControl | unlockControl => Unit

end Request

abbrev Dialogue := Program Request.Answer

namespace Dialogue

def ofFiles {α : Type} : Files α → Dialogue α
  | .done a => .done a
  | .ask call next => .ask (.file call) fun r => ofFiles (next r)

def authenticate (name password : String) : Dialogue Bool := .ask (.authenticate name password) .done

def pause (ms : Nat) : Dialogue Unit := .ask (.pause ms) .done

def note (record : Record) : Dialogue Unit := .ask (.note record) .done

def listen (ip : Ipv4) : Dialogue (Except OsError UInt16) := .ask (.listen ip) .done

def holdsWorker : Dialogue Bool := .ask .holdsWorker .done

def letGoWorker : Dialogue (Option Nat) := .ask .letGoWorker .done

def joinWorker (number : Nat) : Dialogue Unit := .ask (.joinWorker number) .done

def startWorker (endpoint : Endpoint) : Dialogue Unit := .ask (.startWorker endpoint) .done

def isInProgress : Dialogue Bool := .ask .isInProgress .done

def isArmed : Dialogue Bool := .ask .isArmed .done

def install (transfer : Transfer) : Dialogue Unit := .ask (.install transfer) .done

def cancel : Dialogue Unit := .ask .cancel .done

def finish : Dialogue Unit := .ask .finish .done

def rearm : Dialogue Unit := .ask .rearm .done

def totals : Dialogue Totals := .ask .totals .done

def lockControl : Dialogue Unit := .ask .lockControl .done

def writeReply (reply : Reply) : Dialogue (Except OsError Unit) := .ask (.writeReply reply) .done

def shutControl : Dialogue Unit := .ask .shutControl .done

def unlockControl : Dialogue Unit := .ask .unlockControl .done

def send (reply : Reply) : Dialogue (Except OsError Unit) := do
  lockControl
  let result ← writeReply reply
  unlockControl
  return result

end Dialogue

end FtpServer
