import FtpServer.Address.HostPort
import FtpServer.Session.Login

/-!
# Data connections of a session

A session has at most one worker.  `PORT` and `PASV` replace it by a new one; a worker that left
the slot by itself is forgotten before the next command that cares.
-/

namespace FtpServer.Session

open Dialogue

/-- Forgets a worker that has left the slot; another `PORT` or `PASV` is then needed. -/
def reapWorker (c : Client) : Dialogue Client := do
  if ← holdsWorker then
    if ← isArmed then return c
    else
      let _ ← letGoWorker
      return c.withMode .none
  else return c

def stopWorker (c : Client) : Dialogue Client := do
  match ← letGoWorker with
  | some number =>
    cancel
    joinWorker number
    finish
    return c.withMode .none
  | none => return c.withMode .none

def startWorker (c : Client) (endpoint : Endpoint) (mode : DataMode) : Dialogue Client := do
  let c ← stopWorker c
  rearm
  Dialogue.startWorker endpoint
  return c.withMode mode

def busy : Outcome := .failure Reply.badSequence "Transfer in progress."

def onPort (c : Client) (argument : String) : Step := do
  let c ← reapWorker c
  if ← isInProgress then return (c, busy)
  else
    match HostPort.decode? argument with
    | some address =>
      note (.portAnnounced c.address address)
      let c ← startWorker c (.active address) (.active address)
      return (c, .success Reply.ok "PORT command successful.")
    | none =>
      let e := TransferError.invalidPortArgument argument
      note (.portRejected c.address e)
      return (c, .failure e.code "Illegal PORT command.")

/-- Opens a listener on our address of the control connection. -/
def openListener (ctx : Context) : Dialogue (Except TransferError SocketV4) := do
  match Endpoint.listenAddress ctx.control with
  | .error e => return .error e
  | .ok ip =>
    match ← listen ip with
    | .ok port => return .ok ⟨ip, port⟩
    | .error cause => return .error (.listenerSetupFailed cause)

def announcement (address : SocketV4) : String :=
  "Entering Passive Mode (" ++ HostPort.encode address ++ ")."

/-- Without a listener there is no way on, for the worker before it is already gone. -/
def onPasv (ctx : Context) (c : Client) : Step := do
  let c ← reapWorker c
  if ← isInProgress then return (c, busy)
  else
    let c ← stopWorker c
    match ← openListener ctx with
    | .ok address =>
      note (.passiveBound c.address address)
      let c ← startWorker c (.passive address.port (Endpoint.owner c.address)) .passive
      return (c, .success Reply.enteringPassive (announcement address))
    | .error e =>
      note (.passiveFailed c.address e)
      return (c, .close e.code "Cannot enter passive mode, closing control connection.")

def onAbor (c : Client) : Step := do
  if ← isInProgress then
    let c ← stopWorker c
    note (.aborted c.address)
    return (c, .success Reply.transferComplete "Transfer aborted.")
  else return (c, .success Reply.noTransfer "No transfer in progress.")

def onQuit (c : Client) : Step := do
  let c ← stopWorker c
  return (c, .close Reply.goodbye "Goodbye.")

end FtpServer.Session
