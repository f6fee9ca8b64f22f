import FtpServer.Command
import FtpServer.Line
import FtpServer.Session.Handle

/-!
# A session from its greeting to its end

The lines of the control connection are answered one after the other, each by one reply, save for
transfer commands that are ignored.  A transfer begins only when its reply is out.
-/

namespace FtpServer.Session

open Dialogue

inductive Onward
  | goOn
  | stop
  deriving DecidableEq, Repr

/-- A reply that ends the session if it cannot be sent. -/
def sendOrStop (reply : Reply) : Dialogue Onward := do
  match ← send reply with
  | .ok () => return .goOn
  | .error _ => return .stop

def tooLong : Reply := ⟨Reply.syntaxError, "Command line too long."⟩

def unrecognized (e : CommandError) : Reply := ⟨e.code, "Syntax error, command unrecognized."⟩

/-- Sends the reply of a command; no reply is no failure. -/
def sendOutcome (c : Client) (o : Outcome) : Dialogue Onward := do
  match o.reply with
  | none => return .goOn
  | some reply =>
    match ← send reply with
    | .ok () => return .goOn
    | .error cause =>
      note (.replyFailed c.address cause)
      return .stop

/-- Tells the log how a command went, and whether the session goes on. -/
def conclude (c : Client) (command : Command) : Status → Dialogue Onward
  | .success => return .goOn
  | .failure reason => do
    note (.commandFailed c.address command reason)
    return .goOn
  | .close => do
    note (.closing c.address)
    return .stop

/-- A command, from its reply to the beginning of its transfer. -/
def onCommand (ctx : Context) (c : Client) (command : Command) : Dialogue (Client × Onward) := do
  note (.executed c.address command)
  let (c, o) ← handle ctx c command
  match ← sendOutcome c o with
  | .stop => return (c, .stop)
  | .goOn =>
    match o.transfer with
    | some transfer => install transfer
    | none => pure ()
    return (c, ← conclude c command o.status)

def onIncoming (ctx : Context) (c : Client) : Line.Incoming → Dialogue (Client × Onward)
  | .endOfStream => do
    note (.closedByClient c.address)
    return (c, .stop)
  | .tooLong kept => do
    note (.oversized c.address kept)
    return (c, ← sendOrStop tooLong)
  | .line text =>
    match Command.parse text with
    | .ok command => onCommand ctx c command
    | .error e => do
      note (.unparseable c.address e)
      return (c, ← sendOrStop (unrecognized e))

def close (c : Client) : Dialogue Client := do
  let c ← stopWorker c
  note (.closed c (← totals))
  lockControl
  shutControl
  unlockControl
  note (.disconnected c.address)
  return c

def answer (ctx : Context) (c : Client) : List Line.Incoming → Dialogue Client
  | [] => return c
  | line :: rest => do
    let (c, onward) ← onIncoming ctx c line
    match onward with
    | .goOn => answer ctx c rest
    | .stop => return c

/-- A whole session; without its greeting it does not begin. -/
def serve (ctx : Context) (address : Socket) (lines : List Line.Incoming) : Dialogue Unit := do
  match ← send ⟨Reply.ready, ctx.settings.greeting⟩ with
  | .error _ => return
  | .ok () =>
    let c ← answer ctx (.connect address) lines
    let _ ← close c

end FtpServer.Session
