import FtpServer.Log.Filter
import FtpServer.Settings.Sources
import FtpServer.Tree.Root

/-!
# How a server starts

Settings are loaded, the server root is prepared and the address is bound, in this order; the
first failure ends the program.  Every step is reported.
-/

namespace FtpServer

structure Server where
  settings : Settings
  /-- The path without links to the server root. -/
  root : String
  /-- Where it listens. -/
  address : String
  deriving DecidableEq, Repr

namespace Launch

inductive Request
  /-- Makes the server root; the answer is the path without links to it. -/
  | prepareRoot (path : String)
  /-- Opens a listener; the answer says where it is. -/
  | bind (host : String) (port : UInt16)
  | note (n : Notice)
  deriving DecidableEq, Repr

def Request.Answer : Request → Type
  | prepareRoot _ | bind _ _ => Except OsError String
  | note _ => Unit

end Launch

abbrev Launch := Program Launch.Request.Answer

namespace Launch

def partMain : String := "rax_ftpd"
def partErrors : String := "rax_ftpd::error::handlers"
def partServer : String := "rax_ftpd::server::core"

def prepareRoot (path : String) : Launch (Except OsError String) := .ask (.prepareRoot path) .done

def bind (host : String) (port : UInt16) : Launch (Except OsError String) :=
  .ask (.bind host port) .done

def note (part : String) (r : Record) : Launch Unit := .ask (.note ⟨part, r⟩) .done

def bindServer (settings : Settings) : Launch (Except ServerError Server) := do
  match settings.check with
  | .error fault => return .error (.settings fault.message)
  | .ok () =>
    match ← prepareRoot settings.serverRoot with
    | .error cause => return .error (.serverRoot settings.serverRoot cause)
    | .ok root =>
      note partServer (.rootDirectory root)
      match ← bind settings.bindAddress settings.controlPort with
      | .error cause => return .error (.bind settings.controlSocket cause)
      | .ok address =>
        note partServer (.bound settings.controlSocket)
        return .ok ⟨settings, root, address⟩

def giveUp (e : ServerError) : Launch (Except ServerError Server) := do
  note partErrors (.fatal e)
  return .error e

def start (around : Settings.Surroundings) : Launch (Except ServerError Server) := do
  note partMain .launching
  match Settings.load around with
  | .error fault => giveUp (.settings fault.message)
  | .ok settings =>
    match ← bindServer settings with
    | .error e => giveUp e
    | .ok server =>
      note partServer (.starting server.address)
      return .ok server

/-- A file tree on which a start makes its root, and what was reported, the first notice first. -/
structure Ground where
  tree : Tree
  notices : List Notice

/-- Answers from a file tree; `listen` opens the listener. -/
def answer (listen : String → UInt16 → Except OsError String) :
    (q : Request) → Ground → q.Answer × Ground
  | .prepareRoot path, g =>
    let (root, tree) := g.tree.prepareRoot path
    (root, { g with tree })
  | .bind host port, g => (listen host port, g)
  | .note n, g => ((), { g with notices := g.notices ++ [n] })

/-- The filter that the environment asks for, and the lines that warn of what is passed over. -/
def filter (around : Settings.Surroundings) : Log.Filter × List String :=
  let (filter, faults) := Log.Filter.read ((around.environment.lookup "RUST_LOG").getD "info")
  (filter, Log.Filter.warnings faults)

end Launch

end FtpServer
