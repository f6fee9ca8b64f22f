import FtpServer.Session.Serve
import FtpServer.Transfer.Worker

/-!
# A session among its surroundings

The host, the transfer slot, the workers and the control connection of one session.  `perform?`
answers a request of the session, unless it has to wait; `moveWorker?` lets one worker advance.
`Step` is any single step of the session or of a worker: its runs are all the ways in which they
can interleave.
-/

namespace FtpServer

open Text

inductive Lister
  /-- Lists the host's directories. -/
  | directories
  | fixed (listing : Bytes)
  | failing (cause : OsError)
  deriving DecidableEq, Repr

structure Scene where
  shared : Shared
  /-- Every worker that was started; a worker's number is its place. -/
  workers : List Worker
  /-- The worker that the session holds. -/
  held : Option Nat
  /-- The first record first. -/
  log : List Record
  authenticator : String → String → Bool
  lister : Lister
  /-- How the host writes the dates of a listing, and the sizes that it gives directories. -/
  dateStyle : DateStyle
  directorySizes : Key → Nat
  /-- Why no listener can be opened, if none can. -/
  listenFault : Option OsError
  nextPort : UInt16
  bufferSize : Nat
  timeoutMs : Nat

namespace Scene

def start (tree : Tree) (settings : Settings) : Scene where
  shared := ⟨.fresh, .fresh, tree, 0⟩
  workers := []
  held := none
  log := []
  authenticator := Account.Credentials.accept settings.users
  lister := .directories
  dateStyle := .utc
  directorySizes _ := 4096
  listenFault := none
  nextPort := 49152
  bufferSize := settings.bufferSize.toNat
  timeoutMs := settings.connectionTimeoutMs

def withShared (s : Scene) (shared : Shared) : Scene := { s with shared := shared }

def withSlot (s : Scene) (slot : Slot Source Sink) : Scene :=
  s.withShared { s.shared with slot := slot }

def withControl (s : Scene) (control : Control) : Scene :=
  s.withShared { s.shared with control := control }

def hasEnded (s : Scene) (number : Nat) : Bool :=
  match s.workers[number]? with
  | some w => w.hasEnded
  | none => true

def list (s : Scene) (p : Place) : Except OsError Bytes :=
  match s.lister with
  | .directories => s.shared.tree.list s.dateStyle s.directorySizes p
  | .fixed listing => .ok listing
  | .failing cause => .error cause

def performFile (s : Scene) (call : FileCall) : call.Answer × Scene :=
  let result := s.shared.tree.perform s.list call
  (result.1, s.withShared { s.shared with tree := result.2 })

/-- The answer to a request and what the request changes; nothing while it has to wait. -/
def perform? (s : Scene) : (q : Request) → Option (q.Answer × Scene)
  | .file call => some (s.performFile call)
  | .authenticate name password => some (s.authenticator name password, s)
  | .pause ms => some ((), s.withShared { s.shared with clock := s.shared.clock + ms })
  | .note record => some ((), { s with log := s.log ++ [record] })
  | .listen _ => some (match s.listenFault with
    | some cause => (.error cause, s)
    | none => (.ok s.nextPort, { s with nextPort := s.nextPort + 1 }))
  | .holdsWorker => some (s.held.isSome, s)
  | .letGoWorker => some (s.held, { s with held := none })
  | .joinWorker number => if s.hasEnded number then some ((), s) else none
  | .startWorker endpoint =>
    let number := s.workers.length
    let w := Worker.start number endpoint s.bufferSize s.timeoutMs
    some ((), { s with workers := s.workers ++ [w], held := some number })
  | .isInProgress => some (s.shared.slot.inProgress, s)
  | .isArmed => some (s.shared.slot.armed, s)
  | .install transfer => some ((), s.withSlot (s.shared.slot.install transfer))
  | .cancel => some ((), s.withSlot s.shared.slot.cancel)
  | .finish => some ((), s.withSlot s.shared.slot.finish)
  | .rearm => some ((), s.withSlot s.shared.slot.rearm)
  | .totals => some (s.shared.slot.totals, s)
  | .lockControl => (s.shared.control.lock .session).map fun control => ((), s.withControl control)
  | .writeReply reply =>
    let result := s.shared.control.write .session reply
    some (result.1, s.withControl result.2)
  | .shutControl => some ((), s.withControl s.shared.control.shut)
  | .unlockControl => some ((), s.withControl s.shared.control.unlock)

def moveWorker? (s : Scene) (number : Nat) (m : Worker.Move) : Option Scene :=
  match s.workers[number]? with
  | some w =>
    (w.move? m s.shared).map fun (w, shared) =>
      { s with workers := s.workers.set number w, shared := shared }
  | none => none

/-- One step of the session, of a worker, or of time. -/
inductive Step {α : Type} : Dialogue α × Scene → Dialogue α × Scene → Prop
  | session {q : Request} {next : q.Answer → Dialogue α} {s s' : Scene} {r : q.Answer}
      (h : s.perform? q = some (r, s')) : Step (.ask q next, s) (next r, s')
  | worker {p : Dialogue α} {s s' : Scene} (number : Nat) (m : Worker.Move)
      (h : s.moveWorker? number m = some s') : Step (p, s) (p, s')
  | time {p : Dialogue α} {s : Scene} (ms : Nat) :
      Step (p, s) (p, s.withShared { s.shared with clock := s.shared.clock + ms })

inductive Steps {α : Type} : Dialogue α × Scene → Dialogue α × Scene → Prop
  | refl (c : Dialogue α × Scene) : Steps c c
  | tail {a b c : Dialogue α × Scene} : Steps a b → Step b c → Steps a c

/-- Who is at the other end of the data connection of an endpoint. -/
abbrev Peers := Endpoint → Worker.Peer

def streamLoad (tree : Tree) : Stream Source Sink → Nat
  | .source (.bytes rest) => rest.length
  | .source (.file content _) => (tree.content content).size
  | _ => 0

def load (s : Scene) (peers : Peers) (w : Worker) : Nat :=
  let tree := s.shared.tree
  match w.phase with
  | .waiting _ | .connecting _ _ _ =>
    let stream := match w.phase, s.shared.slot.handle with
      | .connecting _ stream _, _ => streamLoad tree stream
      | _, some ⟨_, some stream⟩ => streamLoad tree stream
      | _, _ => 0
    match peers w.endpoint with
    | .present _ incoming => stream + incoming.length
    | _ => stream
  | .checking job | .reading job | .closing job | .recording job =>
    streamLoad tree job.stream + job.incoming.length
  | .writing job _ left => streamLoad tree job.stream + job.incoming.length + left.length
  | _ => 0

def fuel (s : Scene) (peers : Peers) (w : Worker) : Nat := 32 + 4 * s.load peers w

def settleWorker (peers : Peers) (s : Scene) (number : Nat) : Scene :=
  match s.workers[number]? with
  | some w =>
    let (w, shared) := w.settle (peers w.endpoint) (s.fuel peers w) s.shared
    { s with workers := s.workers.set number w, shared := shared }
  | none => s

/-- Every worker has moved as far as it can by itself. -/
def settle (peers : Peers) (s : Scene) : Scene :=
  (List.range s.workers.length).foldl (settleWorker peers) s

/-- A run in which workers move only when the session waits for them; nothing if it waits in
vain. -/
def run? {α : Type} (peers : Peers) : Dialogue α → Scene → Option (α × Scene)
  | .done a, s => some (a, s)
  | .ask q next, s =>
    match s.perform? q with
    | some (r, s) => run? peers (next r) s
    | none =>
      match (s.settle peers).perform? q with
      | some (r, s) => run? peers (next r) s
      | none => none

/-- The next moment at which a worker gives up on its data connection. -/
def nextDeadline (s : Scene) : Option Nat :=
  (s.workers.filterMap fun w =>
    match w.phase with
    | .connecting _ _ deadline => some deadline
    | _ => none).min?

def passTo (s : Scene) (moment : Nat) : Scene :=
  s.withShared { s.shared with clock := max s.shared.clock moment }

/-- Time passes until the reply with a number is out, or up to `moment` if it does not come. -/
def awaitReplyFrom (peers : Peers) (number moment : Nat) : Nat → Scene → Option Reply × Scene
  | 0, s => (none, s)
  | fuel + 1, s =>
    match s.shared.control.sent[number]? with
    | some (_, reply) => (some reply, s)
    | none =>
      match s.nextDeadline.filter (· ≤ moment) with
      | some deadline => awaitReplyFrom peers number moment fuel ((s.passTo deadline).settle peers)
      | none => (none, s.passTo moment)

/-- Each deadline that passes ends one worker at least. -/
def awaitReply (peers : Peers) (number moment : Nat) (s : Scene) : Option Reply × Scene :=
  s.awaitReplyFrom peers number moment (s.workers.length + 2)

end Scene

end FtpServer
