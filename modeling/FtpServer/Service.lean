import FtpServer.Launch
import FtpServer.Network
import FtpServer.Scene

/-!
# Sessions on the network

A session in progress: its scene, its control connection, and what its workers hold of the host.
The session and its workers run side by side.  Each step of theirs is a step of the scene; what the
host and the peers bring about is found out before the step that tells of it.
-/

namespace FtpServer

open Text Network

structure Service where
  scene : IO.Ref Scene
  control : Link
  /-- Passive listeners by port. -/
  listeners : IO.Ref (List (UInt16 × Listener))
  /-- Files that are open to be written, by the number of their content. -/
  files : IO.Ref (List (Nat × IO.FS.Handle))
  report : Record → IO Unit

namespace Service

/-- How long a party that waits sleeps before it looks again, in milliseconds. -/
def nap : UInt32 := 1

def change {α : Type} (v : Service) (f : Scene → α × Scene) : IO α := do
  let now ← IO.monoMsNow
  v.scene.modifyGet fun s => f (s.passTo now)

def present (v : Service) : IO Scene := v.change fun s => (s, s)

/-- The answer that the scene gives to a request, once it need not wait. -/
partial def ask (v : Service) (q : Request) : IO q.Answer := do
  let r? ← v.change fun s =>
    match s.perform? q with
    | some (r, s) => (some r, s)
    | none => (none, s)
  match r? with
  | some r => return r
  | none =>
    IO.sleep nap
    v.ask q

/-- A file to be written, with a content of its own in the scene. -/
def keep (v : Service) (file : IO.FS.Handle) : IO Sink := do
  let number ← v.change fun s =>
    let tree := s.shared.tree
    (tree.contents.length,
      s.withShared { s.shared with
        tree := { tree with contents := tree.contents ++ [Content.empty] } })
  v.files.modify fun files => (number, file) :: files
  return .file number 0

def openListener (v : Service) (ip : Ipv4) : IO UInt16 := do
  let listener ← listen (.v4 ip) 0
  let port := (ofHost (← listener.getSockName)).port
  v.listeners.modify fun listeners => (port, listener) :: listeners
  return port

/-- Sends a reply to the client; a client that cannot be reached is gone. -/
def sendReply (v : Service) (r : Reply) : IO Unit := do
  match ← Host.attempt (v.control.send r.frame.toUTF8).block with
  | .ok () => pure ()
  | .error _ => v.change fun s => ((), s.withControl s.shared.control.dropPeer)

/-- Tries until something comes of it, the transfer is cancelled or the moment is over. -/
partial def await {α : Type} (v : Service) (moment : Option Nat) (attempt : IO (Option α)) :
    IO (Option α) := do
  match ← attempt with
  | some a => return some a
  | none =>
    let s ← v.present
    if s.shared.slot.cancelled || moment.any (· ≤ s.shared.clock) then return none
    IO.sleep nap
    v.await moment attempt

def result? {α : Type} (task : Std.Async.AsyncTask α) : IO (Option (Except OsError α)) := do
  if ← IO.hasFinished task then return some (← Host.attempt (IO.ofExcept (← IO.wait task)))
  else return none

abbrev Data := Option Link

/-- The connection that an endpoint makes before `moment`, and who is at its other end. -/
def makeLink (v : Service) (endpoint : Endpoint) (moment : Nat) : IO (Option (Link × Socket)) := do
  let made? ← match endpoint with
    | .passive port _ => do
      match (← v.listeners.get).lookup port with
      | none => throw (.userError "no listener")
      | some listener =>
        v.listeners.modify fun listeners => listeners.filter fun l => l.1 ≠ port
        v.await (some moment) listener.tryAccept
    | .active address => do
      let link ← Std.Async.TCP.Socket.Client.mk
      let task ← (link.connect (hostAddress (.v4 address.ip) address.port)).toIO
      v.await (some moment) do
        if ← IO.hasFinished task then
          IO.ofExcept (← IO.wait task)
          return some link
        else return none
  match made? with
  | some link => return some (link, ofHost (← link.getPeerName))
  | none => return none

/-- The connection of an endpoint, with the move that tells of it. -/
def connect (v : Service) (endpoint : Endpoint) (moment : Nat) : IO (Worker.Move × Data) := do
  match ← Host.attempt (v.makeLink endpoint moment) with
  | .ok (some (link, peer)) => return (.connect peer [], some link)
  | .ok none => return (if (← v.present).shared.slot.cancelled then .cancel else .timeOut, none)
  | .error cause => return (.connectFails cause, none)

/-- More bytes from the peer than a job knew of. -/
def hear (bytes : Bytes) (w : Worker) : Worker :=
  match w.phase with
  | .reading job => w.enter (.reading { job with incoming := job.incoming ++ bytes })
  | _ => w

/-- Waits for bytes from the peer; no move is needed where some came. -/
def receive (v : Service) (w : Worker) (link : Link) : IO (Option Worker.Move) := do
  let task ← (link.recv? (UInt64.ofNat w.bufferSize)).toIO
  match ← v.await none (result? task) with
  | none => return some .cancel
  | some (.error cause) => return some (.readFails cause)
  | some (.ok none) => return some (.read 0)
  | some (.ok (some bytes)) =>
    v.change fun s => ((), { s with workers := s.workers.modify w.number (hear bytes.toList) })
    return none

/-- Sends a block to the peer or writes it to the file. -/
def deliver (v : Service) (job : Job) (block : Bytes) (data : Data) : IO Worker.Move := do
  let bytes : ByteArray := ⟨block.toArray⟩
  let written ← match job.stream, data with
    | .source _, some link => do v.await none (result? (← (link.send bytes).toIO))
    | .source _, none => pure (some (.error .brokenPipe))
    | .sink (.unwritable cause), _ => pure (some (.error cause))
    | .sink (.file number _), _ => do
      match (← v.files.get).lookup number with
      | some file => pure (some (← Host.attempt do
        file.write bytes
        file.flush))
      | none => pure (some (.error .badDescriptor))
  match written with
  | some (.ok ()) => return .write block.length
  | some (.error cause) => return .writeFails cause
  | none => return .cancel

def finish (v : Service) (job : Job) (data : Data) : IO Worker.Move := do
  let closed ← match job.stream, data with
    | .source _, some link => Host.attempt link.shutdown.block
    | .sink (.file number _), _ => do
      match (← v.files.get).lookup number with
      | some file =>
        v.files.modify fun files => files.filter fun f => f.1 ≠ number
        Host.attempt file.flush
      | none => pure (.ok ())
    | _, _ => pure (.ok ())
  match closed with
  | .ok () => return .close
  | .error cause => return .closeFails cause

/-- The next move of a worker, if it is ready for one. -/
def next (v : Service) (w : Worker) (s : Scene) (data : Data) :
    IO (Option Worker.Move × Data) := do
  match w.phase, data with
  | .connecting _ _ moment, _ =>
    let (m, data) ← v.connect w.endpoint moment
    return (some m, data)
  | .reading job, some link =>
    match job.stream, job.incoming with
    | .sink _, [] => return (← v.receive w link, data)
    | _, _ => return (w.choose .absent s.shared, data)
  | .writing job _ left, _ => return (some (← v.deliver job left data), data)
  | .closing job, _ => return (some (← v.finish job data), data)
  | .reporting reply, _ =>
    v.sendReply reply
    return (some .report, data)
  | _, _ => return (w.choose .absent s.shared, data)

/-- A worker up to its end. -/
partial def work (v : Service) (number : Nat) (data : Data) : IO Unit := do
  let s ← v.present
  match s.workers[number]? with
  | none => return
  | some w =>
    if w.hasEnded then return
    let (m?, data) ← v.next w s data
    match m? with
    | some m => v.change fun s => ((), (s.moveWorker? number m).getD s)
    | none => IO.sleep nap
    v.work number data

def answer (v : Service) : (q : Request) → IO q.Answer
  | .file call => Host.perform v.keep call
  | .pause ms => IO.sleep (UInt32.ofNat (min ms UInt32.size.pred))
  | .note record => v.report record
  | .listen ip => Host.attempt (v.openListener ip)
  | .startWorker endpoint => do
    v.ask (.startWorker endpoint)
    match (← v.present).held with
    | some number =>
      let _ ← IO.asTask (v.work number none) .dedicated
    | none => pure ()
  | .writeReply reply => do
    v.sendReply reply
    v.ask (.writeReply reply)
  | .shutControl => do
    v.ask .shutControl
    let _ ← Host.attempt v.control.shutdown.block
  | q => v.ask q

/-- The next line of the client, and the bytes that came behind it. -/
partial def nextLine (v : Service) (limit : Line.Limit) (p : Line.Partial) (came : Bytes) :
    IO (Line.Incoming × Bytes) := do
  match p.feed limit came with
  | .ended line after => return (line, after)
  | .more p =>
    match ← Host.attempt (v.control.recv? 4096).block with
    | .ok (some bytes) => v.nextLine limit p bytes.toList
    | .ok none => return (p.close limit, [])
    | .error _ => return (.endOfStream, [])

/-- Answers lines until the session ends. -/
partial def converse (v : Service) (ctx : Session.Context) (limit : Line.Limit) (c : Client)
    (came : Bytes) : IO Client := do
  let (line, came) ← v.nextLine limit .fresh came
  match ← (Session.onIncoming ctx c line).interpret v.answer with
  | (c, .goOn) => v.converse ctx limit c came
  | (c, .stop) => return c

/-- A whole session on a control connection; without room for a line it breaks off. -/
def serve (server : Server) (control : Link) (report : Record → IO Unit) : IO Unit := do
  let address := ofHost (← control.getPeerName)
  report (.connected address)
  let ctx : Session.Context := ⟨server.settings, server.root, ofHost (← control.getSockName)⟩
  let v : Service := {
    scene := ← IO.mkRef (Scene.start Tree.bare server.settings)
    control
    listeners := ← IO.mkRef []
    files := ← IO.mkRef []
    report }
  match ← (Dialogue.send ⟨Reply.ready, server.settings.greeting⟩).interpret v.answer with
  | .error cause => report (.sessionFailed address cause)
  | .ok () =>
    match Line.Limit.of? server.settings.maxCommandLength with
    | none => v.control.shutdown.block
    | some limit =>
      let c ← v.converse ctx limit (.connect address) []
      let _ ← (Session.close c).interpret v.answer

end Service

end FtpServer
