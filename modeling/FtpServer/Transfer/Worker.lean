import FtpServer.Control
import FtpServer.Files
import FtpServer.Transfer.Endpoint
import FtpServer.Transfer.Slot

/-!
# Transfer workers

A worker serves the slot for one transfer.  It waits for the transfer, makes the data connection,
moves blocks until the source ends, reports the outcome and leaves.  Wherever it waits for bytes
or for the connection it also notices that the transfer was cancelled.

The worker advances by the moves below, each of them atomic.  What the host, the peer and time
contribute is part of the move.
-/

namespace FtpServer

open Text

/-- The state that a session and its workers share. -/
structure Shared where
  slot : Slot Source Sink
  control : Control
  tree : Tree
  /-- Milliseconds. -/
  clock : Nat

structure Job where
  direction : Direction
  stream : Stream Source Sink
  /-- What the peer has sent or is going to send, less what has been read. -/
  incoming : Bytes
  /-- What has reached the peer. -/
  delivered : Bytes
  /-- Bytes of the blocks that were moved. -/
  total : Nat
  deriving Repr

inductive Phase
  | waiting (waiter : Slot.Waiter)
  /-- Until `deadline`. -/
  | connecting (direction : Direction) (stream : Stream Source Sink) (deadline : Nat)
  | checking (job : Job)
  | reading (job : Job)
  /-- `left` is what still has to go out of a block of `size` bytes. -/
  | writing (job : Job) (size : Nat) (left : Bytes)
  | closing (job : Job)
  | recording (job : Job)
  /-- Wants the control connection, to leave the slot and send the reply. -/
  | retiring (reply : Option Reply)
  | releasing (reply : Option Reply)
  | reporting (reply : Reply)
  | unlocking
  /-- Leaves the slot without a word. -/
  | leaving
  | ended
  deriving Repr

structure Worker where
  number : Nat
  endpoint : Endpoint
  bufferSize : Nat
  timeoutMs : Nat
  phase : Phase
  deriving Repr

namespace Worker

def cannotConnect : Reply := ⟨Reply.cannotOpenData, "Cannot establish data connection."⟩
def complete : Reply := ⟨Reply.transferComplete, "Transfer complete."⟩
def failed : Reply := ⟨Reply.localError, "Transfer aborted by internal I/O error."⟩

def start (number : Nat) (endpoint : Endpoint) (bufferSize timeoutMs : Nat) : Worker :=
  ⟨number, endpoint, bufferSize, timeoutMs, .waiting (.start .transfer)⟩

inductive Move
  /-- Looks at the slot for a transfer. -/
  | look
  /-- A peer connects; `incoming` is everything it will ever send. -/
  | connect (peer : Socket) (incoming : Bytes)
  | connectFails (cause : OsError)
  | timeOut
  /-- Notices that the transfer was cancelled. -/
  | cancel
  /-- Finds before a block that the transfer was not cancelled. -/
  | check
  /-- The source hands out `count` bytes; none at its end. -/
  | read (count : Nat)
  | readFails (cause : OsError)
  /-- `count` bytes of the block go out. -/
  | write (count : Nat)
  | writeFails (cause : OsError)
  | close
  | closeFails (cause : OsError)
  | record
  | lock
  | release
  | report
  | unlock
  | leave
  deriving DecidableEq, Repr

/-- Whether the peer that connected may have the data connection. -/
def admits : Endpoint → Socket → Bool
  | .passive _ owner, peer => Endpoint.sameHost peer.ip owner
  | .active _, _ => true

/-- A block of `count` bytes from the job's source, if the source can hand out just that. -/
def takeBlock (t : Tree) (bufferSize count : Nat) (job : Job) : Option (Bytes × Job) :=
  if bufferSize < count then none
  else
    match job.stream with
    | .sink _ =>
      if count ≤ job.incoming.length ∧ (count = 0 → job.incoming = [] ∨ bufferSize = 0) then
        some (job.incoming.take count, { job with incoming := job.incoming.drop count })
      else none
    | .source source =>
      match t.readSource count source, t.readSource bufferSize source with
      | .ok (chunk, source'), .ok (most, _) =>
        if chunk.length = count ∧ (count = 0 → most = []) then
          some (chunk, { job with stream := .source source' })
        else none
      | _, _ => none

/-- Sends the first `count` bytes of a block on. -/
def putBytes (t : Tree) (chunk : Bytes) (job : Job) : Option (Job × Tree) :=
  match job.stream with
  | .source _ => some ({ job with delivered := job.delivered ++ chunk }, t)
  | .sink sink =>
    match t.writeSink chunk sink with
    | .ok (sink, t) => some ({ job with stream := .sink sink }, t)
    | .error _ => none

def enter (w : Worker) (phase : Phase) : Worker := { w with phase := phase }

/-- The worker after a move, if the move is possible. -/
def move? (w : Worker) (m : Move) (s : Shared) : Option (Worker × Shared) :=
  match w.phase, m with
  | .waiting waiter, .look =>
    if waiter.awake s.slot then
      match waiter.poll s.slot with
      | (.pending, waiter, slot) => some (w.enter (.waiting waiter), { s with slot := slot })
      | (.cancelled, _, slot) => some (w.enter .leaving, { s with slot := slot })
      | (.ready direction stream, _, slot) =>
        some (w.enter (.connecting direction stream (s.clock + w.timeoutMs)), { s with slot := slot })
    else none
  | .connecting direction stream _, .connect peer incoming =>
    if admits w.endpoint peer then
      some (w.enter (.checking ⟨direction, stream, incoming, [], 0⟩), s)
    else some (w.enter (.retiring (some cannotConnect)), s)
  | .connecting _ _ _, .connectFails _ => some (w.enter (.retiring (some cannotConnect)), s)
  | .connecting _ _ deadline, .timeOut =>
    if deadline ≤ s.clock then some (w.enter (.retiring (some cannotConnect)), s) else none
  | .connecting _ _ _, .cancel => if s.slot.cancelled then some (w.enter .leaving, s) else none
  | .checking job, .check => if s.slot.cancelled then none else some (w.enter (.reading job), s)
  | .checking _, .cancel => if s.slot.cancelled then some (w.enter (.retiring none), s) else none
  | .reading job, .read count =>
    match takeBlock s.tree w.bufferSize count job with
    | some ([], job) => some (w.enter (.closing job), s)
    | some (block, job) => some (w.enter (.writing job block.length block), s)
    | none => none
  | .reading _, .readFails _ => some (w.enter (.retiring (some failed)), s)
  | .reading _, .cancel => if s.slot.cancelled then some (w.enter (.retiring none), s) else none
  | .writing job size left, .write count =>
    if 0 < count ∧ count ≤ left.length then
      match putBytes s.tree (left.take count) job with
      | some (job, tree) =>
        let phase := if count = left.length then .checking { job with total := job.total + size }
          else .writing job size (left.drop count)
        some (w.enter phase, { s with tree := tree })
      | none => none
    else none
  | .writing _ _ _, .writeFails _ => some (w.enter (.retiring (some failed)), s)
  | .writing _ _ _, .cancel => if s.slot.cancelled then some (w.enter (.retiring none), s) else none
  | .closing job, .close => some (w.enter (.recording job), s)
  | .closing _, .closeFails _ => some (w.enter (.retiring (some failed)), s)
  | .recording job, .record =>
    some (w.enter (.retiring (some complete)),
      { s with slot := s.slot.record (UInt64.ofNat job.total) })
  | .retiring reply, .lock =>
    (s.control.lock (.worker w.number)).map fun control =>
      (w.enter (.releasing reply), { s with control := control })
  | .releasing reply, .release =>
    let next := match reply with
      | some reply => if s.slot.cancelled then .unlocking else .reporting reply
      | none => .unlocking
    some (w.enter next, { s with slot := s.slot.finish })
  | .reporting reply, .report =>
    some (w.enter .unlocking, { s with control := (s.control.write (.worker w.number) reply).2 })
  | .unlocking, .unlock => some (w.enter .ended, { s with control := s.control.unlock })
  | .leaving, .leave => some (w.enter .ended, { s with slot := s.slot.finish })
  | _, _ => none

def hasEnded (w : Worker) : Bool :=
  match w.phase with
  | .ended => true
  | _ => false

/-- Who is at the other end of a data connection. -/
inductive Peer
  | absent
  | refusing (cause : OsError)
  | present (address : Socket) (incoming : Bytes)
  deriving DecidableEq, Repr

/-- The next bytes a source has, at most a buffer full. -/
def nextCount (t : Tree) (bufferSize : Nat) (job : Job) : Except OsError Nat :=
  match job.stream with
  | .sink _ => .ok (min bufferSize job.incoming.length)
  | .source source => (t.readSource bufferSize source).map fun (chunk, _) => chunk.length

/-- What a worker does next if nothing keeps it from going on. -/
def choose (w : Worker) (peer : Peer) (s : Shared) : Option Move :=
  match w.phase with
  | .waiting waiter => if waiter.awake s.slot then some .look else none
  | .connecting _ _ deadline =>
    if s.slot.cancelled then some .cancel
    else
      match peer with
      | .present address incoming => some (.connect address incoming)
      | .refusing cause => some (.connectFails cause)
      | .absent => if deadline ≤ s.clock then some .timeOut else none
  | .checking _ => if s.slot.cancelled then some .cancel else some .check
  | .reading job =>
    match nextCount s.tree w.bufferSize job with
    | .ok count => some (.read count)
    | .error cause => some (.readFails cause)
  | .writing job _ left =>
    match job.stream with
    | .sink (.unwritable cause) => some (.writeFails cause)
    | _ => some (.write left.length)
  | .closing _ => some .close
  | .recording _ => some .record
  | .retiring _ => if s.control.holder.isNone then some .lock else none
  | .releasing _ => some .release
  | .reporting _ => some .report
  | .unlocking => some .unlock
  | .leaving => some .leave
  | .ended => none

/-- At most `fuel` moves, as many as the worker can make. -/
def settle (peer : Peer) : Nat → Worker → Shared → Worker × Shared
  | 0, w, s => (w, s)
  | fuel + 1, w, s =>
    match (w.choose peer s).bind fun m => w.move? m s with
    | some (w, s) => settle peer fuel w s
    | none => (w, s)

end Worker

end FtpServer
