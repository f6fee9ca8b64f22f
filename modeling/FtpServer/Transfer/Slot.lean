import FtpServer.Text.Lossy

/-!
# The transfer slot

What a session and its worker share: the transfer in progress, whether a worker serves the slot,
whether it was told to stop, and the totals of the session.  `S` is what the bytes of a transfer
come from and `K` what they go to.

A waiter sleeps until a wake-up that came after its last look.  Installing a transfer and
cancelling wake; the other operations do not.
-/

namespace FtpServer

inductive Direction
  | sendFile
  | receiveFile
  | sendListing
  deriving DecidableEq, Repr

inductive Stream (S K : Type)
  | source (s : S)
  | sink (k : K)
  deriving DecidableEq, Repr

/-- A transfer; the stream is gone once a worker has taken it. -/
structure Handle (S K : Type) where
  direction : Direction
  stream : Option (Stream S K)
  deriving DecidableEq, Repr

/-- What a session has moved in complete transfers. -/
structure Totals where
  files : UInt64
  bytes : UInt64
  deriving DecidableEq, Repr

structure Slot (S K : Type) where
  handle : Option (Handle S K)
  cancelled : Bool
  /-- A worker serves the slot. -/
  armed : Bool
  totals : Totals
  /-- Wake-ups so far. -/
  wakes : Nat
  deriving DecidableEq, Repr

namespace Slot

variable {S K : Type}

def fresh : Slot S K := ⟨none, false, false, ⟨0, 0⟩, 0⟩

def inProgress (s : Slot S K) : Bool := s.handle.isSome

def install (s : Slot S K) (h : Handle S K) : Slot S K :=
  { s with handle := some h, wakes := s.wakes + 1 }

def cancel (s : Slot S K) : Slot S K := { s with cancelled := true, wakes := s.wakes + 1 }

def rearm (s : Slot S K) : Slot S K :=
  { s with cancelled := false, handle := none, armed := true }

def finish (s : Slot S K) : Slot S K := { s with handle := none, armed := false }

/-- One more complete transfer; the totals are 64 bits wide. -/
def record (s : Slot S K) (bytes : UInt64) : Slot S K :=
  { s with totals := ⟨s.totals.files + 1, s.totals.bytes + bytes⟩ }

/-- What a look at the slot gives a worker that waits for a transfer. -/
inductive Look (S K : Type)
  | pending
  | cancelled
  | ready (direction : Direction) (stream : Stream S K)
  deriving DecidableEq, Repr

/-- Takes the stream of the transfer; the transfer itself stays in progress. -/
def take (s : Slot S K) : Look S K × Slot S K :=
  if s.cancelled then (.cancelled, s)
  else
    match s.handle with
    | some ⟨direction, some stream⟩ =>
      (.ready direction stream, { s with handle := some ⟨direction, none⟩ })
    | _ => (.pending, s)

@[simp] theorem handle_install (s : Slot S K) (h : Handle S K) :
    (s.install h).handle = some h := rfl

@[simp] theorem cancelled_install (s : Slot S K) (h : Handle S K) :
    (s.install h).cancelled = s.cancelled := rfl

@[simp] theorem armed_install (s : Slot S K) (h : Handle S K) :
    (s.install h).armed = s.armed := rfl

@[simp] theorem handle_cancel (s : Slot S K) : s.cancel.handle = s.handle := rfl

@[simp] theorem cancelled_cancel (s : Slot S K) : s.cancel.cancelled = true := rfl

@[simp] theorem armed_cancel (s : Slot S K) : s.cancel.armed = s.armed := rfl

@[simp] theorem handle_rearm (s : Slot S K) : s.rearm.handle = none := rfl

@[simp] theorem cancelled_rearm (s : Slot S K) : s.rearm.cancelled = false := rfl

@[simp] theorem armed_rearm (s : Slot S K) : s.rearm.armed = true := rfl

@[simp] theorem handle_finish (s : Slot S K) : s.finish.handle = none := rfl

@[simp] theorem cancelled_finish (s : Slot S K) : s.finish.cancelled = s.cancelled := rfl

@[simp] theorem armed_finish (s : Slot S K) : s.finish.armed = false := rfl

@[simp] theorem handle_record (s : Slot S K) (n : UInt64) : (s.record n).handle = s.handle := rfl

@[simp] theorem cancelled_record (s : Slot S K) (n : UInt64) :
    (s.record n).cancelled = s.cancelled := rfl

@[simp] theorem armed_record (s : Slot S K) (n : UInt64) : (s.record n).armed = s.armed := rfl

theorem inProgress_take (s : Slot S K) : s.take.2.inProgress = s.inProgress := by
  unfold take
  split
  · rfl
  · split <;> simp_all [inProgress]

inductive Wait
  | transfer
  | cancellation
  deriving DecidableEq, Repr

/-- A waiter, with the wake-ups there had been at its last look; none before the first. -/
structure Waiter where
  waitsFor : Wait
  seen : Option Nat
  deriving DecidableEq, Repr

namespace Waiter

def start (w : Wait) : Waiter := ⟨w, none⟩

/-- A wake-up came since the last look, or there was no look yet. -/
def awake (w : Waiter) (s : Slot S K) : Bool := w.seen ≠ some s.wakes

/-- The waiter looks at the slot if it is awake.  A waiter for cancellation reports just that. -/
def poll (w : Waiter) (s : Slot S K) : Look S K × Waiter × Slot S K :=
  if w.awake s then
    match w.waitsFor with
    | .transfer => (s.take.1, { w with seen := some s.wakes }, s.take.2)
    | .cancellation =>
      (if s.cancelled then .cancelled else .pending, { w with seen := some s.wakes }, s)
  else (.pending, w, s)

end Waiter

end Slot

end FtpServer
