import FtpServer.Os
import FtpServer.Reply

/-!
# The control connection

Replies are sent whole and one after the other: whoever sends one holds the connection meanwhile,
and the others wait.
-/

namespace FtpServer

inductive Party
  | session
  | worker (number : Nat)
  deriving DecidableEq, Repr

structure Control where
  holder : Option Party
  /-- The replies that went out, the first one first. -/
  sent : List (Party × Reply)
  /-- Our side still writes. -/
  isOpen : Bool
  /-- The other side still reads. -/
  hasPeer : Bool
  deriving DecidableEq, Repr

namespace Control

def fresh : Control := ⟨none, [], true, true⟩

/-- Takes the connection, unless somebody has it. -/
def lock (c : Control) (p : Party) : Option Control :=
  match c.holder with
  | none => some { c with holder := some p }
  | some _ => none

def unlock (c : Control) : Control := { c with holder := none }

def write (c : Control) (p : Party) (r : Reply) : Except OsError Unit × Control :=
  if c.isOpen && c.hasPeer then (.ok (), { c with sent := c.sent ++ [(p, r)] })
  else (.error .brokenPipe, c)

def shut (c : Control) : Control := { c with isOpen := false }

def dropPeer (c : Control) : Control := { c with hasPeer := false }

def output (c : Control) : String := String.join (c.sent.map fun (_, r) => r.frame)

@[simp] theorem sent_lock {c d : Control} {p : Party} (h : c.lock p = some d) :
    d.sent = c.sent := by
  unfold lock at h
  split at h <;> simp_all
  rw [← h]

@[simp] theorem sent_unlock (c : Control) : c.unlock.sent = c.sent := rfl

@[simp] theorem sent_shut (c : Control) : c.shut.sent = c.sent := rfl

theorem sent_write (c : Control) (p : Party) (r : Reply) :
    (c.write p r).2.sent = c.sent ∨ (c.write p r).2.sent = c.sent ++ [(p, r)] := by
  unfold write
  split <;> simp

end Control

end FtpServer
