import FtpServer.Proofs.Attendance
import FtpServer.Proofs.Copies
import FtpServer.Proofs.ExclusiveControl

/-!
# Runs of one worker

A run is what a worker does from its start on, while others change what it shares with them as they
like.  The book of a run counts what the worker did in all; what the state shows of each move stands
beside it.
-/

namespace FtpServer

open Text

namespace Worker

structure Step where
  worker : Worker
  before : Shared
  move : Move
  after : Shared

/-- The worker made these steps from its start.  What others do between them is left open, but for
one thing: while the worker serves the slot, nobody takes a cancel back. -/
inductive Runs (w₀ : Worker) (s₀ : Shared) : List Step → Worker → Shared → Prop
  | start : Runs w₀ s₀ [] w₀ s₀
  | move {l : List Step} {w w' : Worker} {m : Move} {s s' : Shared} (hrun : Runs w₀ s₀ l w s)
      (hmove : w.move? m s = some (w', s')) : Runs w₀ s₀ (l ++ [⟨w, s, m, s'⟩]) w' s'
  | other {l : List Step} {w : Worker} {s s' : Shared} (hrun : Runs w₀ s₀ l w s)
      (hcancelled : w.phase.stage = .serving → s.slot.cancelled = true →
        s'.slot.cancelled = true) : Runs w₀ s₀ l w s'

/-- What a worker did in all. -/
structure Book where
  /-- A peer came that may have the data connection. -/
  connected : Bool
  /-- What the bytes went to was closed. -/
  closed : Bool
  /-- Reading, writing or closing failed. -/
  broken : Bool
  /-- Bytes read. -/
  taken : Nat
  /-- Bytes written. -/
  put : Nat
  /-- The sizes of the transfers that were added to the totals. -/
  recorded : List Nat
  /-- Whether the transfer was cancelled, each time the worker left the slot. -/
  departures : List Bool
  replies : List Reply
  deriving DecidableEq, Repr

namespace Book

def blank : Book := ⟨false, false, false, 0, 0, [], [], []⟩

def add (b : Book) (w : Worker) (s : Shared) : Move → Book
  | .connect peer _ => { b with connected := b.connected || admits w.endpoint peer }
  | .read count => { b with taken := b.taken + count }
  | .write count => { b with put := b.put + (w.puts (.write count)).length }
  | .readFails _ | .writeFails _ | .closeFails _ => { b with broken := true }
  | .close => { b with closed := true }
  | .record => { b with recorded := b.recorded ++ (w.phase.job?.map Job.total).toList }
  | .release | .leave => { b with departures := b.departures ++ [s.slot.cancelled] }
  | .report => { b with replies := b.replies ++ w.phase.reply?.toList }
  | .look | .connectFails _ | .timeOut | .cancel | .check | .lock | .unlock => b

def verdict (b : Book) : Reply :=
  if b.connected then if b.closed then complete else failed else cannotConnect

end Book

def book (l : List Step) : Book := l.foldl (fun b x => b.add x.worker x.before x.move) .blank

theorem book_snoc (l : List Step) (x : Step) :
    book (l ++ [x]) = (book l).add x.worker x.before x.move := by
  simp [book]

/-- What the state shows of a move. -/
structure Step.Shows (x : Step) : Prop where
  /-- Who leaves the slot has finished with it. -/
  leaves : x.move.leavesSlot = true → x.after.slot = x.before.slot.finish
  /-- Nothing else ends the transfer or the service. -/
  stays : x.move.leavesSlot = false →
    x.after.slot.inProgress = x.before.slot.inProgress ∧ x.after.slot.armed = x.before.slot.armed
  records : x.move = .record → ∃ job, x.worker.phase.job? = some job ∧
    x.after.slot = x.before.slot.record (UInt64.ofNat job.total)
  keepsTotals : x.move ≠ .record → x.after.slot.totals = x.before.slot.totals
  reports : x.move = .report → ∃ reply, x.worker.phase.reply? = some reply ∧
    x.after.control = (x.before.control.write (.worker x.worker.number) reply).2
  silent : x.move ≠ .report → x.after.control.sent = x.before.control.sent
  keepsTree : x.worker.puts x.move = [] → x.after.tree = x.before.tree

variable {w w' w₀ : Worker} {m : Move} {s s' s₀ : Shared} {l : List Step}

theorem Runs.moved (hrun : Runs w₀ s₀ l w s) :
    ∀ x ∈ l, ∃ w', x.worker.move? x.move x.before = some (w', x.after) := by
  induction hrun with
  | start => simp
  | move _ hmove ih =>
    intro x hx
    rcases List.mem_append.1 hx with hx | hx
    · exact ih x hx
    · obtain rfl := List.mem_singleton.1 hx
      exact ⟨_, hmove⟩
  | other _ _ ih => exact ih

theorem Runs.cancel (hrun : Runs w₀ s₀ l w s) :
    Runs w₀ s₀ l w { s with slot := s.slot.cancel } := hrun.other fun _ _ => rfl

theorem totals_poll (waiter : Slot.Waiter) (slot : Slot Source Sink) :
    (waiter.poll slot).2.2.totals = slot.totals := by
  unfold Slot.Waiter.poll
  split
  next =>
    split
    next =>
      obtain ⟨-, htake⟩ | ⟨-, _, _, -, htake⟩ | ⟨-, -, htake⟩ := slot.take_cases <;> rw [htake]
    next => rfl
  next => rfl

theorem totals_of_move (h : w.move? m s = some (w', s')) (hm : m ≠ .record) :
    s'.slot.totals = s.slot.totals := by
  unfold move? at h
  repeat' split at h
  all_goals
    first
      | contradiction
      | (obtain ⟨-, rfl⟩ := Prod.mk.inj (Option.some.inj h); rfl)
      | (rename_i hpoll
         obtain ⟨-, rfl⟩ := Prod.mk.inj (Option.some.inj h)
         exact congrArg (fun polled => polled.2.2.totals) hpoll ▸ totals_poll _ _)
      | (obtain ⟨control, -, h⟩ := Option.map_eq_some_iff.1 h
         obtain ⟨-, rfl⟩ := Prod.mk.inj h
         rfl)

theorem record_of_move (h : w.move? .record s = some (w', s')) :
    ∃ job, w.phase = .recording job ∧ w'.phase = .retiring (some complete) ∧
      s'.slot = s.slot.record (UInt64.ofNat job.total) := by
  cases hphase : w.phase with
  | recording job =>
    simp only [move?, hphase] at h
    obtain ⟨rfl, rfl⟩ := Prod.mk.inj (Option.some.inj h)
    exact ⟨job, rfl, rfl, rfl⟩
  | _ => simp [move?, hphase] at h

theorem armed_of_move (h : w.move? m s = some (w', s')) (hm : m.leavesSlot = false) :
    s'.slot.armed = s.slot.armed := by
  cases advance_of_move h with
  | looksInVain _ _ _ _ hslot | givesUp _ _ _ _ hslot | takes _ _ _ _ hslot =>
    rw [hslot, Slot.Waiter.armed_poll]
  | serves _ _ _ hslot => rw [hslot]
  | leaves hleaves => simp [hm] at hleaves
  | windsUp _ _ _ hslot => rw [hslot]

theorem slot_of_leave (h : w.move? m s = some (w', s')) (hm : m.leavesSlot = true) :
    s'.slot = s.slot.finish := by
  cases advance_of_move h with
  | leaves _ _ _ hslot => exact hslot
  | looksInVain | givesUp | takes => cases hm
  | serves hstays | windsUp hstays => simp [hm] at hstays

theorem puts_of_write {count : Nat} (h : w.move? (.write count) s = some (w', s')) :
    w.puts (.write count) ≠ [] := by
  cases hphase : w.phase with
  | writing job size left =>
    simp only [move?, hphase] at h
    split at h
    next hcount =>
      obtain ⟨hpos, hle⟩ := hcount
      simp only [puts, hphase, ne_eq, List.take_eq_nil_iff, not_or]
      exact ⟨Nat.ne_of_gt hpos, List.ne_nil_of_length_pos (Nat.lt_of_lt_of_le hpos hle)⟩
    next => cases h
  | _ => simp [move?, hphase] at h

theorem tree_of_puts (h : w.move? m s = some (w', s')) (hputs : w.puts m = []) :
    s'.tree = s.tree := by
  have hwrite : ∀ count, m ≠ .write count := fun count hm => by
    subst hm
    exact puts_of_write h hputs
  unfold move? at h
  repeat' split at h
  all_goals
    first
      | contradiction
      | exact absurd rfl (hwrite _)
      | (obtain ⟨-, rfl⟩ := Prod.mk.inj (Option.some.inj h); rfl)
      | (obtain ⟨control, -, h⟩ := Option.map_eq_some_iff.1 h
         obtain ⟨-, rfl⟩ := Prod.mk.inj h
         rfl)

theorem Runs.shows (hrun : Runs w₀ s₀ l w s) : ∀ x ∈ l, x.Shows := by
  intro x hx
  obtain ⟨w', hmove⟩ := hrun.moved x hx
  have hact := controlMove_of_move hmove
  refine ⟨slot_of_leave hmove, fun hm => ⟨?_, armed_of_move hmove hm⟩, fun hm => ?_,
    totals_of_move hmove, fun hm => ?_, fun hm => ?_, tree_of_puts hmove⟩
  · simp [(advance_of_move hmove).inProgress, hm]
  · rw [hm] at hmove
    obtain ⟨job, hphase, -, hslot⟩ := record_of_move hmove
    exact ⟨job, by rw [hphase]; rfl, hslot⟩
  · rw [hm] at hact
    cases hact with
    | works hspeaks => cases hspeaks
    | reports hphase _ hcontrol => exact ⟨_, by rw [hphase]; rfl, hcontrol⟩
  · generalize x.move = m at hm hact
    cases hact with
    | works _ hcontrol | releases _ _ hcontrol => rw [hcontrol]
    | locks _ _ _ hcontrol | unlocks _ _ hcontrol => simp [hcontrol]
    | reports => exact absurd rfl hm

end Worker

end FtpServer
