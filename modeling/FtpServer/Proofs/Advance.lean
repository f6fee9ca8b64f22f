import FtpServer.Transfer.Worker

/-!
# How a worker advances

A worker waits for a transfer, serves the slot, and is gone from it.  Every move is one of four
kinds, and only looking at the slot and leaving it concern the transfer that is in progress.
-/

namespace FtpServer

inductive Stage
  | waiting
  | serving
  | gone
  deriving DecidableEq, Repr

def Phase.stage : Phase → Stage
  | .waiting _ => .waiting
  | .reporting _ | .unlocking | .ended => .gone
  | _ => .serving

def Phase.reply? : Phase → Option Reply
  | .retiring reply | .releasing reply => reply
  | .reporting reply => some reply
  | _ => none

namespace Worker

def Move.leavesSlot : Move → Bool
  | .release | .leave => true
  | _ => false

variable {w w' : Worker} {m : Move} {s s' : Shared}

/-- A move enters a phase, and takes no time. -/
theorem frame_of_move (h : w.move? m s = some (w', s')) :
    w' = w.enter w'.phase ∧ s'.clock = s.clock := by
  unfold move? at h
  repeat' split at h
  all_goals
    first
      | (obtain ⟨rfl, rfl⟩ := Prod.mk.inj (Option.some.inj h); exact ⟨rfl, rfl⟩)
      | (obtain ⟨control, -, h⟩ := Option.map_eq_some_iff.1 h
         obtain ⟨rfl, rfl⟩ := Prod.mk.inj h
         exact ⟨rfl, rfl⟩)
      | cases h

theorem enter_of_move (h : w.move? m s = some (w', s')) : w' = w.enter w'.phase :=
  (frame_of_move h).1

theorem clock_of_move (h : w.move? m s = some (w', s')) : s'.clock = s.clock :=
  (frame_of_move h).2

/-- What a move does to the worker's stage and to the slot. -/
inductive Advance (w : Worker) (s : Shared) : Move → Worker → Shared → Prop
  | looksInVain {w' : Worker} {s' : Shared} {waiter : Slot.Waiter}
      (hphase : w.phase = .waiting waiter) (hawake : waiter.awake s.slot)
      (hlook : (waiter.poll s.slot).1 = .pending)
      (hphase' : w'.phase = .waiting (waiter.poll s.slot).2.1)
      (hslot : s'.slot = (waiter.poll s.slot).2.2) : Advance w s .look w' s'
  | givesUp {w' : Worker} {s' : Shared} {waiter : Slot.Waiter}
      (hphase : w.phase = .waiting waiter) (hawake : waiter.awake s.slot)
      (hlook : (waiter.poll s.slot).1 = .cancelled) (hphase' : w'.phase = .leaving)
      (hslot : s'.slot = (waiter.poll s.slot).2.2) : Advance w s .look w' s'
  | takes {w' : Worker} {s' : Shared} {waiter : Slot.Waiter} {direction : Direction}
      {stream : Stream Source Sink} {deadline : Nat}
      (hphase : w.phase = .waiting waiter) (hawake : waiter.awake s.slot)
      (hlook : (waiter.poll s.slot).1 = .ready direction stream)
      (hphase' : w'.phase = .connecting direction stream deadline)
      (hslot : s'.slot = (waiter.poll s.slot).2.2) : Advance w s .look w' s'
  | serves {m : Move} {w' : Worker} {s' : Shared} (hmove : m.leavesSlot = false)
      (hstage : w.phase.stage = .serving) (hstage' : w'.phase.stage = .serving)
      (hslot : s'.slot = { s.slot with totals := s'.slot.totals }) : Advance w s m w' s'
  | leaves {m : Move} {w' : Worker} {s' : Shared} (hmove : m.leavesSlot = true)
      (hstage : w.phase.stage = .serving)
      (hstage' : w'.phase.stage = .gone) (hslot : s'.slot = s.slot.finish) : Advance w s m w' s'
  | windsUp {m : Move} {w' : Worker} {s' : Shared} (hmove : m.leavesSlot = false)
      (hstage : w.phase.stage = .gone) (hstage' : w'.phase.stage = .gone)
      (hslot : s'.slot = s.slot) : Advance w s m w' s'

/-- A worker that serves and goes on serving leaves the slot alone. -/
theorem Advance.of_enter {phase : Phase} {s₁ : Shared} (h : some (w.enter phase, s₁) = some (w', s'))
    (hmove : m.leavesSlot = false) (hstage : w.phase.stage = .serving)
    (hstage' : phase.stage = .serving)
    (hslot : s₁.slot = { s.slot with totals := s₁.slot.totals }) : Advance w s m w' s' := by
  obtain ⟨rfl, rfl⟩ := Prod.mk.inj (Option.some.inj h)
  exact .serves hmove hstage hstage' hslot

theorem advance_of_look {waiter : Slot.Waiter} (hphase : w.phase = .waiting waiter)
    (h : w.move? .look s = some (w', s')) : Advance w s .look w' s' := by
  unfold move? at h
  rw [hphase] at h
  dsimp only at h
  split at h
  next hawake =>
    split at h
    next hpoll =>
      obtain ⟨rfl, rfl⟩ := Prod.mk.inj (Option.some.inj h)
      exact .looksInVain hphase hawake (by rw [hpoll]) (by rw [hpoll]; rfl) (by rw [hpoll])
    next hpoll =>
      obtain ⟨rfl, rfl⟩ := Prod.mk.inj (Option.some.inj h)
      exact .givesUp hphase hawake (by rw [hpoll]) rfl (by rw [hpoll])
    next hpoll =>
      obtain ⟨rfl, rfl⟩ := Prod.mk.inj (Option.some.inj h)
      exact .takes hphase hawake (by rw [hpoll]) rfl (by rw [hpoll])
  next => cases h

theorem advance_of_read {job : Job} {count : Nat} (hphase : w.phase = .reading job)
    (h : w.move? (.read count) s = some (w', s')) : Advance w s (.read count) w' s' := by
  have hstage : w.phase.stage = .serving := by rw [hphase]; rfl
  unfold move? at h
  rw [hphase] at h
  dsimp only at h
  split at h
  next => exact .of_enter h rfl hstage rfl rfl
  next => exact .of_enter h rfl hstage rfl rfl
  next => cases h

theorem advance_of_write {job : Job} {size count : Nat} {left : Text.Bytes}
    (hphase : w.phase = .writing job size left)
    (h : w.move? (.write count) s = some (w', s')) : Advance w s (.write count) w' s' := by
  have hstage : w.phase.stage = .serving := by rw [hphase]; rfl
  unfold move? at h
  rw [hphase] at h
  dsimp only at h
  split at h
  next =>
    split at h
    next =>
      refine .of_enter h rfl hstage ?_ rfl
      split <;> rfl
    next => cases h
  next => cases h

theorem advance_of_release {reply : Option Reply} (hphase : w.phase = .releasing reply)
    (h : w.move? .release s = some (w', s')) : Advance w s .release w' s' := by
  unfold move? at h
  rw [hphase] at h
  obtain ⟨rfl, rfl⟩ := Prod.mk.inj (Option.some.inj h)
  refine .leaves rfl (by rw [hphase]; rfl) ?_ rfl
  cases reply with
  | none => rfl
  | some reply =>
    dsimp only [enter]
    split <;> rfl

theorem advance_of_move (h : w.move? m s = some (w', s')) : Advance w s m w' s' := by
  have serving : ∀ {phase : Phase}, w.phase = phase → phase.stage = .serving →
      w.phase.stage = .serving := fun hphase hstage => hphase ▸ hstage
  cases hphase : w.phase with
  | waiting waiter =>
    cases m with
    | look => exact advance_of_look hphase h
    | _ => simp [move?, hphase] at h
  | connecting direction stream deadline =>
    cases m with
    | connect peer incoming =>
      simp only [move?, hphase] at h
      split at h <;> exact .of_enter h rfl (serving hphase rfl) rfl rfl
    | connectFails cause =>
      simp only [move?, hphase] at h
      exact .of_enter h rfl (serving hphase rfl) rfl rfl
    | timeOut | cancel =>
      simp only [move?, hphase] at h
      split at h
      next => exact .of_enter h rfl (serving hphase rfl) rfl rfl
      next => cases h
    | _ => simp [move?, hphase] at h
  | checking job =>
    cases m with
    | check =>
      simp only [move?, hphase] at h
      split at h
      next => cases h
      next => exact .of_enter h rfl (serving hphase rfl) rfl rfl
    | cancel =>
      simp only [move?, hphase] at h
      split at h
      next => exact .of_enter h rfl (serving hphase rfl) rfl rfl
      next => cases h
    | _ => simp [move?, hphase] at h
  | reading job =>
    cases m with
    | read count => exact advance_of_read hphase h
    | readFails cause =>
      simp only [move?, hphase] at h
      exact .of_enter h rfl (serving hphase rfl) rfl rfl
    | cancel =>
      simp only [move?, hphase] at h
      split at h
      next => exact .of_enter h rfl (serving hphase rfl) rfl rfl
      next => cases h
    | _ => simp [move?, hphase] at h
  | writing job size left =>
    cases m with
    | write count => exact advance_of_write hphase h
    | writeFails cause =>
      simp only [move?, hphase] at h
      exact .of_enter h rfl (serving hphase rfl) rfl rfl
    | cancel =>
      simp only [move?, hphase] at h
      split at h
      next => exact .of_enter h rfl (serving hphase rfl) rfl rfl
      next => cases h
    | _ => simp [move?, hphase] at h
  | closing job =>
    cases m with
    | close | closeFails cause =>
      simp only [move?, hphase] at h
      exact .of_enter h rfl (serving hphase rfl) rfl rfl
    | _ => simp [move?, hphase] at h
  | recording job =>
    cases m with
    | record =>
      simp only [move?, hphase] at h
      exact .of_enter h rfl (serving hphase rfl) rfl rfl
    | _ => simp [move?, hphase] at h
  | retiring reply =>
    cases m with
    | lock =>
      simp only [move?, hphase, Option.map_eq_some_iff] at h
      obtain ⟨control, -, h⟩ := h
      exact .of_enter (congrArg some h) rfl (serving hphase rfl) rfl rfl
    | _ => simp [move?, hphase] at h
  | releasing reply =>
    cases m with
    | release => exact advance_of_release hphase h
    | _ => simp [move?, hphase] at h
  | reporting reply =>
    cases m with
    | report =>
      simp only [move?, hphase] at h
      obtain ⟨rfl, rfl⟩ := Prod.mk.inj (Option.some.inj h)
      exact .windsUp rfl (by rw [hphase]; rfl) rfl rfl
    | _ => simp [move?, hphase] at h
  | unlocking =>
    cases m with
    | unlock =>
      simp only [move?, hphase] at h
      obtain ⟨rfl, rfl⟩ := Prod.mk.inj (Option.some.inj h)
      exact .windsUp rfl (by rw [hphase]; rfl) rfl rfl
    | _ => simp [move?, hphase] at h
  | leaving =>
    cases m with
    | leave =>
      simp only [move?, hphase] at h
      obtain ⟨rfl, rfl⟩ := Prod.mk.inj (Option.some.inj h)
      exact .leaves rfl (by rw [hphase]; rfl) rfl rfl
    | _ => simp [move?, hphase] at h
  | ended => simp [move?, hphase] at h

theorem tree_of_writeSink {t t' : Tree} {chunk : Text.Bytes} {sink sink' : Sink}
    (h : t.writeSink chunk sink = .ok (sink', t')) :
    ∃ contents, contents.length = t.contents.length ∧ t' = { t with contents := contents } := by
  cases sink with
  | file content offset =>
    simp only [Tree.writeSink] at h
    obtain ⟨-, rfl⟩ := Prod.mk.inj (Except.ok.inj h)
    exact ⟨_, List.length_set .., rfl⟩
  | unwritable cause =>
    simp only [Tree.writeSink] at h
    split at h
    next =>
      obtain ⟨-, rfl⟩ := Prod.mk.inj (Except.ok.inj h)
      exact ⟨_, rfl, rfl⟩
    next => cases h

theorem tree_of_putBytes {t t' : Tree} {chunk : Text.Bytes} {job job' : Job}
    (h : putBytes t chunk job = some (job', t')) :
    ∃ contents, contents.length = t.contents.length ∧ t' = { t with contents := contents } := by
  unfold putBytes at h
  split at h
  next =>
    obtain ⟨-, rfl⟩ := Prod.mk.inj (Option.some.inj h)
    exact ⟨_, rfl, rfl⟩
  next =>
    split at h
    next hwrite =>
      obtain ⟨-, rfl⟩ := Prod.mk.inj (Option.some.inj h)
      exact tree_of_writeSink hwrite
    next => cases h

theorem tree_of_move (h : w.move? m s = some (w', s')) :
    ∃ contents, contents.length = s.tree.contents.length ∧
      s'.tree = { s.tree with contents := contents } := by
  -- Only the bytes of an upload reach the tree.
  have hwrites : s'.tree = s.tree ∨
      ∃ chunk job job', putBytes s.tree chunk job = some (job', s'.tree) := by
    unfold move? at h
    repeat' split at h
    all_goals
      first
        | (obtain ⟨-, rfl⟩ := Prod.mk.inj (Option.some.inj h); exact .inl rfl)
        | (obtain ⟨-, rfl⟩ := Prod.mk.inj (Option.some.inj h); exact .inr ⟨_, _, _, ‹_›⟩)
        | (obtain ⟨control, -, h⟩ := Option.map_eq_some_iff.1 h
           obtain ⟨-, rfl⟩ := Prod.mk.inj h
           exact .inl rfl)
        | cases h
  rcases hwrites with hsame | ⟨chunk, job, job', hput⟩
  · exact ⟨_, rfl, hsame⟩
  · exact tree_of_putBytes hput

end Worker

end FtpServer
