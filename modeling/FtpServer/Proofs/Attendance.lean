import FtpServer.Proofs.Frame
import FtpServer.Proofs.Trace

/-!
# Who attends the slot

One worker at most attends the slot.  A transfer that it has not taken yet keeps it awake, it serves
only what it took, and with its leaving the slot is empty.
-/

namespace FtpServer

namespace Slot

variable {S K : Type} {s : Slot S K}

/-- A session that asks both slots gets the same answers. -/
structure SameAnswers (s s' : Slot S K) : Prop where
  armed : s'.armed = s.armed
  cancelled : s'.cancelled = s.cancelled
  inProgress : s'.inProgress = s.inProgress

theorem inProgress_eq_false : s.inProgress = false ↔ s.handle = none := by
  simp [inProgress]

theorem take_cases (s : Slot S K) :
    (s.cancelled = true ∧ s.take = (.cancelled, s)) ∨
    (s.cancelled = false ∧ ∃ direction stream, s.handle = some ⟨direction, some stream⟩ ∧
      s.take = (.ready direction stream, { s with handle := some ⟨direction, none⟩ })) ∨
    (s.cancelled = false ∧ (∀ h, s.handle = some h → h.stream = none) ∧
      s.take = (.pending, s)) := by
  unfold take
  cases hcancelled : s.cancelled with
  | true => exact .inl ⟨rfl, by simp⟩
  | false =>
    refine .inr ?_
    rcases hhandle : s.handle with _ | ⟨direction, _ | stream⟩
    · exact .inr ⟨rfl, by simp, by simp⟩
    · exact .inr ⟨rfl, by simp, by simp⟩
    · exact .inl ⟨rfl, direction, stream, rfl, by simp⟩

theorem take_pending (h : s.take.1 = .pending) :
    s.cancelled = false ∧ (∀ h, s.handle = some h → h.stream = none) ∧ s.take.2 = s := by
  obtain ⟨-, htake⟩ | ⟨-, _, _, -, htake⟩ | ⟨huncancelled, htaken, htake⟩ := s.take_cases
  · rw [htake] at h; cases h
  · rw [htake] at h; cases h
  · exact ⟨huncancelled, htaken, congrArg Prod.snd htake⟩

theorem take_cancelled (h : s.take.1 = .cancelled) : s.cancelled = true ∧ s.take.2 = s := by
  obtain ⟨hcancelled, htake⟩ | ⟨-, _, _, -, htake⟩ | ⟨-, -, htake⟩ := s.take_cases
  · exact ⟨hcancelled, congrArg Prod.snd htake⟩
  · rw [htake] at h; cases h
  · rw [htake] at h; cases h

theorem take_ready {direction : Direction} {stream : Stream S K}
    (h : s.take.1 = .ready direction stream) : s.handle = some ⟨direction, some stream⟩ ∧
      s.take.2 = { s with handle := some ⟨direction, none⟩ } := by
  obtain ⟨-, htake⟩ | ⟨-, direction', stream', hhandle, htake⟩ | ⟨-, -, htake⟩ := s.take_cases
  · rw [htake] at h; cases h
  · rw [htake] at h
    cases h
    exact ⟨hhandle, congrArg Prod.snd htake⟩
  · rw [htake] at h; cases h

theorem Waiter.poll_of_awake {waiter : Waiter} (hawake : waiter.awake s = true)
    (htransfer : waiter.waitsFor = .transfer) :
    waiter.poll s = (s.take.1, { waiter with seen := some s.wakes }, s.take.2) := by
  simp [poll, hawake, htransfer]

/-- A poll does not touch the slot, or takes from it. -/
theorem Waiter.slot_poll (waiter : Waiter) (s : Slot S K) :
    (waiter.poll s).2.2 = s ∨ (waiter.poll s).2.2 = s.take.2 := by
  unfold poll
  split
  next =>
    split
    next => exact .inr rfl
    next => exact .inl rfl
  next => exact .inl rfl

theorem Waiter.inProgress_poll (waiter : Waiter) (s : Slot S K) :
    (waiter.poll s).2.2.inProgress = s.inProgress := by
  obtain hslot | hslot := waiter.slot_poll s
  · rw [hslot]
  · rw [hslot, inProgress_take]

theorem Waiter.poll_ready {waiter : Waiter} {direction : Direction} {stream : Stream S K}
    (h : (waiter.poll s).1 = .ready direction stream) :
    s.handle = some ⟨direction, some stream⟩ := by
  unfold poll at h
  split at h
  next =>
    split at h
    next => exact (take_ready h).1
    next => split at h <;> cases h
  next => cases h

theorem handle_take {direction : Direction} {stream : Stream S K}
    (h : s.take.2.handle = some ⟨direction, some stream⟩) :
    s.handle = some ⟨direction, some stream⟩ := by
  obtain ⟨-, htake⟩ | ⟨-, _, _, -, htake⟩ | ⟨-, -, htake⟩ := s.take_cases
  · rwa [htake] at h
  · rw [htake] at h
    simp at h
  · rwa [htake] at h

theorem Waiter.handle_poll {waiter : Waiter} {direction : Direction} {stream : Stream S K}
    (h : (waiter.poll s).2.2.handle = some ⟨direction, some stream⟩) :
    s.handle = some ⟨direction, some stream⟩ := by
  obtain hslot | hslot := waiter.slot_poll s
  · rwa [hslot] at h
  · exact handle_take (hslot ▸ h)

theorem Waiter.poll_cancelled {waiter : Waiter} (h : (waiter.poll s).1 = .cancelled) :
    s.cancelled = true := by
  unfold poll at h
  split at h
  next =>
    split at h
    next => exact (take_cancelled h).1
    next =>
      split at h
      next hcancelled => exact hcancelled
      next => cases h
  next => cases h

theorem armed_take (s : Slot S K) : s.take.2.armed = s.armed := by
  obtain ⟨-, htake⟩ | ⟨-, _, _, -, htake⟩ | ⟨-, -, htake⟩ := s.take_cases <;> rw [htake]

theorem Waiter.armed_poll (waiter : Waiter) (s : Slot S K) :
    (waiter.poll s).2.2.armed = s.armed := by
  obtain hslot | hslot := waiter.slot_poll s
  · rw [hslot]
  · rw [hslot, armed_take]

theorem cancelled_take (s : Slot S K) : s.take.2.cancelled = s.cancelled := by
  obtain ⟨-, htake⟩ | ⟨-, _, _, -, htake⟩ | ⟨-, -, htake⟩ := s.take_cases <;> rw [htake]

theorem Waiter.cancelled_poll (waiter : Waiter) (s : Slot S K) :
    (waiter.poll s).2.2.cancelled = s.cancelled := by
  obtain hslot | hslot := waiter.slot_poll s
  · rw [hslot]
  · rw [hslot, cancelled_take]

theorem Waiter.awake_of_lt {waiter : Waiter} (h : ∀ n, waiter.seen = some n → n < s.wakes) :
    waiter.awake s = true := by
  refine decide_eq_true fun hsame => ?_
  exact Nat.lt_irrefl _ (h _ hsame)

end Slot

namespace Worker

/-- What a worker that has not left the slot does for it. -/
inductive AtSlot (slot : Slot Source Sink) : Phase → Prop
  | waits {waiter : Slot.Waiter} (htransfer : waiter.waitsFor = .transfer)
      (hseen : ∀ n, waiter.seen = some n → n ≤ slot.wakes)
      (huntaken : ∀ h, slot.handle = some h → h.stream.isSome)
      (hawake : slot.inProgress = true ∨ slot.cancelled = true → waiter.awake slot = true) :
      AtSlot slot (.waiting waiter)
  | serves {phase : Phase} (hstage : phase.stage = .serving)
      (htaken : slot.cancelled = true ∨ ∃ direction, slot.handle = some ⟨direction, none⟩) :
      AtSlot slot phase

variable {w w' : Worker} {m : Move} {s s' : Shared} {slot slot' : Slot Source Sink} {phase : Phase}

theorem AtSlot.stage_ne_gone (h : AtSlot slot phase) : phase.stage ≠ .gone := by
  cases h with
  | waits => simp [Phase.stage]
  | serves hstage => simp [hstage]

theorem AtSlot.of_serving (h : AtSlot slot phase) (hstage : phase.stage = .serving) :
    slot.cancelled = true ∨ ∃ direction, slot.handle = some ⟨direction, none⟩ := by
  cases h with
  | waits => cases hstage
  | serves _ htaken => exact htaken

theorem AtSlot.of_waiting {waiter : Slot.Waiter} (h : AtSlot slot (.waiting waiter)) :
    waiter.waitsFor = .transfer ∧ ∀ h, slot.handle = some h → h.stream.isSome := by
  cases h with
  | waits htransfer _ huntaken => exact ⟨htransfer, huntaken⟩
  | serves hstage => cases hstage

theorem AtSlot.sleeps {waiter : Slot.Waiter} (h : AtSlot slot (.waiting waiter))
    (hpending : slot.take.1 = .pending) :
    AtSlot slot (.waiting { waiter with seen := some slot.wakes }) := by
  obtain ⟨htransfer, huntaken⟩ := h.of_waiting
  obtain ⟨huncancelled, htaken, -⟩ := Slot.take_pending hpending
  have hnone : slot.handle = none := by
    cases hhandle : slot.handle with
    | none => rfl
    | some transfer =>
      have hsome := huntaken transfer hhandle
      rw [htaken transfer hhandle] at hsome
      cases hsome
  refine .waits htransfer (fun n hn => ?_) huntaken ?_
  · exact Nat.le_of_eq (Option.some.inj hn).symm
  · simp [Slot.inProgress, hnone, huncancelled]

theorem AtSlot.advance (h : AtSlot s.slot w.phase) (hadvance : Advance w s m w' s') :
    (m.leavesSlot = false ∧ AtSlot s'.slot w'.phase ∧ s.slot.SameAnswers s'.slot) ∨
    (m.leavesSlot = true ∧ (s.slot.cancelled = true ∨ s.slot.inProgress = true) ∧
      w'.phase.stage = .gone ∧ s'.slot = s.slot.finish) := by
  cases hadvance with
  | looksInVain hphase hawake hlook hphase' hslot =>
    obtain ⟨htransfer, -⟩ := AtSlot.of_waiting (hphase ▸ h)
    rw [Slot.Waiter.poll_of_awake hawake htransfer] at hlook hphase' hslot
    obtain ⟨-, -, htake⟩ := Slot.take_pending hlook
    rw [htake] at hslot
    refine .inl ⟨rfl, ?_, ?_⟩
    · rw [hphase', hslot]
      exact AtSlot.sleeps (hphase ▸ h) hlook
    · rw [hslot]
      exact ⟨rfl, rfl, rfl⟩
  | givesUp hphase hawake hlook hphase' hslot =>
    obtain ⟨htransfer, -⟩ := AtSlot.of_waiting (hphase ▸ h)
    rw [Slot.Waiter.poll_of_awake hawake htransfer] at hlook hslot
    obtain ⟨hcancelled, htake⟩ := Slot.take_cancelled hlook
    rw [htake] at hslot
    refine .inl ⟨rfl, ?_, ?_⟩
    · rw [hphase', hslot]
      exact .serves rfl (.inl hcancelled)
    · rw [hslot]
      exact ⟨rfl, rfl, rfl⟩
  | @takes _ _ _ direction _ _ hphase hawake hlook hphase' hslot =>
    obtain ⟨htransfer, -⟩ := AtSlot.of_waiting (hphase ▸ h)
    rw [Slot.Waiter.poll_of_awake hawake htransfer] at hlook hslot
    obtain ⟨hhandle, htake⟩ := Slot.take_ready hlook
    rw [htake] at hslot
    refine .inl ⟨rfl, ?_, ?_⟩
    · rw [hphase', hslot]
      exact .serves rfl (.inr ⟨direction, rfl⟩)
    · rw [hslot]
      exact ⟨rfl, rfl, by simp [Slot.inProgress, hhandle]⟩
  | serves hmove hstage hstage' hslot =>
    have htaken := h.of_serving hstage
    refine .inl ⟨hmove, .serves hstage' ?_, ?_⟩
    · rw [hslot]
      exact htaken
    · rw [hslot]
      exact ⟨rfl, rfl, rfl⟩
  | leaves hmove hstage hstage' hslot =>
    refine .inr ⟨hmove, ?_, hstage', hslot⟩
    rcases h.of_serving hstage with hcancelled | ⟨direction, hhandle⟩
    · exact .inl hcancelled
    · exact .inr (by simp [Slot.inProgress, hhandle])
  | windsUp _ hstage => exact absurd hstage h.stage_ne_gone

theorem Advance.of_gone (hadvance : Advance w s m w' s') (hgone : w.phase.stage = .gone) :
    m.leavesSlot = false ∧ w'.phase.stage = .gone ∧ s'.slot = s.slot := by
  cases hadvance with
  | looksInVain hphase | givesUp hphase | takes hphase =>
    rw [hphase] at hgone
    cases hgone
  | serves _ hstage | leaves _ hstage =>
    rw [hstage] at hgone
    cases hgone
  | windsUp hmove _ hstage' hslot => exact ⟨hmove, hstage', hslot⟩

theorem Advance.inProgress (hadvance : Advance w s m w' s') :
    s'.slot.inProgress = (s.slot.inProgress && !m.leavesSlot) := by
  cases hadvance with
  | looksInVain _ _ _ _ hslot | givesUp _ _ _ _ hslot | takes _ _ _ _ hslot =>
    rw [hslot, Slot.Waiter.inProgress_poll]
    simp [Move.leavesSlot]
  | serves hmove _ _ hslot => rw [hslot, hmove]; simp [Slot.inProgress]
  | leaves hmove _ _ hslot => rw [hslot, hmove]; simp [Slot.inProgress]
  | windsUp hmove _ _ hslot => rw [hslot, hmove]; simp

theorem Advance.handle (hadvance : Advance w s m w' s') {direction : Direction}
    {stream : Stream Source Sink} (h : s'.slot.handle = some ⟨direction, some stream⟩) :
    s.slot.handle = some ⟨direction, some stream⟩ := by
  cases hadvance with
  | looksInVain _ _ _ _ hslot | givesUp _ _ _ _ hslot | takes _ _ _ _ hslot =>
    exact Slot.Waiter.handle_poll (hslot ▸ h)
  | serves _ _ _ hslot => rwa [hslot] at h
  | leaves _ _ _ hslot => simp [hslot] at h
  | windsUp _ _ _ hslot => rwa [hslot] at h

theorem Advance.cancelled (hadvance : Advance w s m w' s') :
    s'.slot.cancelled = s.slot.cancelled := by
  cases hadvance with
  | looksInVain _ _ _ _ hslot | givesUp _ _ _ _ hslot | takes _ _ _ _ hslot =>
    rw [hslot, Slot.Waiter.cancelled_poll]
  | serves _ _ _ hslot => rw [hslot]
  | leaves _ _ _ hslot => rw [hslot, Slot.cancelled_finish]
  | windsUp _ _ _ hslot => rw [hslot]

theorem AtSlot.cancel (h : AtSlot slot phase) : AtSlot slot.cancel phase := by
  cases h with
  | waits htransfer hseen huntaken hawake =>
    refine .waits htransfer (fun n hn => Nat.le_succ_of_le (hseen n hn)) huntaken fun _ => ?_
    exact Slot.Waiter.awake_of_lt fun n hn => Nat.lt_succ_of_le (hseen n hn)
  | serves hstage => exact .serves hstage (.inl rfl)

/-- A worker that has nothing to do yet is awake for what is installed. -/
theorem AtSlot.install (h : AtSlot slot phase) (huncancelled : slot.cancelled = false)
    (hfree : slot.handle = none) {transfer : Handle Source Sink}
    (huntaken : transfer.stream.isSome) :
    AtSlot (slot.install transfer) phase := by
  cases h with
  | waits htransfer hseen _ hawake =>
    refine .waits htransfer (fun n hn => Nat.le_succ_of_le (hseen n hn)) ?_ fun _ => ?_
    · rintro _ ⟨⟩
      exact huntaken
    · exact Slot.Waiter.awake_of_lt fun n hn => Nat.lt_succ_of_le (hseen n hn)
  | serves hstage htaken =>
    rw [huncancelled, hfree] at htaken
    simp at htaken

/-- The worker has the transfer, or takes it when it moves next; and it can move, unless it has to
wait for the control connection. -/
structure Serves (w : Worker) (s : Shared) : Prop where
  stays : w.phase.stage ≠ .gone
  takes : ∀ direction stream, s.slot.handle = some ⟨direction, some stream⟩ →
    s.slot.cancelled = false → ∃ s', w.move? .look s =
      some (w.enter (.connecting direction stream (s.clock + w.timeoutMs)), s')
  moves : (∀ m, w.move? m s = none) → s.control.holder.isSome

theorem look_of_awake {waiter : Slot.Waiter} (hphase : w.phase = .waiting waiter)
    (hawake : waiter.awake s.slot = true) : w.move? .look s ≠ none := by
  simp only [move?, hphase, hawake, if_true]
  split <;> simp

theorem moves_of_serving (hstage : w.phase.stage = .serving)
    (hstuck : ∀ m, w.move? m s = none) : s.control.holder.isSome := by
  cases hphase : w.phase with
  | waiting | reporting | unlocking | ended => rw [hphase] at hstage; cases hstage
  | connecting => simpa [move?, hphase] using hstuck (.connectFails .brokenPipe)
  | checking =>
    have hcancel := hstuck .cancel
    have hcheck := hstuck .check
    cases hcancelled : s.slot.cancelled <;> simp [move?, hphase, hcancelled] at hcancel hcheck
  | reading => simpa [move?, hphase] using hstuck (.readFails .brokenPipe)
  | writing => simpa [move?, hphase] using hstuck (.writeFails .brokenPipe)
  | closing => simpa [move?, hphase] using hstuck .close
  | recording => simpa [move?, hphase] using hstuck .record
  | releasing => simpa [move?, hphase] using hstuck .release
  | leaving => simpa [move?, hphase] using hstuck .leave
  | retiring =>
    have hlock := hstuck .lock
    simp only [move?, hphase, Option.map_eq_none_iff, Control.lock] at hlock
    split at hlock
    next => cases hlock
    next party hholder => rw [hholder]; rfl

theorem AtSlot.serves_transfer (h : AtSlot s.slot w.phase) (hbusy : s.slot.inProgress = true) :
    w.Serves s where
  stays := h.stage_ne_gone
  takes direction stream hhandle huncancelled := by
    generalize hphase : w.phase = phase at h
    cases h with
    | @waits waiter htransfer _ _ hawake =>
      have hpoll := Slot.Waiter.poll_of_awake (hawake (.inl hbusy)) htransfer
      have htake : s.slot.take =
          (.ready direction stream, { s.slot with handle := some ⟨direction, none⟩ }) := by
        simp [Slot.take, huncancelled, hhandle]
      refine ⟨{ s with slot := { s.slot with handle := some ⟨direction, none⟩ } }, ?_⟩
      simp [move?, hphase, hawake (.inl hbusy), hpoll, htake]
    | serves _ htaken =>
      rw [huncancelled, hhandle] at htaken
      simp at htaken
  moves hstuck := by
    generalize hphase : w.phase = phase at h
    cases h with
    | waits _ _ _ hawake => exact absurd (hstuck .look) (look_of_awake hphase (hawake (.inl hbusy)))
    | serves hstage => exact moves_of_serving (hphase ▸ hstage) hstuck

end Worker

namespace Scene

variable {s s' : Scene} {n number : Nat} {m : Worker.Move}

def AllGone (s : Scene) : Prop :=
  ∀ (i : Nat) (w : Worker), s.workers[i]? = some w → w.phase.stage = .gone

/-- Worker `n` attends the slot, and nobody else does. -/
structure Attends (s : Scene) (n : Nat) : Prop where
  worker : ∃ w, s.workers[n]? = some w ∧ Worker.AtSlot s.shared.slot w.phase
  others : ∀ i w, s.workers[i]? = some w → i ≠ n → w.phase.stage = .gone
  armed : s.shared.slot.armed = true

/-- Nobody attends the slot, and nothing is in it. -/
structure Retired (s : Scene) : Prop where
  allGone : s.AllGone
  armed : s.shared.slot.armed = false
  handle : s.shared.slot.handle = none

/-- What the session finds when it is about to do something. -/
inductive Sound (s : Scene) : Prop
  | alone (hheld : s.held = none) (hretired : s.Retired)
  | attended (n : Nat) (hheld : s.held = some n) (hattends : s.Attends n)
      (huncancelled : s.shared.slot.cancelled = false)
  | outlived (n : Nat) (hheld : s.held = some n) (hretired : s.Retired)

theorem inProgress_of_moveWorker (hmove : s.moveWorker? number m = some s') :
    s'.shared.slot.inProgress = (s.shared.slot.inProgress && !m.leavesSlot) := by
  obtain ⟨w, w', shared, -, hadvance, rfl⟩ := advance_of_moveWorker hmove
  exact hadvance.inProgress

theorem cancelled_of_moveWorker (hmove : s.moveWorker? number m = some s') :
    s'.shared.slot.cancelled = s.shared.slot.cancelled := by
  obtain ⟨w, w', shared, -, hadvance, rfl⟩ := advance_of_moveWorker hmove
  exact hadvance.cancelled

theorem handle_of_moveWorker (hmove : s.moveWorker? number m = some s')
    (h : s.shared.slot.handle = none) : s'.shared.slot.handle = none := by
  rw [← Slot.inProgress_eq_false] at h ⊢
  rw [inProgress_of_moveWorker hmove, h, Bool.false_and]

theorem AllGone.move (h : s.AllGone) (hmove : s.moveWorker? number m = some s') :
    m.leavesSlot = false ∧ s'.AllGone ∧ s'.shared.slot = s.shared.slot := by
  obtain ⟨w, w', hw, hmoved, -⟩ := workers_of_moveWorker hmove
  obtain ⟨hleaves, -, hslot⟩ := (Worker.advance_of_move hmoved).of_gone (h number w hw)
  refine ⟨hleaves, each_of_moveWorker hmove h fun w w' hw hmoved => ?_, hslot⟩
  exact ((Worker.advance_of_move hmoved).of_gone (h number w hw)).2.1

theorem Retired.move (h : s.Retired) (hmove : s.moveWorker? number m = some s') :
    m.leavesSlot = false ∧ s'.Retired := by
  obtain ⟨hleaves, hallGone, hslot⟩ := h.allGone.move hmove
  exact ⟨hleaves, hallGone, hslot ▸ h.armed, hslot ▸ h.handle⟩

/-- The worker that attends the slot goes on doing so until it leaves, and then nobody does. -/
theorem Attends.move (h : s.Attends n) (hmove : s.moveWorker? number m = some s') :
    (m.leavesSlot = false ∧ s'.Attends n ∧ s.shared.slot.SameAnswers s'.shared.slot) ∨
    (m.leavesSlot = true ∧
      (s.shared.slot.cancelled = true ∨ s.shared.slot.inProgress = true) ∧ s'.Retired) := by
  obtain ⟨w, w', hw, hmoved, hw', hrest⟩ := workers_of_moveWorker hmove
  have hadvance := Worker.advance_of_move hmoved
  obtain ⟨own, hown, hatSlot⟩ := h.worker
  by_cases hn : n = number
  · subst hn
    obtain rfl : w = own := Option.some.inj (hw.symm.trans hown)
    have hothers : ∀ i v, s'.workers[i]? = some v → i ≠ n → v.phase.stage = .gone :=
      fun i v hv hi => h.others i v (hrest i hi ▸ hv) hi
    rcases hatSlot.advance hadvance with ⟨hleaves, hatSlot', hanswers⟩ |
        ⟨hleaves, hdone, hgone, hslot⟩
    · exact .inl ⟨hleaves, ⟨⟨w', hw', hatSlot'⟩, hothers, hanswers.armed.trans h.armed⟩, hanswers⟩
    · refine .inr ⟨hleaves, hdone, fun i v hv => ?_, ?_, ?_⟩
      · by_cases hi : i = n
        · subst hi
          exact Option.some.inj (hw'.symm.trans hv) ▸ hgone
        · exact hothers i v hv hi
      · exact congrArg Slot.armed hslot
      · exact congrArg Slot.handle hslot
  · obtain ⟨hleaves, hgone, hslot⟩ := hadvance.of_gone (h.others number w hw (Ne.symm hn))
    refine .inl ⟨hleaves, ⟨⟨own, (hrest n hn).trans hown, hslot ▸ hatSlot⟩, fun i v hv hi => ?_,
      hslot ▸ h.armed⟩, ?_⟩
    · by_cases hsame : i = number
      · subst hsame
        exact Option.some.inj (hw'.symm.trans hv) ▸ hgone
      · exact h.others i v (hrest i hsame ▸ hv) hi
    · rw [hslot]
      exact ⟨rfl, rfl, rfl⟩

theorem Sound.move (h : s.Sound) (hmove : s.moveWorker? number m = some s') : s'.Sound := by
  have hheld' := held_of_moveWorker hmove
  cases h with
  | alone hheld hretired => exact .alone (hheld'.trans hheld) (hretired.move hmove).2
  | outlived n hheld hretired => exact .outlived n (hheld'.trans hheld) (hretired.move hmove).2
  | attended n hheld hattends huncancelled =>
    rcases hattends.move hmove with ⟨-, hattends', hanswers⟩ | ⟨-, -, hretired⟩
    · exact .attended n (hheld'.trans hheld) hattends' (hanswers.cancelled.trans huncancelled)
    · exact .outlived n (hheld'.trans hheld) hretired

theorem Sound.retired (h : s.Sound) (hheld : s.held = none) : s.Retired := by
  cases h with
  | alone _ hretired | outlived _ _ hretired => exact hretired
  | attended n hsome => cases hheld.symm.trans hsome

theorem Sound.retired_of_disarmed (h : s.Sound) (harmed : s.shared.slot.armed = false) :
    s.Retired := by
  cases h with
  | alone _ hretired | outlived _ _ hretired => exact hretired
  | attended _ _ hattends => cases harmed.symm.trans hattends.armed

theorem Sound.attends (h : s.Sound) (harmed : s.shared.slot.armed = true)
    (hheld : s.held = some n) :
    s.Attends n ∧ s.shared.slot.cancelled = false := by
  cases h with
  | alone _ hretired | outlived _ _ hretired => cases harmed.symm.trans hretired.armed
  | attended n' hheld' hattends huncancelled =>
    obtain rfl := Option.some.inj (hheld.symm.trans hheld')
    exact ⟨hattends, huncancelled⟩

theorem Attends.hasEnded (h : s.Attends n) : s.hasEnded n = false := by
  obtain ⟨w, hw, hatSlot⟩ := h.worker
  have hstage := hatSlot.stage_ne_gone
  unfold Scene.hasEnded Worker.hasEnded
  rw [hw]
  dsimp only
  split
  next hended => rw [hended] at hstage; exact absurd rfl hstage
  next => rfl

theorem Attends.cancel (h : s.Attends n) : (s.withSlot s.shared.slot.cancel).Attends n where
  worker := h.worker.imp fun _ hw => hw.imp_right Worker.AtSlot.cancel
  others := h.others
  armed := h.armed

theorem Attends.install (h : s.Attends n) (huncancelled : s.shared.slot.cancelled = false)
    (hfree : s.shared.slot.handle = none) {transfer : Handle Source Sink}
    (huntaken : transfer.stream.isSome) :
    (s.withSlot (s.shared.slot.install transfer)).Attends n where
  worker := h.worker.imp fun _ hw => hw.imp_right (·.install huncancelled hfree huntaken)
  others := h.others
  armed := h.armed

/-- A worker that starts where all others have left attends the slot. -/
theorem AllGone.start (h : s.AllGone) (harmed : s.shared.slot.armed = true)
    (hfree : s.shared.slot.handle = none) (huncancelled : s.shared.slot.cancelled = false)
    (endpoint : Endpoint) (held : Option Nat) :
    Attends { s with
      workers := s.workers ++ [.start s.workers.length endpoint s.bufferSize s.timeoutMs]
      held := held } s.workers.length where
  worker := by
    refine ⟨_, List.getElem?_concat_length, .waits rfl (fun n hn => by cases hn) ?_ ?_⟩
    · simp [hfree]
    · simp [Slot.inProgress, hfree, huncancelled]
  others i w hw hi := by
    rcases Nat.lt_or_ge i s.workers.length with hlt | hge
    · rw [List.getElem?_append_left hlt] at hw
      exact h i w hw
    · have hout : s.workers.length < i := Nat.lt_of_le_of_ne hge (Ne.symm hi)
      rw [List.getElem?_eq_none (by simp; omega)] at hw
      cases hw
  armed := harmed

theorem Attends.same (h : s.Attends n) (hsame : s.SameService s') : s'.Attends n where
  worker := by rw [hsame.workers, hsame.slot]; exact h.worker
  others := by rw [hsame.workers]; exact h.others
  armed := by rw [hsame.slot]; exact h.armed

theorem AllGone.same (h : s.AllGone) (hsame : s.SameService s') : s'.AllGone := by
  unfold AllGone
  rw [hsame.workers]
  exact h

theorem Retired.same (h : s.Retired) (hsame : s.SameService s') : s'.Retired where
  allGone := h.allGone.same hsame
  armed := by rw [hsame.slot]; exact h.armed
  handle := by rw [hsame.slot]; exact h.handle

theorem Sound.same (h : s.Sound) (hsame : s.SameService s') : s'.Sound := by
  cases h with
  | alone hheld hretired => exact .alone (hsame.held.trans hheld) (hretired.same hsame)
  | attended n hheld hattends huncancelled =>
    exact .attended n (hsame.held.trans hheld) (hattends.same hsame) (hsame.slot ▸ huncancelled)
  | outlived n hheld hretired => exact .outlived n (hsame.held.trans hheld) (hretired.same hsame)

end Scene

end FtpServer
