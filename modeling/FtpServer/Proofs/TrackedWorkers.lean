import FtpServer.Proofs.Attendance

/-!
# Workers that the session keeps track of

The session may forget a worker only once it has left the slot.  So whoever has not left is the
worker that the session holds; that goes for a slot in any state, orphaned transfers included.
-/

namespace FtpServer.Scene

variable {s s' t : Scene} {n number : Nat} {m : Worker.Move} {w : Worker}

/-- The session holds worker `n`, has not cancelled it, and sees a transfer in progress if the worker
has one. -/
structure Tracked (s : Scene) (n : Nat) (w : Worker) : Prop where
  held : s.held = some n
  armed : s.shared.slot.armed = true
  uncancelled : s.shared.slot.cancelled = false
  busy : w.phase.stage = .serving → s.shared.slot.inProgress = true

def AllTracked (s : Scene) : Prop :=
  ∀ n w, s.workers[n]? = some w → w.phase.stage ≠ .gone → s.Tracked n w

def OnlyActive (n : Nat) (s : Scene) : Prop :=
  ∀ i w, s.workers[i]? = some w → w.phase.stage ≠ .gone → i = n

/-- A property that neither a move of a worker disturbs nor what is not about the slot. -/
structure Lasts (P : Scene → Prop) : Prop where
  move : ∀ {s s' number m}, P s → s.moveWorker? number m = some s' → P s'
  same : ∀ {s s'}, P s → s.SameService s' → P s'

theorem Lasts.and {P Q : Scene → Prop} (hP : Lasts P) (hQ : Lasts Q) :
    Lasts fun s => P s ∧ Q s where
  move h hmove := ⟨hP.move h.1 hmove, hQ.move h.2 hmove⟩
  same h hsame := ⟨hP.same h.1 hsame, hQ.same h.2 hsame⟩

theorem Lasts.imp {P : Scene → Prop} (hP : Lasts P) (p : Prop) : Lasts fun s => p → P s where
  move h hmove hp := hP.move (h hp) hmove
  same h hsame hp := hP.same (h hp) hsame

theorem lasts_allGone : Lasts AllGone where
  move h hmove := (h.move hmove).2.1
  same h hsame := h.same hsame

theorem OnlyActive.move (h : s.OnlyActive n) (hmove : s.moveWorker? number m = some s') :
    s'.OnlyActive n := by
  refine each_of_moveWorker hmove h fun w w' hw hmoved hstays => ?_
  exact h number w hw fun hgone => hstays ((Worker.advance_of_move hmoved).of_gone hgone).2.1

theorem OnlyActive.same (h : s.OnlyActive n) (hsame : s.SameService s') : s'.OnlyActive n := by
  unfold OnlyActive
  rw [hsame.workers]
  exact h

theorem lasts_onlyActive (n : Nat) : Lasts (OnlyActive n) := ⟨fun h => h.move, fun h => h.same⟩

theorem Tracked.same (h : s.Tracked n w) (hheld : s'.held = s.held)
    (hslot : s'.shared.slot = s.shared.slot) : s'.Tracked n w where
  held := hheld.trans h.held
  armed := hslot ▸ h.armed
  uncancelled := hslot ▸ h.uncancelled
  busy := hslot ▸ h.busy

/-- A worker stays tracked as long as it does not leave the slot. -/
theorem Tracked.advance {w' : Worker} (h : s.Tracked n w) (hheld : s'.held = s.held)
    (hadvance : w.Advance s.shared m w' s'.shared) (hstays : w'.phase.stage ≠ .gone) :
    s'.Tracked n w' := by
  have hcancelled := hadvance.cancelled
  have hbusy := hadvance.inProgress
  refine ⟨hheld.trans h.held, ?_, hcancelled.trans h.uncancelled, fun hserving => ?_⟩
  · cases hadvance with
    | looksInVain _ _ _ _ hslot | givesUp _ _ _ _ hslot | takes _ _ _ _ hslot =>
      rw [hslot, Slot.Waiter.armed_poll]
      exact h.armed
    | serves _ _ _ hslot => rw [hslot]; exact h.armed
    | leaves _ _ hgone | windsUp _ _ hgone => exact absurd hgone hstays
  · cases hadvance with
    | looksInVain _ _ _ hphase => rw [hphase] at hserving; cases hserving
    | givesUp _ _ hlook =>
      have hcancel := Slot.Waiter.poll_cancelled hlook
      rw [h.uncancelled] at hcancel
      cases hcancel
    | takes _ _ hlook =>
      have hhandle := Slot.Waiter.poll_ready hlook
      rw [hbusy, Slot.inProgress, hhandle]
      rfl
    | serves hmove hstage => rw [hbusy, h.busy hstage, hmove]; rfl
    | leaves _ _ hgone | windsUp _ _ hgone => exact absurd hgone hstays

theorem AllTracked.move (h : s.AllTracked) (hmove : s.moveWorker? number m = some s') :
    s'.AllTracked := by
  have hheld := held_of_moveWorker hmove
  obtain ⟨w, w', hw, hmoved, hw', hothers⟩ := workers_of_moveWorker hmove
  have hadvance := Worker.advance_of_move hmoved
  intro i v hv hstays
  by_cases hi : i = number
  · subst hi
    obtain rfl := Option.some.inj (hw'.symm.trans hv)
    have hstayed : w.phase.stage ≠ .gone := fun hgone => hstays (hadvance.of_gone hgone).2.1
    exact (h i w hw hstayed).advance hheld hadvance hstays
  · -- Only one worker is tracked, so another one has moved, which leaves the slot alone.
    rw [hothers i hi] at hv
    have htracked := h i v hv hstays
    have hgone : w.phase.stage = .gone := by
      by_cases hgone : w.phase.stage = .gone
      · exact hgone
      · have hsame := (h number w hw hgone).held.symm.trans htracked.held
        exact absurd (Option.some.inj hsame).symm hi
    obtain ⟨-, -, hslot⟩ := hadvance.of_gone hgone
    exact htracked.same hheld hslot

theorem AllTracked.same (h : s.AllTracked) (hsame : s.SameService s') : s'.AllTracked := by
  intro n w hw hstays
  rw [hsame.workers] at hw
  exact (h n w hw hstays).same hsame.held hsame.slot

theorem lasts_allTracked : Lasts AllTracked := ⟨fun h => h.move, fun h => h.same⟩

theorem AllGone.allTracked (h : s.AllGone) : s.AllTracked :=
  fun n w hw hstays => absurd (h n w hw) hstays

theorem AllTracked.allGone_of_unheld (h : s.AllTracked) (hheld : s.held = none) : s.AllGone := by
  intro n w hw
  by_cases hgone : w.phase.stage = .gone
  · exact hgone
  · cases hheld.symm.trans (h n w hw hgone).held

theorem AllTracked.allGone_of_disarmed (h : s.AllTracked) (harmed : s.shared.slot.armed = false) :
    s.AllGone := by
  intro n w hw
  by_cases hgone : w.phase.stage = .gone
  · exact hgone
  · cases harmed.symm.trans (h n w hw hgone).armed

theorem AllTracked.onlyActive (h : s.AllTracked) (hheld : s.held = some n) : s.OnlyActive n := by
  intro i w hw hstays
  exact Option.some.inj ((h i w hw hstays).held.symm.trans hheld)

/-- Where nothing is in progress, every worker waits for a transfer or has left the slot. -/
theorem AllTracked.idle (h : s.AllTracked) (hfree : s.shared.slot.inProgress = false)
    (hw : s.workers[n]? = some w) : w.phase.stage = .waiting ∨ w.phase.stage = .gone := by
  cases hstage : w.phase.stage with
  | waiting => exact .inl rfl
  | gone => exact .inr rfl
  | serving =>
    have htracked := h n w hw (by simp [hstage])
    cases hfree.symm.trans (htracked.busy hstage)

theorem AllTracked.install (h : s.AllTracked) (transfer : Transfer) :
    (s.withSlot (s.shared.slot.install transfer)).AllTracked := by
  intro n w hw hstays
  have htracked := h n w hw hstays
  exact ⟨htracked.held, htracked.armed, htracked.uncancelled, fun _ => rfl⟩

theorem OnlyActive.join {r : Unit} (h : s.OnlyActive n)
    (hperform : s.perform? (.joinWorker n) = some (r, s')) : s' = s ∧ s.AllGone := by
  simp only [perform?] at hperform
  split at hperform
  next hended =>
    obtain ⟨-, rfl⟩ := Prod.mk.inj (Option.some.inj hperform)
    refine ⟨rfl, fun i w hw => ?_⟩
    by_cases hgone : w.phase.stage = .gone
    · exact hgone
    · obtain rfl := h i w hw hgone
      unfold hasEnded Worker.hasEnded at hended
      rw [hw] at hended
      dsimp only at hended
      split at hended
      next hphase => rw [hphase]; rfl
      next => cases hended
  next => cases hperform

/-- Everybody has left, and the slot is ready for a worker to come. -/
structure Vacant (s : Scene) : Prop where
  allGone : s.AllGone
  armed : s.shared.slot.armed = true
  uncancelled : s.shared.slot.cancelled = false

theorem AllGone.rearm (h : s.AllGone) : (s.withSlot s.shared.slot.rearm).Vacant := ⟨h, rfl, rfl⟩

theorem lasts_vacant : Lasts Vacant where
  move h hmove := by
    obtain ⟨-, hallGone, hslot⟩ := h.allGone.move hmove
    exact ⟨hallGone, hslot ▸ h.armed, hslot ▸ h.uncancelled⟩
  same h hsame := ⟨h.allGone.same hsame, hsame.slot ▸ h.armed, hsame.slot ▸ h.uncancelled⟩

theorem Vacant.start (h : s.Vacant) (endpoint : Endpoint) :
    AllTracked { s with
      workers := s.workers ++ [.start s.workers.length endpoint s.bufferSize s.timeoutMs]
      held := some s.workers.length } := by
  intro i w hw hstays
  rcases Nat.lt_trichotomy i s.workers.length with hlt | rfl | hgt
  · rw [List.getElem?_append_left hlt] at hw
    exact absurd (h.allGone i w hw) hstays
  · rw [List.getElem?_concat_length] at hw
    obtain rfl := Option.some.inj hw
    exact ⟨rfl, h.armed, h.uncancelled, fun hserving => by cases hserving⟩
  · rw [List.getElem?_eq_none (by simp; omega)] at hw
    cases hw

end FtpServer.Scene
