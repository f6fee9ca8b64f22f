import FtpServer.Proofs.Advance
import FtpServer.Scene

/-!
# What a step leaves alone

A move of a worker changes what it shares and the worker itself; a question changes the slot, the
workers or the tree only if it is about them.
-/

namespace FtpServer

/-- Questions that concern neither the slot nor a worker. -/
def Request.sparesSlot : Request → Bool
  | .file _ | .authenticate _ _ | .pause _ | .note _ | .listen _ | .totals | .lockControl
  | .writeReply _ | .shutControl | .unlockControl => true
  | _ => false

namespace Scene

variable {s s' : Scene} {number : Nat} {m : Worker.Move} {q : Request} {r : q.Answer}

theorem exists_of_moveWorker (h : s.moveWorker? number m = some s') :
    ∃ w w' shared, s.workers[number]? = some w ∧ w.move? m s.shared = some (w', shared) ∧
      s' = { s with workers := s.workers.set number w', shared := shared } := by
  unfold moveWorker? at h
  split at h
  next w hw =>
    obtain ⟨⟨w', shared⟩, hmove, rfl⟩ := Option.map_eq_some_iff.1 h
    exact ⟨w, w', shared, hw, hmove, rfl⟩
  next => cases h

theorem advance_of_moveWorker (h : s.moveWorker? number m = some s') :
    ∃ w w' shared, s.workers[number]? = some w ∧ w.Advance s.shared m w' shared ∧
      s' = { s with workers := s.workers.set number w', shared := shared } := by
  obtain ⟨w, w', shared, hw, hmove, rfl⟩ := exists_of_moveWorker h
  exact ⟨w, w', shared, hw, Worker.advance_of_move hmove, rfl⟩

/-- The workers after a move: the one that moved, and the others as they were. -/
theorem workers_of_moveWorker (h : s.moveWorker? number m = some s') :
    ∃ w w', s.workers[number]? = some w ∧ w.move? m s.shared = some (w', s'.shared) ∧
      s'.workers[number]? = some w' ∧ ∀ i, i ≠ number → s'.workers[i]? = s.workers[i]? := by
  obtain ⟨w, w', shared, hw, hmove, rfl⟩ := exists_of_moveWorker h
  refine ⟨w, w', hw, hmove, ?_, fun i hi => List.getElem?_set_ne (Ne.symm hi)⟩
  rw [List.getElem?_set_self', hw]
  rfl

/-- What holds of every worker goes on to hold if it holds of the one that moved. -/
theorem each_of_moveWorker {P : Nat → Worker → Prop} (h : s.moveWorker? number m = some s')
    (hs : ∀ (i : Nat) (w : Worker), s.workers[i]? = some w → P i w)
    (hmoves : ∀ w w', s.workers[number]? = some w → w.move? m s.shared = some (w', s'.shared) →
      P number w') (i : Nat) (w : Worker) (hw : s'.workers[i]? = some w) : P i w := by
  obtain ⟨v, v', hv, hmoved, hv', hothers⟩ := workers_of_moveWorker h
  by_cases hi : i = number
  · subst hi
    obtain rfl := Option.some.inj (hv'.symm.trans hw)
    exact hmoves v v' hv hmoved
  · exact hs i w ((hothers i hi).symm.trans hw)

theorem held_of_moveWorker (h : s.moveWorker? number m = some s') : s'.held = s.held := by
  obtain ⟨w, w', shared, -, -, rfl⟩ := exists_of_moveWorker h
  rfl

theorem authenticator_of_moveWorker (h : s.moveWorker? number m = some s') :
    s'.authenticator = s.authenticator := by
  obtain ⟨w, w', shared, -, -, rfl⟩ := exists_of_moveWorker h
  rfl

/-- No question changes which passwords are right, and only calls on the host change the tree. -/
theorem frame_of_perform (h : s.perform? q = some (r, s')) :
    s'.authenticator = s.authenticator ∧
      ((∀ call, q ≠ .file call) → s'.shared.tree = s.shared.tree) := by
  cases q with
  | file call =>
    obtain rfl : (s.performFile call).2 = s' := congrArg Prod.snd (Option.some.inj h)
    exact ⟨by cases call <;> rfl, fun hq => absurd rfl (hq call)⟩
  | listen ip =>
    obtain ⟨-, rfl⟩ := Prod.mk.inj (Option.some.inj h)
    cases s.listenFault <;> exact ⟨rfl, fun _ => rfl⟩
  | joinWorker number =>
    simp only [perform?] at h
    split at h
    next =>
      cases h
      exact ⟨rfl, fun _ => rfl⟩
    next => cases h
  | lockControl =>
    obtain ⟨control, -, h⟩ := Option.map_eq_some_iff.1 h
    cases h
    exact ⟨rfl, fun _ => rfl⟩
  | _ =>
    cases h
    exact ⟨rfl, fun _ => rfl⟩

structure SameService (s s' : Scene) : Prop where
  slot : s'.shared.slot = s.shared.slot
  workers : s'.workers = s.workers
  held : s'.held = s.held

theorem same_of_spared (hq : q.sparesSlot = true) (h : s.perform? q = some (r, s')) :
    s.SameService s' := by
  cases q with
  | holdsWorker | letGoWorker | joinWorker | startWorker | isInProgress | isArmed | install
  | cancel | finish | rearm => cases hq
  | file call =>
    obtain rfl : (s.performFile call).2 = s' := congrArg Prod.snd (Option.some.inj h)
    cases call <;> exact ⟨rfl, rfl, rfl⟩
  | listen ip =>
    obtain ⟨-, rfl⟩ := Prod.mk.inj (Option.some.inj h)
    cases s.listenFault <;> exact ⟨rfl, rfl, rfl⟩
  | lockControl =>
    obtain ⟨control, -, h⟩ := Option.map_eq_some_iff.1 h
    cases h
    exact ⟨rfl, rfl, rfl⟩
  | _ =>
    cases h
    exact ⟨rfl, rfl, rfl⟩

/-- What the session asks for changes nothing in the slot, clears it, or installs a transfer. -/
theorem handle_of_perform (h : s.perform? q = some (r, s')) :
    s'.shared.slot.handle = s.shared.slot.handle ∨
    (q = .finish ∨ q = .rearm) ∧ s'.shared.slot.handle = none ∨
    ∃ transfer, q = .install transfer := by
  by_cases hspared : q.sparesSlot = true
  · exact .inl (congrArg Slot.handle (same_of_spared hspared h).slot)
  · cases q with
    | install transfer => exact .inr (.inr ⟨transfer, rfl⟩)
    | finish | rearm =>
      cases h
      exact .inr (.inl ⟨by simp, rfl⟩)
    | joinWorker number =>
      simp only [perform?] at h
      split at h
      next => cases h; exact .inl rfl
      next => cases h
    | holdsWorker | letGoWorker | startWorker | isInProgress | isArmed | cancel =>
      cases h
      exact .inl rfl
    | _ => exact absurd rfl hspared

end Scene

end FtpServer
