import FtpServer.Proofs.Attendance

/-!
# Past a worker that leaves

A data command looks twice at the slot before it opens a transfer: whether a worker attends it, and
whether anything is in progress.  The monitor below notices a worker that leaves between the two
looks, and what is installed after that.
-/

namespace FtpServer

open Program

namespace Scene

inductive Gate
  | shut
  /-- A worker was seen to attend the slot. -/
  | seen
  /-- It has left since. -/
  | slipped
  /-- Nothing was found to be in progress after that. -/
  | past
  /-- A transfer was installed after that. -/
  | raced
  deriving DecidableEq, Repr

namespace Gate

def ask : Gate → (q : Request) → q.Answer → Gate
  | .raced, _, _ => .raced
  | _, .isArmed, true => .seen
  | .slipped, .isInProgress, false => .past
  | .past, .install _, _ => .raced
  | .past, q, _ => if q.sparesSlot then .past else .shut
  | _, _, _ => .shut

def next : Gate → Event → Gate
  | g, .asked q r => g.ask q r
  | .seen, .moved _ m => if m.leavesSlot then .slipped else .seen
  | g, _ => g

variable {g : Gate} {q : Request} {r : q.Answer} {number : Nat} {m : Worker.Move}

@[simp] theorem next_asked : g.next (.asked q r) = g.ask q r := by cases g <;> rfl

@[simp] theorem next_passed (ms : Nat) : g.next (.passed ms) = g := by cases g <;> rfl

@[simp] theorem ask_raced : raced.ask q r = .raced := by cases q <;> rfl

theorem ask_isArmed (hg : g ≠ .raced) : g.ask .isArmed true = .seen := by
  cases g <;> first | rfl | exact absurd rfl hg

theorem next_moved_of_stays (h : m.leavesSlot = false) : g.next (.moved number m) = g := by
  cases g <;> simp [next, h]

theorem next_moved_eq_raced : g.next (.moved number m) = .raced ↔ g = .raced := by
  cases g with
  | seen =>
    simp only [next]
    split <;> simp
  | _ => simp [next]

theorem ask_spared (hq : q.sparesSlot = true) :
    g.ask q r = if g = .raced ∨ g = .past then g else .shut := by
  cases q with
  | holdsWorker | letGoWorker | joinWorker | startWorker | isInProgress | isArmed | install
  | cancel | finish | rearm => cases hq
  | _ => cases g <;> rfl

theorem past_of_ask_raced (h : g.ask q r = .raced) (hg : g ≠ .raced) :
    g = .past ∧ ∃ transfer, q = .install transfer := by
  unfold ask at h
  split at h
  next => exact absurd rfl hg
  next => cases h
  next => cases h
  next transfer _ => exact ⟨rfl, transfer, rfl⟩
  next => split at h <;> cases h
  next => cases h

theorem ask_ne_raced (hg : g ≠ .raced) (hq : ∀ transfer, q ≠ .install transfer) :
    g.ask q r ≠ .raced := by
  intro hraced
  obtain ⟨-, transfer, hinstall⟩ := past_of_ask_raced hraced hg
  exact hq transfer hinstall

end Gate

variable {s s' : Scene} {g : Gate} {number : Nat} {m : Worker.Move} {t u : Scene × Gate}

/-- What workers and time do not disturb. -/
structure KeptByMoves (I : Scene → Gate → Prop) : Prop where
  move : ∀ {s s' g number m}, I s g → s.moveWorker? number m = some s' →
    I s' (g.next (.moved number m))
  same : ∀ {s s' g}, I s g → s.SameService s' → I s' g

/-- What questions about other things do not disturb either. -/
structure KeptBySpared (I : Scene → Gate → Prop) : Prop extends KeptByMoves I where
  spare : ∀ {s g} {q : Request} {r : q.Answer}, I s g → q.sparesSlot = true → I s (g.ask q r)

variable {I : Scene → Gate → Prop}

theorem KeptByMoves.drift (hI : KeptByMoves I) (ht : I t.1 t.2) (h : Drift Gate.next t u) :
    I u.1 u.2 :=
  h.keeps (I := fun t => I t.1 t.2) ht (fun _ _ _ _ _ hs hmove => hI.move hs hmove)
    fun s g ms hs => by
      rw [Gate.next_passed]
      exact hI.same hs ⟨rfl, rfl, rfl⟩

abbrev Unraced (P : Scene → Prop) (s : Scene) (g : Gate) : Prop := g ≠ .raced ∧ P s

theorem keptBySpared_unraced {P : Scene → Prop}
    (hmove : ∀ {s s' number m}, P s → s.moveWorker? number m = some s' → P s')
    (hsame : ∀ {s s'}, P s → s.SameService s' → P s') : KeptBySpared (Unraced P) where
  move h hworker := ⟨fun hraced => h.1 (Gate.next_moved_eq_raced.1 hraced), hmove h.2 hworker⟩
  same h hs := ⟨h.1, hsame h.2 hs⟩
  spare h hq := by
    refine ⟨Gate.ask_ne_raced h.1 ?_, h.2⟩
    rintro transfer rfl
    cases hq

/-- The slot is in order, and `Q` holds of the worker that the session holds. -/
def SoundWith (Q : Option Nat → Prop) (s : Scene) : Prop := Q s.held ∧ s.Sound

def Idle (Q : Option Nat → Prop) (s : Scene) : Prop :=
  SoundWith Q s ∧ s.shared.slot.handle = none

/-- The session has let go of worker `n`, and waits until it has left. -/
def Stopping (n : Nat) (s : Scene) : Prop := s.held = none ∧ (s.Attends n ∨ s.Retired)

def Left (held : Option Nat) (s : Scene) : Prop := s.held = held ∧ s.Retired

structure Rearmed (s : Scene) : Prop where
  held : s.held = none
  allGone : s.AllGone
  armed : s.shared.slot.armed = true
  handle : s.shared.slot.handle = none
  cancelled : s.shared.slot.cancelled = false

theorem left_of_fresh (hs : s.shared.slot = .fresh ∧ s.workers = [] ∧ s.held = none) :
    s.Left none := by
  obtain ⟨hslot, hworkers, hheld⟩ := hs
  refine ⟨hheld, fun i w hw => ?_, by rw [hslot]; rfl, by rw [hslot]; rfl⟩
  simp [hworkers] at hw

theorem Left.sound {held : Option Nat} (h : s.Left held) : s.Sound := by
  cases held with
  | none => exact .alone h.1 h.2
  | some n => exact .outlived n h.1 h.2

theorem Left.idle {held : Option Nat} (h : s.Left held) {Q : Option Nat → Prop} (hQ : Q held) :
    s.Idle Q := ⟨⟨h.1.symm ▸ hQ, h.sound⟩, h.2.handle⟩

theorem keptBySpared_soundWith (Q : Option Nat → Prop) : KeptBySpared (Unraced (SoundWith Q)) :=
  keptBySpared_unraced (fun h hmove => ⟨(held_of_moveWorker hmove).symm ▸ h.1, h.2.move hmove⟩)
    fun h hsame => ⟨hsame.held.symm ▸ h.1, h.2.same hsame⟩

theorem keptBySpared_idle (Q : Option Nat → Prop) : KeptBySpared (Unraced (Idle Q)) :=
  keptBySpared_unraced
    (fun h hmove => ⟨⟨(held_of_moveWorker hmove).symm ▸ h.1.1, h.1.2.move hmove⟩,
      handle_of_moveWorker hmove h.2⟩)
    fun h hsame => ⟨⟨hsame.held.symm ▸ h.1.1, h.1.2.same hsame⟩, hsame.slot ▸ h.2⟩

theorem Stopping.move {n : Nat} (h : s.Stopping n) (hmove : s.moveWorker? number m = some s') :
    s'.Stopping n := by
  refine ⟨(held_of_moveWorker hmove).trans h.1, ?_⟩
  rcases h.2 with hattends | hretired
  · rcases hattends.move hmove with ⟨-, hattends', -⟩ | ⟨-, -, hretired⟩
    · exact .inl hattends'
    · exact .inr hretired
  · exact .inr (hretired.move hmove).2

theorem Stopping.same {n : Nat} (h : s.Stopping n) (hsame : s.SameService s') : s'.Stopping n :=
  ⟨hsame.held.trans h.1, h.2.imp (·.same hsame) (·.same hsame)⟩

theorem Sound.letGo {n : Nat} (h : s.Sound) (hheld : s.held = some n) :
    Stopping n { s with held := none } := by
  refine ⟨rfl, ?_⟩
  cases h with
  | alone hnone => cases hheld.symm.trans hnone
  | attended n' hsome hattends =>
    obtain rfl := Option.some.inj (hheld.symm.trans hsome)
    exact .inl ⟨hattends.worker, hattends.others, hattends.armed⟩
  | outlived _ _ hretired => exact .inr ⟨hretired.allGone, hretired.armed, hretired.handle⟩

theorem Stopping.cancel {n : Nat} (h : s.Stopping n) :
    (s.withSlot s.shared.slot.cancel).Stopping n :=
  ⟨h.1, h.2.imp (·.cancel) fun h => ⟨h.allGone, h.armed, h.handle⟩⟩

theorem Stopping.join {n : Nat} {r : Unit} (h : s.Stopping n)
    (hperform : s.perform? (.joinWorker n) = some (r, s')) : s' = s ∧ s.Left none := by
  simp only [perform?] at hperform
  split at hperform
  next hended =>
    obtain ⟨-, rfl⟩ := Prod.mk.inj (Option.some.inj hperform)
    rcases h.2 with hattends | hretired
    · rw [hattends.hasEnded] at hended
      cases hended
    · exact ⟨rfl, h.1, hretired⟩
  next => cases hperform

theorem Left.finish {held : Option Nat} (h : s.Left held) :
    (s.withSlot s.shared.slot.finish).Left held := ⟨h.1, h.2.allGone, rfl, rfl⟩

theorem Retired.letGo (h : s.Retired) : Left none { s with held := none } :=
  ⟨rfl, h.allGone, h.armed, h.handle⟩

theorem keptBySpared_stopping (n : Nat) : KeptBySpared (Unraced (Stopping n)) :=
  keptBySpared_unraced (fun h hmove => h.move hmove) fun h hsame => h.same hsame

theorem keptBySpared_left (held : Option Nat) : KeptBySpared (Unraced (Left held)) :=
  keptBySpared_unraced (fun h hmove => ⟨(held_of_moveWorker hmove).trans h.1, (h.2.move hmove).2⟩)
    fun h hsame => ⟨hsame.held.trans h.1, h.2.same hsame⟩

theorem keptBySpared_rearmed : KeptBySpared (Unraced Rearmed) := by
  refine keptBySpared_unraced (fun h hmove => ?_) fun h hsame => ?_
  · obtain ⟨-, hallGone, hslot⟩ := h.allGone.move hmove
    exact ⟨(held_of_moveWorker hmove).trans h.held, hallGone, hslot ▸ h.armed, hslot ▸ h.handle,
      hslot ▸ h.cancelled⟩
  · exact ⟨hsame.held.trans h.held, h.allGone.same hsame, hsame.slot ▸ h.armed,
      hsame.slot ▸ h.handle, hsame.slot ▸ h.cancelled⟩

/-- After the first look: worker `n` attended the slot, and may have left it since. -/
structure Seen (n : Nat) (s : Scene) (g : Gate) : Prop where
  held : s.held = some n
  stands : g = .seen ∧ s.Attends n ∧ s.shared.slot.cancelled = false ∨ g = .slipped ∧ s.Retired

/-- After the second look: worker `n` waits for a transfer, or was missed as it left. -/
structure Ready (n : Nat) (s : Scene) (g : Gate) : Prop where
  held : s.held = some n
  stands : (g = .shut ∧ s.Attends n ∧ s.shared.slot.cancelled = false ∧
    s.shared.slot.handle = none) ∨ (g = .past ∧ s.Retired)

theorem Seen.sound {n : Nat} (h : Seen n s g) : s.Sound := by
  rcases h.stands with ⟨-, hattends, huncancelled⟩ | ⟨-, hretired⟩
  · exact .attended n h.held hattends huncancelled
  · exact .outlived n h.held hretired

theorem Ready.sound {n : Nat} (h : Ready n s g) : s.Sound := by
  rcases h.stands with ⟨-, hattends, huncancelled, -⟩ | ⟨-, hretired⟩
  · exact .attended n h.held hattends huncancelled
  · exact .outlived n h.held hretired

theorem Ready.handle {n : Nat} (h : Ready n s g) : s.shared.slot.handle = none := by
  rcases h.stands with ⟨-, -, -, hnone⟩ | ⟨-, hretired⟩
  · exact hnone
  · exact hretired.handle

theorem Ready.retired {n : Nat} (h : Ready n s .past) : s.Retired := by
  rcases h.stands with ⟨hgate, -⟩ | ⟨-, hretired⟩
  · cases hgate
  · exact hretired

theorem Ready.unraced {n : Nat} (h : Ready n s g) : g ≠ .raced := by
  rintro rfl
  rcases h.stands with ⟨hgate, -⟩ | ⟨hgate, -⟩ <;> cases hgate

theorem keptByMoves_seen (n : Nat) : KeptByMoves (Seen n) where
  move h hmove := by
    refine ⟨(held_of_moveWorker hmove).trans h.held, ?_⟩
    rcases h.stands with ⟨rfl, hattends, huncancelled⟩ | ⟨rfl, hretired⟩
    · rcases hattends.move hmove with ⟨hleaves, hattends', hanswers⟩ | ⟨hleaves, -, hretired⟩
      · exact .inl ⟨Gate.next_moved_of_stays hleaves, hattends',
          hanswers.cancelled.trans huncancelled⟩
      · exact .inr ⟨if_pos hleaves, hretired⟩
    · exact .inr ⟨rfl, (hretired.move hmove).2⟩
  same h hsame := by
    refine ⟨hsame.held.trans h.held, h.stands.imp (fun h => ?_) fun h => ?_⟩
    · exact ⟨h.1, h.2.1.same hsame, hsame.slot ▸ h.2.2⟩
    · exact ⟨h.1, h.2.same hsame⟩

theorem keptBySpared_ready (n : Nat) : KeptBySpared (Ready n) where
  move h hmove := by
    refine ⟨(held_of_moveWorker hmove).trans h.held, ?_⟩
    rcases h.stands with ⟨hgate, hattends, huncancelled, hfree⟩ | ⟨hgate, hretired⟩
    · rcases hattends.move hmove with ⟨hleaves, hattends', hanswers⟩ | ⟨-, hdone, -⟩
      · exact .inl ⟨(Gate.next_moved_of_stays hleaves).trans hgate, hattends',
          hanswers.cancelled.trans huncancelled, handle_of_moveWorker hmove hfree⟩
      · rw [huncancelled, Slot.inProgress, hfree] at hdone
        simp at hdone
    · obtain ⟨hleaves, hretired'⟩ := hretired.move hmove
      exact .inr ⟨(Gate.next_moved_of_stays hleaves).trans hgate, hretired'⟩
  same h hsame := by
    refine ⟨hsame.held.trans h.held, h.stands.imp (fun h => ?_) fun h => ?_⟩
    · exact ⟨h.1, h.2.1.same hsame, hsame.slot ▸ h.2.2.1, hsame.slot ▸ h.2.2.2⟩
    · exact ⟨h.1, h.2.same hsame⟩
  spare h hq := by
    refine ⟨h.held, h.stands.imp (fun h => ?_) fun h => ?_⟩
    · exact ⟨by rw [Gate.ask_spared hq, h.1]; rfl, h.2⟩
    · exact ⟨by rw [Gate.ask_spared hq, h.1]; rfl, h.2⟩

end Scene

end FtpServer
