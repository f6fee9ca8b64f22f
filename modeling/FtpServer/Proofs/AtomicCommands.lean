import FtpServer.Proofs.Authentication
import FtpServer.Proofs.DispatchCases

/-!
# Commands that no worker interrupts

Between two commands workers move as they like.  While a command is handled they move only where the
session waits: for the end of a worker, or for the control connection.
-/

namespace FtpServer

open Program Dialogue

/-- Questions that others may keep waiting. -/
def Request.waits : Request → Bool
  | .joinWorker _ | .lockControl => true
  | _ => false

theorem Request.waits_eq_false {q : Request} (hslot : q.sparesSlot = true)
    (hcontrol : q.sparesControl = true) : q.waits = false := by
  cases q <;> simp_all [waits, sparesSlot, sparesControl]

namespace Scene

variable {α : Type} {s s' t u : Scene} {p p' : Dialogue α} {q : Request}

theorem SameService.refl (s : Scene) : s.SameService s := ⟨rfl, rfl, rfl⟩

theorem SameService.trans (h : s.SameService t) (h' : t.SameService u) : s.SameService u :=
  ⟨h'.slot.trans h.slot, h'.workers.trans h.workers, h'.held.trans h.held⟩

theorem sameService_pass (s : Scene) (ms : Nat) : s.SameService (s.pass ms) := ⟨rfl, rfl, rfl⟩

/-- What happens without the session: workers move and time passes. -/
inductive WorkersMove (s : Scene) : Scene → Prop
  | refl : WorkersMove s s
  | worker {t u : Scene} (number : Nat) (m : Worker.Move) :
      WorkersMove s t → t.moveWorker? number m = some u → WorkersMove s u
  | time {t : Scene} (ms : Nat) : WorkersMove s t → WorkersMove s (t.pass ms)

theorem WorkersMove.keeps {I : Scene → Prop} (h : WorkersMove s t) (hs : I s)
    (hmove : ∀ {s s' number m}, I s → s.moveWorker? number m = some s' → I s')
    (hsame : ∀ {s s'}, I s → s.SameService s' → I s') : I t := by
  induction h with
  | refl => exact hs
  | worker number m _ hworker ih => exact hmove ih hworker
  | time ms _ ih => exact hsame ih (sameService_pass _ ms)

/-- A step of a run in which workers move only where the session waits. -/
inductive AtomicStep {α : Type} : Dialogue α × Scene → Dialogue α × Scene → Prop
  | session {q : Request} {next : q.Answer → Dialogue α} {s s' : Scene} {r : q.Answer}
      (h : s.perform? q = some (r, s')) : AtomicStep (.ask q next, s) (next r, s')
  | worker {q : Request} {next : q.Answer → Dialogue α} {s s' : Scene} (hwaits : q.waits = true)
      (number : Nat) (m : Worker.Move) (h : s.moveWorker? number m = some s') :
      AtomicStep (.ask q next, s) (.ask q next, s')
  | time {p : Dialogue α} {s : Scene} (ms : Nat) : AtomicStep (p, s) (p, s.pass ms)

inductive AtomicSteps {α : Type} : Dialogue α × Scene → Dialogue α × Scene → Prop
  | refl (c : Dialogue α × Scene) : AtomicSteps c c
  | tail {a b c : Dialogue α × Scene} : AtomicSteps a b → AtomicStep b c → AtomicSteps a c

theorem AtomicSteps.steps {a b : Dialogue α × Scene} (h : AtomicSteps a b) : Steps a b := by
  induction h with
  | refl => exact .refl a
  | tail _ hstep ih =>
    cases hstep with
    | session hanswer => exact ih.tail (.session hanswer)
    | worker _ number m hmove => exact ih.tail (.worker number m hmove)
    | time ms => exact ih.tail (.time ms)

theorem AtomicSteps.head {a b c : Dialogue α × Scene} (hstep : AtomicStep a b) (h : AtomicSteps b c) :
    AtomicSteps a c := by
  induction h with
  | refl => exact .tail (.refl a) hstep
  | tail _ hlast ih => exact .tail ih hlast

theorem atomicSteps_of_alone {x : α} (h : alone p s = some (x, s')) :
    AtomicSteps (p, s) (.done x, s') := by
  induction p generalizing s with
  | done a =>
    obtain ⟨rfl, rfl⟩ := Prod.mk.inj (Option.some.inj h)
    exact .refl _
  | ask q next ih =>
    simp only [alone] at h
    split at h
    next r s₁ hanswer => exact .head (.session hanswer) (ih r h)
    next => cases h

def moves? : List (Nat × Worker.Move) → Scene → Option Scene
  | [], s => some s
  | (number, m) :: rest, s => (s.moveWorker? number m).bind (moves? rest)

theorem WorkersMove.moves {moves : List (Nat × Worker.Move)} (h : WorkersMove s t)
    (hmoves : t.moves? moves = some u) : WorkersMove s u := by
  induction moves generalizing t with
  | nil => exact Option.some.inj hmoves ▸ h
  | cons move rest ih =>
    obtain ⟨v, hmove, hrest⟩ := Option.bind_eq_some_iff.1 hmoves
    exact ih (h.worker _ _ hmove) hrest

def MovesBefore (q : Request) (s t : Scene) : Prop :=
  if q.waits then WorkersMove s t else s.SameService t

theorem MovesBefore.refl (q : Request) (s : Scene) : MovesBefore q s s := by
  unfold MovesBefore
  split
  next => exact .refl
  next => exact SameService.refl s

theorem MovesBefore.time (h : MovesBefore q s t) (ms : Nat) : MovesBefore q s (t.pass ms) := by
  unfold MovesBefore at h ⊢
  split
  next hwaits =>
    rw [if_pos hwaits] at h
    exact h.time ms
  next hwaits =>
    rw [if_neg hwaits] at h
    exact h.trans (sameService_pass t ms)

theorem MovesBefore.worker (h : MovesBefore q s t) (hwaits : q.waits = true) {number : Nat}
    {m : Worker.Move}
    (hmove : t.moveWorker? number m = some u) : MovesBefore q s u := by
  unfold MovesBefore at h ⊢
  rw [if_pos hwaits] at h ⊢
  exact h.worker number m hmove

theorem MovesBefore.same (h : MovesBefore q s t) (hwaits : q.waits = false) : s.SameService t := by
  simpa [MovesBefore, hwaits] using h

theorem MovesBefore.keeps {I : Scene → Prop} (h : MovesBefore q s t) (hs : I s)
    (hmove : ∀ {s s' number m}, I s → s.moveWorker? number m = some s' → I s')
    (hsame : ∀ {s s'}, I s → s.SameService s' → I s') : I t := by
  unfold MovesBefore at h
  split at h
  next => exact h.keeps hs hmove hsame
  next => exact hsame hs h

/-- The rules that a command meets: others change the slot, workers or what is held only while it
waits. -/
def atomic : Rules Request.Answer Scene where
  drift s t := t = s
  answer q s r s' := ∃ t, MovesBefore q s t ∧ t.perform? q = some (r, s')
  guard _ _ := True

def MovesSince : Dialogue α → Scene → Scene → Prop
  | .ask q _ => MovesBefore q
  | .done _ => SameService

theorem movesSince_refl (p : Dialogue α) (s : Scene) : MovesSince p s s := by
  cases p with
  | done a => exact SameService.refl s
  | ask q next => exact MovesBefore.refl q s

theorem MovesSince.time (h : MovesSince p s t) (ms : Nat) : MovesSince p s (t.pass ms) := by
  cases p with
  | done a => exact SameService.trans h (sameService_pass t ms)
  | ask q next => exact MovesBefore.time h ms

theorem AtomicSteps.meets {post : α → Scene → Prop} (h : AtomicSteps (p, s) (p', s'))
    (hp : p.Meets atomic post s) : ∃ t, MovesSince p' t s' ∧ p'.Meets atomic post t := by
  generalize hb : (p', s') = b at h
  induction h generalizing p' s' with
  | refl =>
    obtain ⟨rfl, rfl⟩ := Prod.mk.inj hb
    exact ⟨s', movesSince_refl p' s', hp⟩
  | tail _ hstep ih =>
    subst hb
    cases hstep with
    | session hanswer =>
      obtain ⟨t, hsince, hrest⟩ := ih rfl
      obtain ⟨-, hnext⟩ := hrest t rfl
      exact ⟨s', movesSince_refl _ s', hnext _ s' ⟨_, hsince, hanswer⟩⟩
    | worker hwaits number m hmove =>
      obtain ⟨t, hsince, hrest⟩ := ih rfl
      exact ⟨t, MovesBefore.worker hsince hwaits hmove, hrest⟩
    | time ms =>
      obtain ⟨t, hsince, hrest⟩ := ih rfl
      exact ⟨t, hsince.time ms, hrest⟩

/-- Where an atomic run ends the postcondition holds, but for what is not about the service. -/
theorem AtomicSteps.result {post : α → Scene → Prop} {a : α} (h : AtomicSteps (p, s) (.done a, s'))
    (hp : p.Meets atomic post s) : ∃ t, t.SameService s' ∧ post a t :=
  h.meets hp

theorem atomic_question {post : α → Scene → Prop} {f : q.Answer → Dialogue α}
    (hwaits : q.waits = false)
    (h : ∀ t, s.SameService t → ∀ r s', t.perform? q = some (r, s') → (f r).Meets atomic post s') :
    (ask q done >>= f).Meets atomic post s := by
  rintro _ rfl
  refine ⟨trivial, fun r s' hanswer => ?_⟩
  obtain ⟨t, hbefore, hperform⟩ := hanswer
  exact h t (hbefore.same hwaits) r s' hperform

theorem atomic_wait {I : Scene → Prop} {post : α → Scene → Prop} {f : q.Answer → Dialogue α}
    (hmove : ∀ {s s' number m}, I s → s.moveWorker? number m = some s' → I s')
    (hsame : ∀ {s s'}, I s → s.SameService s' → I s') (hs : I s)
    (h : ∀ t, I t → ∀ r s', t.perform? q = some (r, s') → (f r).Meets atomic post s') :
    (ask q done >>= f).Meets atomic post s := by
  rintro _ rfl
  refine ⟨trivial, fun r s' hanswer => ?_⟩
  obtain ⟨t, hbefore, hperform⟩ := hanswer
  exact h t (hbefore.keeps hs hmove hsame) r s' hperform

/-- A program that asks about other things changes nothing of the service. -/
theorem atomic_spares {φ : α → Prop} (hp : Session.Spares φ p) :
    p.Meets atomic (fun a t => φ a ∧ s.SameService t) s := by
  refine Keeps.meets hp ?_ (fun q t hq ht => ⟨trivial, fun r u hanswer => ⟨trivial, ?_⟩⟩)
    (SameService.refl s)
  · rintro t _ ht rfl
    exact ht
  · obtain ⟨t', hbefore, hperform⟩ := hanswer
    have hbefore := hbefore.same (Request.waits_eq_false hq.1 hq.2)
    exact (ht.trans hbefore).trans (same_of_spared hq.1 hperform)

/-- A program that asks about other things, but may have to wait, keeps what workers keep. -/
theorem atomic_spared {I : Scene → Prop} {φ : α → Prop}
    (hp : p.Keeps (fun _ _ => True) (fun q => q.sparesSlot = true) φ) (hs : I s)
    (hmove : ∀ {s s' number m}, I s → s.moveWorker? number m = some s' → I s')
    (hsame : ∀ {s s'}, I s → s.SameService s' → I s') :
    p.Meets atomic (fun a t => φ a ∧ I t) s := by
  refine Keeps.meets hp ?_ (fun q t hq ht => ⟨trivial, fun r u hanswer => ⟨trivial, ?_⟩⟩) hs
  · rintro t _ ht rfl
    exact ht
  · obtain ⟨t', hbefore, hperform⟩ := hanswer
    exact hsame (hbefore.keeps ht hmove hsame) (same_of_spared hq hperform)

end Scene

namespace Session

/-- A history in which workers keep out of commands.  It goes on only while the session does. -/
inductive AtomicHistory (ctx : Context) (a : Client × Scene) :
    List Exchange → Client × Scene → Onward → Prop
  | start : AtomicHistory ctx a [] a .goOn
  | elapse {h : List Exchange} {c : Client} {s s' : Scene} {onward : Onward}
      (hbefore : AtomicHistory ctx a h (c, s) onward) (hmoves : Scene.WorkersMove s s') :
      AtomicHistory ctx a h (c, s') onward
  | next {h : List Exchange} {e : Exchange} {c c' : Client} {s s₁ s₂ : Scene} {onward : Onward}
      (hbefore : AtomicHistory ctx a h (c, s) .goOn)
      (hperform : Scene.AtomicSteps (perform ctx c e.command, s.judging e.verdict)
        (.done (c', e.outcome), s₁))
      (hdeliver : Scene.AtomicSteps (deliver c' e.command e.outcome, s₁) (.done onward, s₂)) :
      AtomicHistory ctx a (h ++ [e]) (c', s₂) onward

/-- The conversation in which each command is followed by some moves, and nobody moves meanwhile. -/
def scripted (ctx : Context) (verdict : String → String → Bool) :
    List (Command × List (Nat × Worker.Move)) → Client × Scene →
      Option (List Exchange × (Client × Scene))
  | [], b => some ([], b)
  | (command, moves) :: rest, (c, s) =>
    match Scene.alone (perform ctx c command) (s.judging verdict) with
    | some ((c', o), s₁) =>
      match Scene.alone (deliver c' command o) s₁ with
      | some (.goOn, s₂) =>
        match s₂.moves? moves with
        | some s₃ =>
          (scripted ctx verdict rest (c', s₃)).map fun (h, b) => (⟨command, o, verdict⟩ :: h, b)
        | none => none
      | _ => none
    | none => none

theorem AtomicHistory.scripted {ctx : Context} {verdict : String → String → Bool}
    {a b m : Client × Scene} {h h' : List Exchange}
    {script : List (Command × List (Nat × Worker.Move))} (hbefore : AtomicHistory ctx a h m .goOn)
    (hscript : Session.scripted ctx verdict script m = some (h', b)) :
    AtomicHistory ctx a (h ++ h') b .goOn := by
  induction script generalizing h h' m with
  | nil =>
    obtain ⟨rfl, rfl⟩ := Prod.mk.inj (Option.some.inj hscript)
    rw [List.append_nil]
    exact hbefore
  | cons line rest ih =>
    simp only [Session.scripted] at hscript
    split at hscript
    next c' o s₁ hperform =>
      split at hscript
      next s₂ hdeliver =>
        split at hscript
        next s₃ hmoves =>
          obtain ⟨⟨h'', b'⟩, hrest, heq⟩ := Option.map_eq_some_iff.1 hscript
          obtain ⟨rfl, rfl⟩ := Prod.mk.inj heq
          let e : Exchange := ⟨line.1, o, verdict⟩
          have hone : AtomicHistory ctx a (h ++ [e]) (c', s₂) .goOn :=
            hbefore.next (Scene.atomicSteps_of_alone hperform) (Scene.atomicSteps_of_alone hdeliver)
          have hthen := hone.elapse (Scene.WorkersMove.refl.moves hmoves)
          rw [List.append_cons]
          exact ih hthen hrest
        next => cases hscript
      next => cases hscript
    next => cases hscript

end Session

end FtpServer
