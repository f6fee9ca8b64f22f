import FtpServer.Proofs.Rules
import FtpServer.Scene

/-!
# Runs that are watched

A run tells what happened in it, event by event.  A monitor `next` folds the events into a value
that the scene itself does not hold, and what a session meets against a watched scene holds in
every state of every run.
-/

namespace FtpServer.Scene

open Program

inductive Event
  | asked (q : Request) (r : q.Answer)
  | moved (number : Nat) (m : Worker.Move)
  | passed (ms : Nat)

def pass (s : Scene) (ms : Nat) : Scene :=
  s.withShared { s.shared with clock := s.shared.clock + ms }

/-- A step with the event it tells. -/
inductive Tells {α : Type} : Dialogue α × Scene → Event → Dialogue α × Scene → Prop
  | session {q : Request} {next : q.Answer → Dialogue α} {s s' : Scene} {r : q.Answer}
      (h : s.perform? q = some (r, s')) : Tells (.ask q next, s) (.asked q r) (next r, s')
  | worker {p : Dialogue α} {s s' : Scene} (number : Nat) (m : Worker.Move)
      (h : s.moveWorker? number m = some s') : Tells (p, s) (.moved number m) (p, s')
  | time {p : Dialogue α} {s : Scene} (ms : Nat) : Tells (p, s) (.passed ms) (p, s.pass ms)

inductive Traced {α : Type} : Dialogue α × Scene → List Event → Dialogue α × Scene → Prop
  | refl (c : Dialogue α × Scene) : Traced c [] c
  | tail {a b c : Dialogue α × Scene} {τ : List Event} {e : Event} :
      Traced a τ b → Tells b e c → Traced a (τ ++ [e]) c

variable {α : Type} {a b c : Dialogue α × Scene} {τ : List Event} {e : Event}

theorem Tells.step (h : Tells a e b) : Step a b := by
  cases h with
  | session h => exact .session h
  | worker number m h => exact .worker number m h
  | time ms => exact .time ms

theorem Step.tells (h : Step a b) : ∃ e, Tells a e b := by
  cases h with
  | session h => exact ⟨_, .session h⟩
  | worker number m h => exact ⟨_, .worker number m h⟩
  | time ms => exact ⟨_, .time ms⟩

theorem Traced.steps (h : Traced a τ b) : Steps a b := by
  induction h with
  | refl => exact .refl a
  | tail _ htells ih => exact ih.tail htells.step

theorem Steps.traced (h : Steps a b) : ∃ τ, Traced a τ b := by
  induction h with
  | refl => exact ⟨[], .refl a⟩
  | tail _ hstep ih =>
    obtain ⟨τ, hτ⟩ := ih
    obtain ⟨e, htells⟩ := hstep.tells
    exact ⟨τ ++ [e], hτ.tail htells⟩

/-- Along a run, a program goes on keeping to what it keeps to, in a scene where it gets only allowed
answers and where `I` survives every step. -/
theorem Steps.keeps {allowed : (q : Request) → q.Answer → Prop} {guard : Request → Prop}
    {post : α → Prop} {I : Scene → Prop} {p p' : Dialogue α} {s s' : Scene}
    (h : Steps (p, s) (p', s')) (hp : p.Keeps allowed guard post) (hs : I s)
    (hask : ∀ q r s s', guard q → I s → s.perform? q = some (r, s') → allowed q r ∧ I s')
    (hmove : ∀ s s' number m, I s → s.moveWorker? number m = some s' → I s')
    (hpass : ∀ s ms, I s → I (s.pass ms)) : p'.Keeps allowed guard post ∧ I s' := by
  generalize hb : (p', s') = b at h
  induction h generalizing p' s' with
  | refl =>
    obtain ⟨rfl, rfl⟩ := Prod.mk.inj hb
    exact ⟨hp, hs⟩
  | tail _ hstep ih =>
    subst hb
    cases hstep with
    | @session q next s _ r hanswer =>
      obtain ⟨hkeeps, hI⟩ := ih rfl
      obtain ⟨hguard, hnext⟩ := (keeps_ask q next).1 hkeeps
      obtain ⟨hallowed, hI'⟩ := hask q r s s' hguard hI hanswer
      exact ⟨hnext r hallowed, hI'⟩
    | worker number m hworker =>
      obtain ⟨hkeeps, hI⟩ := ih rfl
      exact ⟨hkeeps, hmove _ s' number m hI hworker⟩
    | time ms =>
      obtain ⟨hkeeps, hI⟩ := ih rfl
      exact ⟨hkeeps, hpass _ ms hI⟩

/-- Along a run, a program goes on meeting what it meets in view of the scene. -/
theorem Steps.meets {S : Type} {R : Rules Request.Answer S} {post : α → S → Prop}
    {p p' : Dialogue α} {s s' : Scene} (view : Scene → S) (h : Steps (p, s) (p', s'))
    (hp : p.Meets R post (view s)) (hrefl : ∀ t, R.drift t t)
    (htrans : ∀ t u v, R.drift t u → R.drift u v → R.drift t v)
    (hask : ∀ q r s s', s.perform? q = some (r, s') → R.answer q (view s) r (view s'))
    (hmove : ∀ s s' number m, s.moveWorker? number m = some s' → R.drift (view s) (view s'))
    (hpass : ∀ s ms, R.drift (view s) (view (s.pass ms))) :
    ∃ t, R.drift t (view s') ∧ p'.Meets R post t := by
  generalize hb : (p', s') = b at h
  induction h generalizing p' s' with
  | refl =>
    obtain ⟨rfl, rfl⟩ := Prod.mk.inj hb
    exact ⟨view s', hrefl _, hp⟩
  | tail _ hstep ih =>
    subst hb
    obtain ⟨t, hdrift, hrest⟩ := ih rfl
    cases hstep with
    | session hanswer =>
      obtain ⟨-, hnext⟩ := hrest _ hdrift
      exact ⟨view s', hrefl _, hnext _ _ (hask _ _ _ _ hanswer)⟩
    | worker number m hworker => exact ⟨t, htrans _ _ _ hdrift (hmove _ _ _ _ hworker), hrest⟩
    | time ms => exact ⟨t, htrans _ _ _ hdrift (hpass _ ms), hrest⟩

theorem Traced.head (htells : Tells a e b) (h : Traced b τ c) : Traced a (e :: τ) c := by
  induction h with
  | refl => exact .tail (τ := []) (.refl a) htells
  | tail _ hlast ih => exact .tail ih hlast

theorem Traced.append {τ' : List Event} (hfirst : Traced a τ b) (hrest : Traced b τ' c) :
    Traced a (τ ++ τ') c := by
  induction hrest with
  | refl =>
    rw [List.append_nil]
    exact hfirst
  | tail _ htells ih =>
    rw [← List.append_assoc]
    exact ih.tail htells

section Monitors

variable {G : Type} (next : G → Event → G)

/-- What the workers and time can do while the session waits. -/
inductive Drift : Scene × G → Scene × G → Prop
  | refl (s : Scene × G) : Drift s s
  | worker {s : Scene × G} {t t' : Scene} {g : G} (number : Nat) (m : Worker.Move) :
      Drift s (t, g) → t.moveWorker? number m = some t' → Drift s (t', next g (.moved number m))
  | time {s : Scene × G} {t : Scene} {g : G} (ms : Nat) :
      Drift s (t, g) → Drift s (t.pass ms, next g (.passed ms))

/-- The scene as the surroundings of a session, watched by a monitor. -/
def watched (guard : Request → Scene × G → Prop) : Rules Request.Answer (Scene × G) where
  drift := Drift next
  answer q s r t := s.1.perform? q = some (r, t.1) ∧ t.2 = next s.2 (.asked q r)
  guard := guard

variable {next} {guard : Request → Scene × G → Prop} {post : α → Scene × G → Prop}
variable {I : Scene × G → Prop} {p p' : Dialogue α} {s s' : Scene} {g : G}

/-- What each single move and each passing of time keeps is kept while the session waits. -/
theorem Drift.keeps {t u : Scene × G} (h : Drift next t u) (ht : I t)
    (hworker : ∀ s s' g number m, I (s, g) → s.moveWorker? number m = some s' →
      I (s', next g (.moved number m)))
    (htime : ∀ s g ms, I (s, g) → I (s.pass ms, next g (.passed ms))) : I u := by
  induction h with
  | refl => exact ht
  | worker number m _ hmove ih => exact hworker _ _ _ number m ih hmove
  | time ms _ ih => exact htime _ _ ms ih

theorem Traced.meets (h : Traced (p, s) τ (p', s')) (hp : p.Meets (watched next guard) post (s, g)) :
    ∃ t, Drift next t (s', τ.foldl next g) ∧ p'.Meets (watched next guard) post t := by
  generalize hb : (p', s') = b at h
  induction h generalizing p' s' with
  | refl =>
    obtain ⟨rfl, rfl⟩ := Prod.mk.inj hb
    exact ⟨(s', g), .refl _, hp⟩
  | tail _ htells ih =>
    subst hb
    rw [List.foldl_append, List.foldl_cons, List.foldl_nil]
    cases htells with
    | session hanswer =>
      obtain ⟨t, hdrift, hrest⟩ := ih rfl
      obtain ⟨-, hnext⟩ := hrest _ hdrift
      exact ⟨_, .refl _, hnext _ (s', _) ⟨hanswer, rfl⟩⟩
    | worker number m hmove =>
      obtain ⟨t, hdrift, hrest⟩ := ih rfl
      exact ⟨t, .worker number m hdrift hmove, hrest⟩
    | time ms =>
      obtain ⟨t, hdrift, hrest⟩ := ih rfl
      exact ⟨t, .time ms hdrift, hrest⟩

theorem Traced.asked {q : Request} {k : q.Answer → Dialogue α} (h : Traced (p, s) τ (.ask q k, s'))
    (hp : p.Meets (watched next guard) post (s, g)) : guard q (s', τ.foldl next g) := by
  obtain ⟨t, hdrift, hrest⟩ := h.meets hp
  exact (hrest _ hdrift).1

end Monitors

end FtpServer.Scene
