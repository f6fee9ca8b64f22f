import FtpServer.Proofs.Trace

/-!
# Chosen runs

A run is replayed from the choices of who takes the next step.  What the host says of a place can be
taken from what is known of it.
-/

namespace FtpServer.Scene

variable {α : Type} {a b : Dialogue α × Scene} {τ : List Event} {e : Event}

inductive Choice
  | session
  | worker (number : Nat) (m : Worker.Move)
  | time (ms : Nat)
  deriving DecidableEq, Repr

/-- Ways to answer, each at most as the scene does. -/
structure Answers where
  answer? : Scene → (q : Request) → Option (q.Answer × Scene)
  faithful : ∀ s q r, answer? s q = some r → s.perform? q = some r

def plainly : Answers := ⟨perform?, fun _ _ _ h => h⟩

/-- As the scene does, where only one place is ever looked at and only while the tree is `t`. -/
def knowing (t : Tree) (p : Place) (kind : Kind) (h : t.look p = .ok kind) : Answers where
  answer?
    | s, .file (.look place) =>
      if place = p ∧ s.shared.tree = t then some (.ok kind, s) else none
    | s, q => s.perform? q
  faithful s q r hanswer := by
    split at hanswer
    next place =>
      split at hanswer
      next hknown =>
        obtain ⟨rfl, rfl⟩ := hknown
        rw [← hanswer, ← h]
        rfl
      next => cases hanswer
    next => exact hanswer

variable {answers : Answers}

def choose? (answers : Answers) (choice : Choice) :
    Dialogue α × Scene → Option (Event × (Dialogue α × Scene))
  | (p, s) =>
    match choice, p with
    | .session, .ask q next =>
      (answers.answer? s q).map fun (r, s') => (.asked q r, (next r, s'))
    | .session, .done _ => none
    | .worker number m, p => (s.moveWorker? number m).map fun s' => (.moved number m, (p, s'))
    | .time ms, p => some (.passed ms, (p, s.pass ms))

/-- The run that takes the steps as they are chosen, with what happened in it. -/
def replay (answers : Answers) :
    List Choice → Dialogue α × Scene → Option (List Event × (Dialogue α × Scene))
  | [], c => some ([], c)
  | choice :: rest, c =>
    match choose? answers choice c with
    | some (e, c) => (replay answers rest c).map fun (τ, c) => (e :: τ, c)
    | none => none

theorem tells_of_choose {choice : Choice} (h : choose? answers choice a = some (e, b)) :
    Tells a e b := by
  obtain ⟨p, s⟩ := a
  cases choice with
  | session =>
    cases p with
    | done => cases h
    | ask q next =>
      obtain ⟨⟨r, s'⟩, hanswer, heq⟩ := Option.map_eq_some_iff.1 h
      obtain ⟨rfl, rfl⟩ := Prod.mk.inj heq
      exact .session (answers.faithful s q _ hanswer)
  | worker number m =>
    obtain ⟨s', hmove, heq⟩ := Option.map_eq_some_iff.1 h
    obtain ⟨rfl, rfl⟩ := Prod.mk.inj heq
    exact .worker number m hmove
  | time ms =>
    obtain ⟨rfl, rfl⟩ := Prod.mk.inj (Option.some.inj h)
    exact .time ms

theorem traced_of_replay {choices : List Choice} (h : replay answers choices a = some (τ, b)) :
    Traced a τ b := by
  induction choices generalizing a τ with
  | nil =>
    obtain ⟨rfl, rfl⟩ := Prod.mk.inj (Option.some.inj h)
    exact .refl a
  | cons choice rest ih =>
    simp only [replay] at h
    split at h
    next e c hchoose =>
      obtain ⟨⟨σ, d⟩, hrest, heq⟩ := Option.map_eq_some_iff.1 h
      obtain ⟨rfl, rfl⟩ := Prod.mk.inj heq
      exact .head (tells_of_choose hchoose) (ih hrest)
    next => cases h

/-- The same, with all that can be checked of where the run ends. -/
theorem traced_of_any {choices : List Choice} {test : List Event × (Dialogue α × Scene) → Bool}
    (h : (replay answers choices a).any test = true) :
    ∃ τ b, Traced a τ b ∧ test (τ, b) = true := by
  obtain ⟨⟨τ, b⟩, hreplay, htest⟩ := (Option.any_eq_true ..).1 h
  exact ⟨τ, b, traced_of_replay hreplay, htest⟩

/-- The run in which nobody moves but the session, unless it would have to wait. -/
def alone : Dialogue α → Scene → Option (α × Scene)
  | .done a, s => some (a, s)
  | .ask q next, s =>
    match s.perform? q with
    | some (r, s) => alone (next r) s
    | none => none

theorem steps_of_alone {p : Dialogue α} {x : α} {s s' : Scene} (h : alone p s = some (x, s')) :
    Steps (p, s) (.done x, s') := by
  induction p generalizing s with
  | done a =>
    obtain ⟨rfl, rfl⟩ := Prod.mk.inj (Option.some.inj h)
    exact .refl _
  | ask q next ih =>
    simp only [alone] at h
    split at h
    next r s₁ hanswer =>
      obtain ⟨τ, hτ⟩ := (ih r h).traced
      exact (hτ.head (.session hanswer)).steps
    next => cases h

def recite : Dialogue α → Scene → Option (List Event × (α × Scene))
  | .done a, s => some ([], (a, s))
  | .ask q next, s =>
    match s.perform? q with
    | some (r, s) => (recite (next r) s).map fun (τ, b) => (.asked q r :: τ, b)
    | none => none

theorem traced_of_recite {p : Dialogue α} {x : α} {s s' : Scene}
    (h : recite p s = some (τ, (x, s'))) : Traced (p, s) τ (.done x, s') := by
  induction p generalizing s τ with
  | done a =>
    simp only [recite, Option.some.injEq, Prod.mk.injEq] at h
    obtain ⟨rfl, rfl, rfl⟩ := h
    exact .refl _
  | ask q next ih =>
    simp only [recite] at h
    split at h
    next r s₁ hanswer =>
      obtain ⟨⟨σ, b⟩, hrest, heq⟩ := Option.map_eq_some_iff.1 h
      obtain ⟨rfl, rfl⟩ := Prod.mk.inj heq
      exact (ih r hrest).head (.session hanswer)
    next => cases h

theorem not_moved_of_recite {p : Dialogue α} {s : Scene} {b : α × Scene}
    (h : recite p s = some (τ, b)) (number : Nat) (m : Worker.Move) : .moved number m ∉ τ := by
  induction p generalizing s τ with
  | done a =>
    simp only [recite, Option.some.injEq, Prod.mk.injEq] at h
    simp [← h.1]
  | ask q next ih =>
    simp only [recite] at h
    split at h
    next r s₁ hanswer =>
      obtain ⟨⟨σ, b'⟩, hrest, heq⟩ := Option.map_eq_some_iff.1 h
      obtain ⟨rfl, rfl⟩ := Prod.mk.inj heq
      simpa using ih r hrest
    next => cases h

def loopback : Socket := ⟨.v4 ⟨127, 0, 0, 1⟩, 50000, 0⟩

/-- The server as it comes, with its root at `root`. -/
def usualContext (root : String) : Session.Context := ⟨{}, root, loopback⟩

end FtpServer.Scene
