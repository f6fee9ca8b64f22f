import FtpServer.Proofs.SlotRules

/-!
# An empty slot

Nothing but the installing of a transfer fills the slot, `PORT` and `PASV` are not refused while it
is empty, and it is after `ABOR`, after `QUIT` and at the end of a session.
-/

namespace FtpServer

open Program Dialogue Scene

namespace Scene

variable {α : Type} {s s' : Scene} {τ : List Event}

def Event.installs : Event → Bool
  | .asked (.install _) _ => true
  | _ => false

theorem handle_of_tells {a b : Dialogue α × Scene} {e : Event} (htells : Tells a e b)
    (he : e.installs = false) (ha : a.2.shared.slot.handle = none) :
    b.2.shared.slot.handle = none := by
  cases htells with
  | session hanswer =>
    rcases handle_of_perform hanswer with hsame | ⟨-, hnone⟩ | ⟨transfer, rfl⟩
    · exact hsame.trans ha
    · exact hnone
    · cases he
  | worker number m hmove => exact handle_of_moveWorker hmove ha
  | time ms => exact ha

theorem handle_of_traced {a b : Dialogue α × Scene} (h : Traced a τ b)
    (hτ : ∀ e ∈ τ, e.installs = false) (ha : a.2.shared.slot.handle = none) :
    b.2.shared.slot.handle = none := by
  induction h with
  | refl => exact ha
  | tail _ htells ih =>
    refine handle_of_tells htells (hτ _ (by simp)) (ih fun e he => hτ e ?_)
    exact List.mem_append_left _ he

end Scene

namespace Session

variable {ctx : Context} {c : Client} {α : Type} {s s' : Scene} {g : Gate}

def neverInProgress : (q : Request) → q.Answer → Prop
  | .isInProgress, busy => busy = false
  | _, _ => True

abbrev NotBusy (r : Client × Outcome) : Prop := r.2.reply.map Reply.code ≠ some 503

theorem Timely.notBusy {r : Client × Outcome} (h : Timely neverInProgress (fun _ => True) r) :
    NotBusy r := by
  intro hrefused
  cases h.2 hrefused

/-- What is only about workers finds the slot empty and leaves it so. -/
theorem Works.steps {post : α → Prop} {p : Dialogue α} (hp : Works neverInProgress post p)
    (hs : s.shared.slot.handle = none) {a : α} (h : Steps (p, s) (.done a, s')) : post a := by
  have hkeeps := h.keeps (I := fun s => s.shared.slot.handle = none) hp hs
    (fun q r s s' hq hs hanswer => ?_) (fun _ _ _ _ hs hmove => handle_of_moveWorker hmove hs)
    fun _ _ hs => hs
  · exact hkeeps.1
  · refine ⟨?_, ?_⟩
    · cases q with
      | isInProgress =>
        obtain ⟨rfl, -⟩ := Prod.mk.inj (Option.some.inj hanswer)
        exact Slot.inProgress_eq_false.2 hs
      | _ => trivial
    · rcases handle_of_perform hanswer with hsame | ⟨-, hnone⟩ | ⟨transfer, hinstall⟩
      · exact hsame.trans hs
      · exact hnone
      · rw [hinstall] at hq
        cases hq

/-- Nothing is in progress, and as long as nothing is installed neither `PORT` nor `PASV` is refused
on account of a transfer. -/
structure Cleared (ctx : Context) (p : Dialogue α) (s : Scene) : Prop where
  handle : s.shared.slot.handle = none
  stays : ∀ τ p' s', Traced (p, s) τ (p', s') → (∀ e ∈ τ, e.installs = false) →
    s'.shared.slot.handle = none ∧ ∀ c r s'',
      Steps (onPasv ctx c, s') (.done r, s'') ∨
        (∃ argument, Steps (onPort c argument, s') (.done r, s'')) → NotBusy r

theorem cleared_of_handle {p : Dialogue α} (hs : s.shared.slot.handle = none) :
    Cleared ctx p s where
  handle := hs
  stays τ p' s' hrun hτ := by
    have hs' := handle_of_traced hrun hτ hs
    refine ⟨hs', fun c r s'' hcommand => ?_⟩
    rcases hcommand with hpasv | ⟨argument, hport⟩
    · exact ((onPasv_works (fun _ _ => trivial) trivial ctx).steps hs' hpasv).notBusy
    · exact ((onPort_works (fun _ _ => trivial) trivial argument).steps hs' hport).notBusy

/-- What is done at `ABOR`, at `QUIT` and at the end of a session. -/
inductive EndsTransfers : {α : Type} → Dialogue α → Prop
  | abor (c : Client) : EndsTransfers (onAbor c)
  | quit (c : Client) : EndsTransfers (onQuit c)
  | close (c : Client) : EndsTransfers (close c)

theorem EndsTransfers.slotSafe {d : Dialogue α} (hd : EndsTransfers d) {Q : Option Nat → Prop}
    (hs : Unraced (SoundWith Q) s g) :
    SlotSafe (fun _ s g => Unraced (Idle fun _ => True) s g) d s g := by
  have hidle : ∀ {s g}, Unraced (Left none) s g → Unraced (Idle fun _ => True) s g :=
    fun hleft => ⟨hleft.1, hleft.2.idle trivial⟩
  cases hd with
  | abor c =>
    refine (onAbor_slotSafe hs).mono fun r s g ⟨_, hr⟩ => ?_
    rcases hr with ⟨-, hg, ⟨-, hsound⟩, hnone⟩ | ⟨-, hleft⟩
    · exact ⟨hg, ⟨trivial, hsound⟩, hnone⟩
    · exact hidle hleft
  | quit c => exact (onQuit_slotSafe hs).mono fun _ _ _ hr => hidle hr.2.2
  | close c => exact (close_slotSafe hs).mono fun _ _ _ hleft => hidle hleft

/-- The first question is one that is asked where the slot is in order. -/
theorem EndsTransfers.asks {d : Dialogue α} (hd : EndsTransfers d) :
    ∃ q f, d = .ask q f ∧ (q = .isInProgress ∨ q = .letGoWorker) := by
  cases hd with
  | abor => exact ⟨_, _, rfl, .inl rfl⟩
  | quit | close => exact ⟨_, _, rfl, .inr rfl⟩

theorem EndsTransfers.handle {d : Dialogue α} (hd : EndsTransfers d)
    (hs : Unraced (SoundWith fun _ => True) s g) {a : α} (h : Steps (d, s) (.done a, s')) :
    s'.shared.slot.handle = none := by
  obtain ⟨τ, hτ⟩ := h.traced
  obtain ⟨t, hdrift, hpost⟩ := hτ.meets (hd.slotSafe hs)
  exact ((keptBySpared_idle _).drift hpost hdrift).2.2

end Session

end FtpServer
