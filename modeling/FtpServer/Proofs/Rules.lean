import FtpServer.Program
import FtpServer.Session.Request

/-!
# Programs in surroundings that follow rules

A program is run from a state that others may change whenever it is about to ask.  `Meets` says that
whatever they do and however they answer within the rules, every question is asked where it may be
asked and every result satisfies a postcondition.
-/

namespace FtpServer

namespace Program

/-- What a program may rely on and what it has to keep to, over states `S`. -/
structure Rules {Q : Type} (A : Q → Type) (S : Type) where
  /-- What others may do to the state before a question is answered. -/
  drift : S → S → Prop
  /-- The answers that a question can get in a state, and the state after each. -/
  answer : (q : Q) → S → A q → S → Prop
  /-- Where a question may be asked. -/
  guard : Q → S → Prop

variable {Q : Type} {A : Q → Type} {S α β : Type}

def Meets (R : Rules A S) (post : α → S → Prop) : Program A α → S → Prop
  | done a, s => post a s
  | ask q next, s => ∀ t, R.drift s t →
      R.guard q t ∧ ∀ r u, R.answer q t r u → (next r).Meets R post u

def Rules.free (allowed : (q : Q) → A q → Prop) (guard : Q → Prop) : Rules A Unit where
  drift _ _ := True
  answer q _ r _ := allowed q r
  guard q _ := guard q

/-- Whatever the allowed answers are, every question satisfies `guard` and every result `post`. -/
def Keeps (allowed : (q : Q) → A q → Prop) (guard : Q → Prop) (post : α → Prop)
    (p : Program A α) : Prop :=
  p.Meets (.free allowed guard) (fun a _ => post a) ()

variable {R : Rules A S} {post post' : α → S → Prop} {s : S}
variable {allowed : (q : Q) → A q → Prop} {guard : Q → Prop} {φ ψ : α → Prop}

@[simp] theorem meets_done (a : α) : (done a : Program A α).Meets R post s ↔ post a s := Iff.rfl

theorem meets_ask (q : Q) (next : A q → Program A α) :
    (ask q next).Meets R post s ↔ ∀ t, R.drift s t →
      R.guard q t ∧ ∀ r u, R.answer q t r u → (next r).Meets R post u := Iff.rfl

theorem meets_bind (p : Program A α) (f : α → Program A β) {post : β → S → Prop} :
    (p >>= f).Meets R post s ↔ p.Meets R (fun a t => (f a).Meets R post t) s := by
  induction p generalizing s with
  | done a => rfl
  | ask q next ih => simp only [ask_bind, meets_ask, ih]

theorem Meets.mono {p : Program A α} (h : p.Meets R post s)
    (hpost : ∀ a t, post a t → post' a t) : p.Meets R post' s := by
  induction p generalizing s with
  | done a => exact hpost a s h
  | ask q next ih =>
    intro t ht
    obtain ⟨hguard, hnext⟩ := h t ht
    exact ⟨hguard, fun r u hr => ih r (hnext r u hr)⟩

theorem Meets.bind {p : Program A α} {f : α → Program A β} {post : β → S → Prop}
    (hp : p.Meets R post' s) (hf : ∀ a t, post' a t → (f a).Meets R post t) :
    (p >>= f).Meets R post s :=
  (meets_bind p f).2 (hp.mono hf)

theorem meets_ask_of_stable {I : S → Prop} (hstable : ∀ t u, I t → R.drift t u → I u) (hs : I s)
    {q : Q} {next : A q → Program A α}
    (h : ∀ t, I t → R.guard q t ∧ ∀ r u, R.answer q t r u → (next r).Meets R post u) :
    (ask q next).Meets R post s :=
  fun t ht => h t (hstable s t hs ht)

@[simp] theorem keeps_done (a : α) : (done a : Program A α).Keeps allowed guard φ ↔ φ a := Iff.rfl

@[simp] theorem keeps_ask (q : Q) (next : A q → Program A α) :
    (ask q next).Keeps allowed guard φ ↔
      guard q ∧ ∀ r, allowed q r → (next r).Keeps allowed guard φ := by
  constructor
  · intro h
    obtain ⟨hguard, hnext⟩ := h () trivial
    exact ⟨hguard, fun r hr => hnext r () hr⟩
  · rintro ⟨hguard, hnext⟩ - -
    exact ⟨hguard, fun r _ hr => hnext r hr⟩

theorem keeps_bind (p : Program A α) (f : α → Program A β) {φ : β → Prop} :
    (p >>= f).Keeps allowed guard φ ↔ p.Keeps allowed guard fun a => (f a).Keeps allowed guard φ :=
  meets_bind p f

theorem Keeps.mono {p : Program A α} (h : p.Keeps allowed guard φ) (hφ : ∀ a, φ a → ψ a) :
    p.Keeps allowed guard ψ :=
  Meets.mono h fun a _ => hφ a

theorem Keeps.weaken {allowed' : (q : Q) → A q → Prop} {guard' : Q → Prop} {p : Program A α}
    (h : p.Keeps allowed guard φ) (hallowed : ∀ q r, allowed' q r → allowed q r)
    (hguard : ∀ q, guard q → guard' q) : p.Keeps allowed' guard' φ := by
  induction p with
  | done a => exact h
  | ask q next ih =>
    rw [keeps_ask] at h ⊢
    obtain ⟨hq, hnext⟩ := h
    exact ⟨hguard q hq, fun r hr => ih r (hnext r (hallowed q r hr))⟩

theorem Keeps.bind {p : Program A α} {f : α → Program A β} {ψ : β → Prop}
    (hp : p.Keeps allowed guard φ) (hf : ∀ a, φ a → (f a).Keeps allowed guard ψ) :
    (p >>= f).Keeps allowed guard ψ :=
  (keeps_bind p f).2 (hp.mono hf)

theorem Meets.and_keeps {p : Program A α} (h : p.Meets R post s)
    (hp : p.Keeps (fun _ _ => True) guard φ) : p.Meets R (fun a t => post a t ∧ φ a) s := by
  induction p generalizing s with
  | done a => exact ⟨h, hp⟩
  | ask q next ih =>
    intro t ht
    obtain ⟨hq, hnext⟩ := h t ht
    exact ⟨hq, fun r u hr => ih r (hnext r u hr) (((keeps_ask q next).1 hp).2 r trivial)⟩

theorem Keeps.question {q : Q} {f : A q → Program A α} (hq : guard q)
    (hf : ∀ r, allowed q r → (f r).Keeps allowed guard φ) :
    (ask q done >>= f).Keeps allowed guard φ :=
  (keeps_ask q f).2 ⟨hq, hf⟩

theorem Keeps.asks {p : Program A α} (h : p.Keeps allowed guard φ)
    (hall : ∀ q r, allowed q r) : p.Asks guard := by
  induction p with
  | done a => trivial
  | ask q next ih =>
    obtain ⟨hguard, hnext⟩ := (keeps_ask q next).1 h
    exact ⟨hguard, fun r => ih r (hnext r (hall q r))⟩

theorem Asks.mono {P P' : Q → Prop} {p : Program A α} (h : p.Asks P) (hP : ∀ q, P q → P' q) :
    p.Asks P' := by
  induction p with
  | done a => trivial
  | ask q next ih => exact ⟨hP q h.1, fun r => ih r (h.2 r)⟩

theorem Keeps.and_asks {P : Q → Prop} {p : Program A α} (h : p.Keeps allowed guard φ)
    (hp : p.Asks P) : p.Keeps allowed (fun q => guard q ∧ P q) φ := by
  induction p with
  | done a => exact h
  | ask q next ih =>
    rw [keeps_ask] at h ⊢
    exact ⟨⟨h.1, hp.1⟩, fun r hr => ih r (h.2 r hr) (hp.2 r)⟩

/-- What holds for all allowed answers holds in surroundings that give no others, together with
whatever they keep. -/
theorem Keeps.meets {I : S → Prop} {p : Program A α} (h : p.Keeps allowed guard φ)
    (hstable : ∀ t u, I t → R.drift t u → I u)
    (hask : ∀ q t, guard q → I t → R.guard q t ∧ ∀ r u, R.answer q t r u → allowed q r ∧ I u)
    (hs : I s) : p.Meets R (fun a t => φ a ∧ I t) s := by
  induction p generalizing s with
  | done a => exact ⟨h, hs⟩
  | ask q next ih =>
    obtain ⟨hguard, hnext⟩ := (keeps_ask q next).1 h
    refine meets_ask_of_stable hstable hs fun t ht => ?_
    obtain ⟨hq, hr⟩ := hask q t hguard ht
    refine ⟨hq, fun r u hu => ?_⟩
    obtain ⟨hallowed, hI⟩ := hr r u hu
    exact ih r (hnext r hallowed) hI

end Program

/-- The rules as calls on the host meet them. -/
def Program.Rules.files {S : Type} (R : Program.Rules Request.Answer S) :
    Program.Rules FileCall.Answer S where
  drift := R.drift
  answer call := R.answer (.file call)
  guard call := R.guard (.file call)

namespace Dialogue

variable {S α : Type}

theorem meets_ofFiles {R : Program.Rules Request.Answer S} {post : α → S → Prop} {s : S}
    (p : Files α) : (ofFiles p).Meets R post s ↔ p.Meets R.files post s := by
  induction p generalizing s with
  | done a => rfl
  | ask call next ih =>
    constructor
    · intro h t ht
      obtain ⟨hguard, hnext⟩ := h t ht
      exact ⟨hguard, fun r u hr => (ih r).1 (hnext r u hr)⟩
    · intro h t ht
      obtain ⟨hguard, hnext⟩ := h t ht
      exact ⟨hguard, fun r u hr => (ih r).2 (hnext r u hr)⟩

theorem asks_ofFiles {P : Request → Prop} {p : Files α} (h : p.Asks fun call => P (.file call)) :
    (ofFiles p).Asks P := by
  induction p with
  | done a => trivial
  | ask call next ih => exact ⟨h.1, fun r => ih r (h.2 r)⟩

theorem keeps_ofFiles {allowed : (q : Request) → q.Answer → Prop} {guard : Request → Prop}
    {φ : α → Prop} (p : Files α) :
    (ofFiles p).Keeps allowed guard φ ↔
      p.Keeps (fun call => allowed (.file call)) (fun call => guard (.file call)) φ :=
  meets_ofFiles p

end Dialogue

end FtpServer
