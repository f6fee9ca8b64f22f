import FtpServer.Proofs.Confinement
import FtpServer.Proofs.DispatchCases
import FtpServer.Proofs.Trace

/-!
# What an `ABOR` goes through

An `ABOR` looks whether a transfer is in progress, lets go of its worker, cancels it and waits for
its end.  The monitor below notices a worker that leaves the slot between the look and the
cancelling.  Only an `ABOR` that has gone through all this says that it aborted a transfer.
-/

namespace FtpServer

open Program Dialogue

namespace Scene

inductive Abort
  | idle
  /-- A transfer was found to be in progress; a worker may have left the slot since. -/
  | found (late : Bool)
  /-- The worker was let go of. -/
  | letGo (late : Bool)
  /-- There was no worker. -/
  | nobody
  /-- The worker was cancelled. -/
  | stopped (late : Bool)
  deriving DecidableEq, Repr

namespace Abort

def ask : Abort → (q : Request) → q.Answer → Abort
  | _, .isInProgress, true => .found false
  | .found late, .letGoWorker, some _ => .letGo late
  | .found _, .letGoWorker, none => .nobody
  | .letGo late, .cancel, _ => .stopped late
  | .stopped late, .joinWorker _, _ => .stopped late
  | .stopped late, .finish, _ => .stopped late
  | .stopped late, .note _, _ => .stopped late
  | .nobody, .note _, _ => .nobody
  | .stopped late, .lockControl, _ => .stopped late
  | .nobody, .lockControl, _ => .nobody
  | _, _, _ => .idle

def next : Abort → Event → Abort
  | h, .asked q r => h.ask q r
  | .found late, .moved _ m => .found (late || m.leavesSlot)
  | .letGo late, .moved _ m => .letGo (late || m.leavesSlot)
  | h, _ => h

def HasAborted (h : Abort) : Prop := h = .nobody ∨ ∃ late, h = .stopped late

variable {h : Abort} {number : Nat} {m : Worker.Move}

@[simp] theorem next_asked (q : Request) (r : q.Answer) : h.next (.asked q r) = h.ask q r := by
  cases h <;> rfl

@[simp] theorem next_passed (ms : Nat) : h.next (.passed ms) = h := by cases h <;> rfl

theorem HasAborted.move (hdone : h.HasAborted) : (h.next (.moved number m)).HasAborted := by
  rcases hdone with rfl | ⟨late, rfl⟩
  · exact .inl rfl
  · exact .inr ⟨late, rfl⟩

theorem HasAborted.note (hdone : h.HasAborted) {record : Record} :
    (h.ask (.note record) ()).HasAborted := by
  rcases hdone with rfl | ⟨late, rfl⟩
  · exact .inl rfl
  · exact .inr ⟨late, rfl⟩

theorem HasAborted.lock (hdone : h.HasAborted) : (h.ask .lockControl ()).HasAborted := by
  rcases hdone with rfl | ⟨late, rfl⟩
  · exact .inl rfl
  · exact .inr ⟨late, rfl⟩

end Abort

/-- An `ABOR` has cancelled a worker only after one had left the slot, since it looked. -/
def TooLate (τ : List Event) : Prop := τ.foldl Abort.next .idle = .stopped true

instance (τ : List Event) : Decidable (TooLate τ) := inferInstanceAs (Decidable (_ = _))

/-- The code of the reply to an `ABOR` that aborted a transfer is kept for it. -/
def aborting : Rules Request.Answer (Scene × Abort) :=
  watched Abort.next fun q t =>
    ∀ reply, q = .writeReply reply → reply.code = 226 → t.2.HasAborted

end Scene

def Request.WritesNo226 (q : Request) : Prop := ∀ reply, q = .writeReply reply → reply.code ≠ 226

namespace Session

open Scene

variable {ctx : Context} {c : Client} {α β : Type} {s s' : Scene} {h : Abort} {I : Abort → Prop}

/-- The dialogue says that it aborted a transfer only where it did, and its result satisfies
`post`. -/
abbrev Aborts (post : α → Abort → Prop) (p : Dialogue α) (s : Scene) (h : Abort) : Prop :=
  p.Meets aborting (fun a t => post a t.2) (s, h)

variable {post : α → Abort → Prop}

theorem writesNo226_of_precedesReply {q : Request} (hq : Request.PrecedesReply q) :
    q.WritesNo226 := by
  rintro reply rfl
  cases hq.1

theorem Aborts.bind {p : Dialogue α} {f : α → Dialogue β} {post' : β → Abort → Prop}
    (hp : Aborts post p s h) (hf : ∀ a s h, post a h → Aborts post' (f a) s h) :
    Aborts post' (p >>= f) s h :=
  Meets.bind hp fun a t ha => hf a t.1 t.2 ha

/-- A single question that is asked while `I` holds, which no worker disturbs. -/
theorem Aborts.question (hI : ∀ h number m, I h → I (h.next (.moved number m))) (hs : I h)
    {q : Request} {f : q.Answer → Dialogue α}
    (hq : ∀ h, I h → ∀ reply, q = .writeReply reply → reply.code = 226 → h.HasAborted)
    (hf : ∀ h, I h → ∀ r s, Aborts post (f r) s (h.ask q r)) :
    Aborts post (ask q done >>= f) s h := by
  refine meets_ask_of_stable (I := fun t : Scene × Abort => I t.2) (fun t u ht hdrift => ?_) hs
    fun t ht => ⟨hq t.2 ht, fun r u hu => ?_⟩
  · refine hdrift.keeps (I := fun t : Scene × Abort => I t.2) ht ?_ fun s h ms hs => ?_
    · exact fun s s' h number m hs _ => hI h number m hs
    · rw [Abort.next_passed]
      exact hs
  · obtain ⟨s', h'⟩ := u
    obtain ⟨-, rfl⟩ := hu
    rw [Abort.next_asked]
    exact hf t.2 ht r s'

theorem Aborts.writesNo226_question (hI : ∀ h number m, I h → I (h.next (.moved number m))) (hs : I h)
    {q : Request} {f : q.Answer → Dialogue α} (hq : q.WritesNo226)
    (hf : ∀ h, I h → ∀ r s, Aborts post (f r) s (h.ask q r)) :
    Aborts post (ask q done >>= f) s h :=
  .question hI hs (fun _ _ reply hreply hcode => absurd hcode (hq reply hreply)) hf

theorem Aborts.of_writesNo226 {φ : α → Prop} {p : Dialogue α}
    (hp : p.Keeps (fun _ _ => True) Request.WritesNo226 φ) : Aborts (fun a _ => φ a) p s h := by
  refine Meets.mono (Keeps.meets (I := fun _ => True) hp (fun _ _ _ _ => trivial) ?_ trivial)
    fun _ _ ha => ha.1
  exact fun q t hq _ => ⟨fun reply hreply hcode => absurd hcode (hq reply hreply),
    fun _ _ _ => ⟨trivial, trivial⟩⟩

theorem Aborts.of_precedesReply {φ : α → Prop} {p : Dialogue α} (hp : PrecedesReply φ p) :
    Aborts (fun a _ => φ a) p s h :=
  .of_writesNo226 (hp.weaken (fun _ _ hr => hr) fun _ => writesNo226_of_precedesReply)

abbrev Tells226 (r : Client × Outcome) (h : Abort) : Prop :=
  ∀ reply, r.2.reply = some reply → reply.code = 226 → h.HasAborted

theorem endWorker_aborts (c : Client) (number : Nat) {late : Bool} (hs : h = .letGo late) :
    Aborts (fun _ h => h.HasAborted)
      (do cancel; joinWorker number; finish; return c.withMode .none) s h := by
  have hstill : ∀ (h : Abort) (n : Nat) (m : Worker.Move), (∃ late, h = .stopped late) →
      ∃ late, h.next (.moved n m) = .stopped late := by
    rintro h n m ⟨late, rfl⟩
    exact ⟨late, rfl⟩
  refine Aborts.writesNo226_question (I := fun h => ∃ late, h = .letGo late) ?_ ⟨late, hs⟩
    (by simp [Request.WritesNo226]) fun h hs _ s => ?_
  · rintro h n m ⟨late, rfl⟩
    exact ⟨_, rfl⟩
  have hcancelled : ∃ late, h.ask .cancel () = .stopped late := by
    obtain ⟨late, rfl⟩ := hs
    exact ⟨late, rfl⟩
  refine Aborts.writesNo226_question hstill hcancelled (by simp [Request.WritesNo226])
    fun h hs _ s => ?_
  have hjoined : ∃ late, h.ask (.joinWorker number) () = .stopped late := by
    obtain ⟨late, rfl⟩ := hs
    exact ⟨late, rfl⟩
  refine Aborts.writesNo226_question hstill hjoined (by simp [Request.WritesNo226]) fun h hs _ s => ?_
  obtain ⟨late, rfl⟩ := hs
  exact .inr ⟨late, rfl⟩

theorem stopWorker_aborts (c : Client) {late : Bool} (hs : h = .found late) :
    Aborts (fun _ h => h.HasAborted) (stopWorker c) s h := by
  refine Aborts.writesNo226_question (I := fun h => ∃ late, h = .found late) ?_ ⟨late, hs⟩
    (by simp [Request.WritesNo226]) fun h hs (held : Option Nat) s => ?_
  · rintro h n m ⟨late, rfl⟩
    exact ⟨_, rfl⟩
  obtain ⟨late, rfl⟩ := hs
  cases held with
  | none => exact .inl rfl
  | some number => exact endWorker_aborts c number rfl

theorem onAbor_aborts (c : Client) : Aborts Tells226 (onAbor c) s h := by
  refine Aborts.writesNo226_question (I := fun _ => True) (fun _ _ _ _ => trivial) trivial
    (by simp [Request.WritesNo226]) fun h _ (busy : Bool) s => ?_
  cases busy with
  | false => exact fun reply hreply hcode => by cases hreply; cases hcode
  | true =>
    have hfound : h.ask .isInProgress true = .found false := by cases h <;> rfl
    refine (stopWorker_aborts c hfound).bind fun c s h hdone => ?_
    exact Aborts.writesNo226_question (fun _ _ _ => Abort.HasAborted.move) hdone
      (by simp [Request.WritesNo226])
      fun h hdone _ _ _ _ _ => hdone.note

theorem perform_aborts (ctx : Context) (hc : c.IsPlain) (command : Command) :
    Aborts Tells226 (perform ctx c command) s h := by
  refine (Aborts.of_precedesReply (note_precedesReply _)).bind fun _ s h _ => ?_
  have htame : ∀ {step : Step}, PrecedesReply Unaborted step → Aborts Tells226 step s h :=
    fun hstep =>
    Meets.mono (Aborts.of_precedesReply hstep) fun r _ hr reply hreply hcode =>
      absurd hcode (hr.tame reply hreply)
  unfold handle
  split
  next =>
    have hrefused : PrecedesReply Unaborted (.done (c, loginFirst)) :=
      (Outcome.isAnswer_failure (by decide) _).isUnaborted
    exact htame hrefused
  next =>
    by_cases hcommand : command = .abor
    · subst hcommand
      exact onAbor_aborts c
    · exact htame ((dispatch_cases ctx hc command).precedesReply_of_ne_abor hc hcommand)

theorem send_aborts (reply : Reply) (hs : reply.code = 226 → h.HasAborted) :
    Aborts (fun _ _ => True) (send reply) s h := by
  have hstill : ∀ (h : Abort) (n : Nat) (m : Worker.Move), (reply.code = 226 → h.HasAborted) →
      reply.code = 226 → (h.next (.moved n m)).HasAborted :=
    fun h n m hs hcode => (hs hcode).move
  refine Aborts.writesNo226_question hstill hs (by simp [Request.WritesNo226]) fun h hs _ s => ?_
  refine Aborts.question hstill (fun hcode => (hs hcode).lock) (fun h hs reply' hreply hcode => ?_)
    fun h hs result s => ?_
  · cases hreply
    exact hs hcode
  · exact Aborts.of_writesNo226 (Keeps.question (by simp [Request.WritesNo226]) fun _ _ => trivial)

theorem deliver_aborts (c : Client) (command : Command) {o : Outcome} (hs : Tells226 (c, o) h) :
    Aborts (fun _ _ => True) (deliver c command o) s h := by
  have hsent : Aborts (fun _ _ => True) (sendOutcome c o) s h := by
    unfold sendOutcome
    cases hreply : o.reply with
    | none => trivial
    | some reply =>
      refine (send_aborts reply (hs reply hreply)).bind fun result s h _ => ?_
      split
      next => trivial
      next => exact Aborts.of_precedesReply (note_precedesReply _ |>.bind fun _ _ => trivial)
  have hconclude : (conclude c command o.status).Keeps (fun _ _ => True) Request.WritesNo226
      fun _ => True := by
    cases o.status with
    | success => trivial
    | failure | close => exact Keeps.question (by simp [Request.WritesNo226]) fun _ _ => trivial
  refine hsent.bind fun onward s h _ => ?_
  cases onward with
  | stop => trivial
  | goOn =>
    cases o.transfer with
    | none => exact Aborts.of_writesNo226 hconclude
    | some transfer =>
      exact Aborts.of_writesNo226
        (Keeps.question (by simp [Request.WritesNo226]) fun _ _ => hconclude)

theorem sendOrStop_aborts {reply : Reply} (hcode : reply.code ≠ 226) :
    Aborts (fun _ _ => True) (sendOrStop reply) s h := by
  refine (send_aborts reply fun heq => absurd heq hcode).bind fun result s h _ => ?_
  split <;> trivial

theorem onIncoming_aborts (ctx : Context) (hc : c.IsPlain) (line : Line.Incoming) :
    Aborts (fun _ _ => True) (onIncoming ctx c line) s h := by
  have hrefuse : ∀ (record : Record) {reply : Reply}, reply.code ≠ 226 →
      Aborts (fun _ _ => True) (do note record; return (c, ← sendOrStop reply)) s h :=
    fun record reply hcode =>
      (Aborts.of_precedesReply (note_precedesReply record)).bind fun _ s h _ =>
        (sendOrStop_aborts hcode).bind fun _ _ _ _ => trivial
  unfold onIncoming
  split
  next =>
    exact Aborts.of_writesNo226
      (Keeps.question (by simp [Request.WritesNo226]) fun _ _ => trivial)
  next => exact hrefuse _ (by decide)
  next =>
    split
    next command _ =>
      rw [onCommand_eq]
      refine (perform_aborts ctx hc command).bind fun r s h hr => ?_
      exact (deliver_aborts r.1 command hr).bind fun _ _ _ _ => trivial
    next e _ => exact hrefuse _ (by cases e <;> simp [unrecognized, CommandError.code])

theorem answer_aborts (ctx : Context) (hc : c.IsPlain) (lines : List Line.Incoming) :
    Aborts (fun _ _ => True) (answer ctx c lines) s h := by
  induction lines generalizing c s h with
  | nil => trivial
  | cons line rest ih =>
    have hconfines : Confines (fun _ _ => True) ctx.root (fun r => r.1.IsPlain)
        (onIncoming ctx c line) := onIncoming_confines hc line
    have hplain : (onIncoming ctx c line).Keeps (fun _ _ => True) _ fun r => r.1.IsPlain :=
      hconfines.weaken (fun q _ _ => by cases q <;> trivial) fun _ hq => hq
    have hline : Aborts (fun r _ => True ∧ r.1.IsPlain) (onIncoming ctx c line) s h :=
      (onIncoming_aborts ctx hc line).and_keeps hplain
    refine hline.bind fun (c, onward) s h hc => ?_
    cases onward with
    | goOn => exact ih hc.2
    | stop => trivial

theorem close_writesNo226 (c : Client) :
    (close c).Keeps (fun _ _ => True) Request.WritesNo226 fun _ => True := by
  refine ((stopWorker_precedesReply c).weaken (fun _ _ hr => hr)
    fun _ => writesNo226_of_precedesReply).bind
    fun c _ => ?_
  refine Keeps.question (by simp [Request.WritesNo226]) fun _ _ => ?_
  refine Keeps.question (by simp [Request.WritesNo226]) fun _ _ => ?_
  refine Keeps.question (by simp [Request.WritesNo226]) fun _ _ => ?_
  refine Keeps.question (by simp [Request.WritesNo226]) fun _ _ => ?_
  refine Keeps.question (by simp [Request.WritesNo226]) fun _ _ => ?_
  exact Keeps.question (by simp [Request.WritesNo226]) fun _ _ => trivial

/-- Only an `ABOR` that has done what it could says that it aborted a transfer. -/
theorem serve_aborts (ctx : Context) (address : Socket) (lines : List Line.Incoming) :
    Aborts (fun _ _ => True) (serve ctx address lines) s h := by
  have hready : (⟨Reply.ready, ctx.settings.greeting⟩ : Reply).code = 226 → h.HasAborted :=
    fun hcode => by cases hcode
  refine (send_aborts _ hready).bind fun result s h _ => ?_
  split
  next => trivial
  next =>
    refine (answer_aborts ctx (Client.connect_isPlain address) lines).bind fun c s h _ => ?_
    exact (Aborts.of_writesNo226 (close_writesNo226 c)).bind fun _ _ _ _ => trivial

end Session

end FtpServer
