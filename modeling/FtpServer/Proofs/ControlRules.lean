import FtpServer.Proofs.DispatchCases
import FtpServer.Proofs.TrackedWorkers

/-!
# The rules of the control connection

What the session has sent last decides what it may do next: it writes only while it has the control
connection and before its final reply, begins a transfer only right after announcing it, and sends
its final reply only when every worker has left the slot.
-/

namespace FtpServer

open Program Dialogue Scene Outcome

def isFinalCode (code : Nat) : Bool := code = 221 || code = 421

/-- What the session has said so far. -/
structure ReplyState where
  /-- It has the control connection. -/
  holds : Bool
  /-- The code of the reply that just went out, if nothing but letting go has been asked since. -/
  said : Option Nat
  /-- Its final reply went out. -/
  finished : Bool
  deriving DecidableEq, Repr

namespace ReplyState

def silent : ReplyState := ⟨false, none, false⟩

def ask (g : ReplyState) : (q : Request) → q.Answer → ReplyState
  | .lockControl, _ => { g with holds := true, said := none }
  | .writeReply reply, .ok _ =>
    { g with said := some reply.code, finished := g.finished || isFinalCode reply.code }
  | .unlockControl, _ => { g with holds := false }
  | _, _ => { g with said := none }

def next (g : ReplyState) : Event → ReplyState
  | .asked q r => g.ask q r
  | _ => g

@[simp] theorem next_moved (g : ReplyState) (number : Nat) (m : Worker.Move) :
    g.next (.moved number m) = g := rfl

@[simp] theorem next_passed (g : ReplyState) (ms : Nat) : g.next (.passed ms) = g := rfl

structure Unlocked (finished : Bool) (g : ReplyState) : Prop where
  holds : g.holds = false
  finished : g.finished = finished

theorem unlocked_silent : Unlocked false silent := ⟨rfl, rfl⟩

theorem Unlocked.ask {finished : Bool} {g : ReplyState} (h : Unlocked finished g) {q : Request}
    (hq : q.sparesControl = true) (r : q.Answer) : Unlocked finished (g.ask q r) := by
  cases q <;> first | exact ⟨h.holds, h.finished⟩ | cases hq

end ReplyState

def Scene.MayAskControl (s : Scene) (g : ReplyState) : Request → Prop
  | .lockControl => g.holds = false
  | .writeReply reply =>
    g.holds = true ∧ g.finished = false ∧ (isFinalCode reply.code = true → s.AllGone)
  | .unlockControl => g.holds = true
  | .install _ => g.said = some 150
  | .startWorker _ => g.finished = false
  | .isInProgress => s.AllTracked
  | _ => True

theorem Scene.mayAskControl_of_spared {s : Scene} {g : ReplyState} {q : Request}
    (hslot : q.sparesSlot = true)
    (hcontrol : q.sparesControl = true) : s.MayAskControl g q := by
  cases q <;> simp_all [MayAskControl, Request.sparesSlot, Request.sparesControl]

/-- The rules of speaking on a control connection that is shared with workers. -/
def Scene.controlRules : Rules Request.Answer (Scene × ReplyState) :=
  watched ReplyState.next fun q t => t.1.MayAskControl t.2 q

namespace Session

variable {ctx : Context} {c c' : Client} {α β : Type} {s s' : Scene} {g g' : ReplyState}
variable {P : Scene → Prop} {finished : Bool}

/-- The dialogue asks by the rules, and its result satisfies `post`. -/
abbrev ControlSafe (post : α → Scene → ReplyState → Prop) (p : Dialogue α) (s : Scene)
    (g : ReplyState) : Prop :=
  p.Meets controlRules (fun a t => post a t.1 t.2) (s, g)

variable {post post' : α → Scene → ReplyState → Prop}

theorem ControlSafe.bind {p : Dialogue α} {f : α → Dialogue β} {post' : β → Scene → ReplyState → Prop}
    (hp : ControlSafe post p s g) (hf : ∀ a s g, post a s g → ControlSafe post' (f a) s g) :
    ControlSafe post' (p >>= f) s g :=
  Meets.bind hp fun a t ha => hf a t.1 t.2 ha

theorem ControlSafe.mono {p : Dialogue α} (hp : ControlSafe post p s g)
    (hpost : ∀ a s g, post a s g → post' a s g) : ControlSafe post' p s g :=
  Meets.mono hp fun a t => hpost a t.1 t.2

theorem drift_lasts (hP : Lasts P) {t u : Scene × ReplyState} (ht : P t.1 ∧ t.2 = g)
    (h : Drift ReplyState.next t u) : P u.1 ∧ u.2 = g :=
  h.keeps (I := fun t => P t.1 ∧ t.2 = g) ht (fun _ _ _ _ _ hs hmove => ⟨hP.move hs.1 hmove, hs.2⟩)
    fun _ _ _ hs => ⟨hP.same hs.1 ⟨rfl, rfl, rfl⟩, hs.2⟩

theorem ControlSafe.question (hP : Lasts P) (hs : P s) {q : Request} {f : q.Answer → Dialogue α}
    (h : ∀ s, P s → s.MayAskControl g q ∧
      ∀ r s', s.perform? q = some (r, s') → ControlSafe post (f r) s' (g.ask q r)) :
    ControlSafe post (ask q done >>= f) s g := by
  refine meets_ask_of_stable (I := fun t : Scene × ReplyState => P t.1 ∧ t.2 = g)
    (fun _ _ => drift_lasts hP) ⟨hs, rfl⟩ fun t ⟨ht, hg⟩ => ?_
  obtain ⟨s, g'⟩ := t
  dsimp only at ht hg
  subst hg
  obtain ⟨hguard, hnext⟩ := h s ht
  refine ⟨hguard, fun r u hu => ?_⟩
  obtain ⟨s', g''⟩ := u
  obtain ⟨hperform, rfl⟩ := hu
  exact hnext r s' hperform

/-- A question of a session that does not have the control connection, and does not want it. -/
theorem ControlSafe.inner (hP : Lasts P) (hs : P s) (hg : g.Unlocked finished) {q : Request}
    (hq : q.sparesControl = true) {f : q.Answer → Dialogue α}
    (h : ∀ s, P s → s.MayAskControl g q ∧
      ∀ r s' g', s.perform? q = some (r, s') → g'.Unlocked finished → ControlSafe post (f r) s' g') :
    ControlSafe post (ask q done >>= f) s g :=
  .question hP hs fun s hs =>
    ⟨(h s hs).1, fun r s' hperform => (h s hs).2 r s' _ hperform (hg.ask hq r)⟩

theorem ControlSafe.of_spares (hP : Lasts P) {φ : α → Prop} {p : Dialogue α} (hp : Spares φ p)
    (hs : P s) (hg : g.Unlocked finished) :
    ControlSafe (fun a s g => φ a ∧ P s ∧ g.Unlocked finished) p s g := by
  refine Keeps.meets (I := fun t : Scene × ReplyState => P t.1 ∧ t.2.Unlocked finished) hp
    (fun t u ht hdrift => ?_) (fun q t hq ht => ?_) ⟨hs, hg⟩
  · obtain ⟨hu, hsame⟩ := drift_lasts hP ⟨ht.1, rfl⟩ hdrift
    exact ⟨hu, hsame ▸ ht.2⟩
  · refine ⟨?_, fun r u hu => ⟨trivial, ?_⟩⟩
    · exact mayAskControl_of_spared hq.1 hq.2
    · obtain ⟨hperform, hstate⟩ := hu
      refine ⟨hP.same ht.1 (same_of_spared hq.1 hperform), ?_⟩
      rw [hstate]
      exact ht.2.ask hq.2 r

theorem note_controlSafe (hP : Lasts P) (record : Record) (hs : P s) (hg : g.Unlocked finished) :
    ControlSafe (fun _ s g => P s ∧ g.Unlocked finished) (note record) s g := by
  have hspares : Spares (fun _ => True) (note record) :=
    Keeps.question ⟨rfl, rfl⟩ fun _ _ => trivial
  exact (ControlSafe.of_spares hP hspares hs hg).mono fun _ _ _ h => h.2

/-- A dialogue that leaves a plain client behind, and the slot with `P`. -/
abbrev Leaves (finished : Bool) (P : Scene → Prop) (c : Client) (s : Scene) (g : ReplyState) : Prop :=
  c.IsPlain ∧ P s ∧ g.Unlocked finished

theorem stopWorker_controlSafe (hc : c.IsPlain) (hs : s.AllTracked) (hg : g.Unlocked finished) :
    ControlSafe (Leaves finished AllGone) (stopWorker c) s g := by
  have hplain := hc.withMode .none
  refine ControlSafe.inner lasts_allTracked hs hg rfl fun s hs => ⟨trivial, ?_⟩
  intro (held : Option Nat) s' g hperform hg
  obtain ⟨hheld, rfl⟩ := Prod.mk.inj (Option.some.inj hperform)
  cases held with
  | none => exact ⟨hplain, hs.allGone_of_unheld hheld, hg⟩
  | some n =>
    have honly : OnlyActive n { s with held := none } := hs.onlyActive hheld
    refine ControlSafe.inner (lasts_onlyActive n) honly hg rfl fun s hs => ⟨trivial, ?_⟩
    rintro _ _ g ⟨⟩ hg
    have hcancelled : OnlyActive n (s.withSlot s.shared.slot.cancel) := hs
    refine ControlSafe.inner (lasts_onlyActive n) hcancelled hg rfl fun s hs => ⟨trivial, ?_⟩
    intro _ s' g hperform hg
    obtain ⟨rfl, hallGone⟩ := hs.join hperform
    refine ControlSafe.inner lasts_allGone hallGone hg rfl fun s hs => ⟨trivial, ?_⟩
    rintro _ _ g ⟨⟩ hg
    exact ⟨hplain, hs, hg⟩

theorem startWorker_controlSafe (hc : c.IsPlain) (hs : s.AllTracked) (hg : g.Unlocked false)
    (endpoint : Endpoint) (mode : DataMode) :
    ControlSafe (Leaves false AllTracked) (Session.startWorker c endpoint mode) s g := by
  refine (stopWorker_controlSafe hc hs hg).bind fun c s g ⟨hc, hs, hg⟩ => ?_
  refine ControlSafe.inner lasts_allGone hs hg rfl fun s hs => ⟨trivial, ?_⟩
  rintro _ _ g ⟨⟩ hg
  refine ControlSafe.inner lasts_vacant hs.rearm hg rfl fun s hs => ⟨hg.finished, ?_⟩
  rintro _ _ g ⟨⟩ hg
  exact ⟨hc.withMode mode, hs.start endpoint, hg⟩

theorem reapWorker_controlSafe (hc : c.IsPlain) (hs : s.AllTracked) (hg : g.Unlocked finished) :
    ControlSafe (Leaves finished AllTracked) (reapWorker c) s g := by
  refine ControlSafe.inner lasts_allTracked hs hg rfl fun s hs => ⟨trivial, ?_⟩
  rintro _ _ g ⟨⟩ hg
  split
  next =>
    refine ControlSafe.inner lasts_allTracked hs hg rfl fun s hs => ⟨trivial, ?_⟩
    intro (armed : Bool) s' g hperform hg
    obtain ⟨harmed, rfl⟩ := Prod.mk.inj (Option.some.inj hperform)
    cases armed with
    | true => exact ⟨hc, hs, hg⟩
    | false =>
      have hallGone := hs.allGone_of_disarmed harmed
      refine ControlSafe.inner lasts_allGone hallGone hg rfl fun s hs => ⟨trivial, ?_⟩
      rintro _ _ g ⟨⟩ hg
      have hforgotten : AllGone { s with held := none } := hs
      exact ⟨hc.withMode .none, hforgotten.allTracked, hg⟩
  next => exact ⟨hc, hs, hg⟩

/-- A command is through, and its outcome can be told. -/
structure Deliverable (r : Client × Outcome) (s : Scene) (g : ReplyState) : Prop where
  isPlain : r.1.IsPlain
  consistent : r.2.IsConsistent
  allTracked : s.AllTracked
  parts : r.2.status = .close → s.AllGone
  unlocked : g.Unlocked false

theorem deliverable_open {o : Outcome} (ho : o.IsConsistent) (hstatus : o.status ≠ .close)
    (hs : Leaves false AllTracked c s g) : Deliverable (c, o) s g :=
  ⟨hs.1, ho, hs.2.1, fun hclose => absurd hclose hstatus, hs.2.2⟩

theorem deliverable_answer {o : Outcome} (ho : o.IsAnswer) (hs : Leaves false AllTracked c s g) :
    Deliverable (c, o) s g := deliverable_open ho.isConsistent ho.status hs

theorem deliverable_close {code : Nat} (hcode : code = 221 ∨ code = 421) (text : String)
    (hs : Leaves false AllGone c s g) : Deliverable (c, .close code text) s g :=
  ⟨hs.1, (isUnaborted_close hcode text).toIsConsistent, hs.2.1.allTracked, fun _ => hs.2.1, hs.2.2⟩

theorem gate_controlSafe {k : Client → Bool → Dialogue α} (hc : c.IsPlain) (hs : s.AllTracked)
    (hg : g.Unlocked false)
    (h : ∀ c busy s g, Leaves false AllTracked c s g → ControlSafe post (k c busy) s g) :
    ControlSafe post (reapWorker c >>= fun c => isInProgress >>= k c) s g := by
  refine (reapWorker_controlSafe hc hs hg).bind fun c s g ⟨hc, hs, hg⟩ => ?_
  refine ControlSafe.inner lasts_allTracked hs hg rfl fun s hs => ⟨hs, ?_⟩
  rintro _ _ g ⟨⟩ hg
  exact h c _ s g ⟨hc, hs, hg⟩

theorem onPort_controlSafe (hc : c.IsPlain) (hs : s.AllTracked) (hg : g.Unlocked false)
    (argument : String) :
    ControlSafe Deliverable (onPort c argument) s g := by
  refine gate_controlSafe hc hs hg fun c busy s g ⟨hc, hs, hg⟩ => ?_
  split
  next => exact deliverable_answer (isAnswer_failure (by decide) _) ⟨hc, hs, hg⟩
  next =>
    split
    next =>
      refine (note_controlSafe lasts_allTracked _ hs hg).bind fun _ s g ⟨hs, hg⟩ => ?_
      refine (startWorker_controlSafe hc hs hg _ _).bind fun c s g hs => ?_
      exact deliverable_answer (isAnswer_success (by decide) _) hs
    next =>
      refine (note_controlSafe lasts_allTracked _ hs hg).bind fun _ s g ⟨hs, hg⟩ => ?_
      exact deliverable_answer (isAnswer_failure (by simp [IsAnswerCode, TransferError.code]) _)
        ⟨hc, hs, hg⟩

theorem onPasv_controlSafe (hc : c.IsPlain) (hs : s.AllTracked) (hg : g.Unlocked false) :
    ControlSafe Deliverable (onPasv ctx c) s g := by
  refine gate_controlSafe hc hs hg fun c busy s g ⟨hc, hs, hg⟩ => ?_
  split
  next => exact deliverable_answer (isAnswer_failure (by decide) _) ⟨hc, hs, hg⟩
  next =>
    refine (stopWorker_controlSafe hc hs hg).bind fun c s g ⟨hc, hs, hg⟩ => ?_
    have hspares : Spares (fun r => ∀ e, r = .error e → e.code = 421) (openListener ctx) :=
      openListener_keeps ctx fun _ => ⟨rfl, rfl⟩
    refine (ControlSafe.of_spares lasts_allGone hspares hs hg).bind fun result s g hresult => ?_
    obtain ⟨hcode, hs, hg⟩ := hresult
    split
    next address =>
      refine (note_controlSafe lasts_allGone _ hs hg).bind fun _ s g ⟨hs, hg⟩ => ?_
      refine (startWorker_controlSafe hc hs.allTracked hg _ _).bind fun c s g hs => ?_
      exact deliverable_answer (isAnswer_success (by decide) _) hs
    next e =>
      refine (note_controlSafe lasts_allGone _ hs hg).bind fun _ s g ⟨hs, hg⟩ => ?_
      exact deliverable_close (.inr (hcode e rfl)) _ ⟨hc, hs, hg⟩

theorem onAbor_controlSafe (hc : c.IsPlain) (hs : s.AllTracked) (hg : g.Unlocked false) :
    ControlSafe Deliverable (onAbor c) s g := by
  refine ControlSafe.inner lasts_allTracked hs hg rfl fun s hs => ⟨hs, ?_⟩
  rintro _ _ g ⟨⟩ hg
  split
  next =>
    refine (stopWorker_controlSafe hc hs hg).bind fun c s g ⟨hc, hs, hg⟩ => ?_
    refine (note_controlSafe lasts_allGone _ hs hg).bind fun _ s g ⟨hs, hg⟩ => ?_
    exact deliverable_open (isConsistent_success (by decide) _) (by simp [success])
      ⟨hc, hs.allTracked, hg⟩
  next => exact deliverable_answer (isAnswer_success (by decide) _) ⟨hc, hs, hg⟩

theorem onQuit_controlSafe (hc : c.IsPlain) (hs : s.AllTracked) (hg : g.Unlocked false) :
    ControlSafe Deliverable (onQuit c) s g :=
  (stopWorker_controlSafe hc hs hg).bind fun _ _ _ hs => deliverable_close (.inl rfl) _ hs

theorem withData_controlSafe (hc : c.IsPlain) (hs : s.AllTracked) (hg : g.Unlocked false)
    {root : String}
    {command : Client → Step} (h : Opens (fun _ _ => True) root command) :
    ControlSafe Deliverable (withData c command) s g := by
  refine gate_controlSafe hc hs hg fun c busy s g ⟨hc, hs, hg⟩ => ?_
  split
  next =>
    refine (note_controlSafe lasts_allTracked _ hs hg).bind fun _ s g ⟨hs, hg⟩ => ?_
    exact deliverable_answer isAnswer_ignored ⟨hc, hs, hg⟩
  next =>
    split
    next => exact deliverable_answer (isAnswer_failure (by decide) _) ⟨hc, hs, hg⟩
    next =>
      have hspares := OnlyFileCalls.spares (h c hc)
      refine (ControlSafe.of_spares lasts_allTracked hspares hs hg).mono
        fun r s g ⟨⟨hr, ho⟩, hs, hg⟩ => ?_
      refine ⟨by rwa [hr], ho.isUnaborted.toIsConsistent, hs, fun hclose => ?_, hg⟩
      cases ho with
      | answers ho => exact absurd hclose ho.status
      | begins _ _ _ ho =>
        rw [ho] at hclose
        cases hclose

theorem DispatchCase.controlSafe {command : Command} {step : Step}
    (h : DispatchCase ctx c command step)
    (hc : c.IsPlain) (hs : s.AllTracked) (hg : g.Unlocked false) :
    ControlSafe Deliverable step s g := by
  cases h with
  | spares _ h =>
    refine (ControlSafe.of_spares lasts_allTracked h hs hg).mono
      fun r s g ⟨⟨hkeeps, ho⟩, hs, hg⟩ => ?_
    exact deliverable_answer ho ⟨hkeeps.1, hs, hg⟩
  | port argument => exact onPort_controlSafe hc hs hg argument
  | pasv => exact onPasv_controlSafe hc hs hg
  | abor => exact onAbor_controlSafe hc hs hg
  | quit => exact onQuit_controlSafe hc hs hg
  | opens _ h => exact withData_controlSafe hc hs hg h

theorem perform_controlSafe (hc : c.IsPlain) (hs : s.AllTracked) (hg : g.Unlocked false)
    (command : Command) :
    ControlSafe Deliverable (perform ctx c command) s g := by
  refine (note_controlSafe lasts_allTracked _ hs hg).bind fun _ s g ⟨hs, hg⟩ => ?_
  unfold handle
  split
  next => exact deliverable_answer (isAnswer_failure (by decide) _) ⟨hc, hs, hg⟩
  next => exact (dispatch_cases ctx hc command).controlSafe hc hs hg

structure Sent (P : Scene → Prop) (reply : Reply) (result : Except OsError Unit) (s : Scene)
    (g : ReplyState) : Prop where
  lasts : P s
  holds : g.holds = false
  said : result = .ok () → g.said = some reply.code
  finished : isFinalCode reply.code = false → g.finished = false

theorem send_controlSafe (hP : Lasts P) (reply : Reply)
    (hlast : isFinalCode reply.code = true → ∀ s, P s → s.AllGone) (hs : P s)
    (hg : g.Unlocked false) : ControlSafe (Sent P reply) (send reply) s g := by
  refine ControlSafe.question hP hs fun s hs => ⟨hg.holds, fun _ s' hperform => ?_⟩
  have hlocked : P s' := hP.same hs (same_of_spared rfl hperform)
  refine ControlSafe.question hP hlocked fun s hs => ⟨⟨rfl, hg.finished, fun h => hlast h s hs⟩, ?_⟩
  intro (result : Except OsError Unit) s' hperform
  have hwritten : P s' := hP.same hs (same_of_spared rfl hperform)
  have hholds : ((g.ask .lockControl ()).ask (.writeReply reply) result).holds = true := by
    cases result <;> rfl
  refine ControlSafe.question hP hwritten fun s hs => ⟨hholds, fun _ s' hperform => ?_⟩
  refine ⟨hP.same hs (same_of_spared rfl hperform), rfl, ?_, fun hcode => ?_⟩
  · rintro rfl
    rfl
  · cases result with
    | ok => simp [ReplyState.ask, hg.finished, hcode]
    | error => exact hg.finished

/-- The session goes on only if its final reply has not gone out. -/
structure Onwards (onward : Onward) (s : Scene) (g : ReplyState) : Prop where
  allTracked : s.AllTracked
  holds : g.holds = false
  finished : onward = .goOn → g.finished = false

/-- What the reply of an outcome leaves behind, before a transfer begins. -/
structure Told (o : Outcome) (onward : Onward) (s : Scene) (g : ReplyState) : Prop where
  allTracked : s.AllTracked
  holds : g.holds = false
  finished : o.status ≠ .close → g.finished = false
  said : onward = .goOn → ∀ reply, o.reply = some reply → g.said = some reply.code

theorem isFinalCode_eq_false {o : Outcome} {reply : Reply} (ho : o.IsConsistent)
    (hreply : o.reply = some reply) (hstatus : o.status ≠ .close) :
    isFinalCode reply.code = false := by
  have hcode : ¬ (reply.code = 221 ∨ reply.code = 421) := by
    have hends := ho.ends
    simp only [hreply, Option.map_some, Option.some.injEq] at hends
    exact fun h => hstatus (hends.2 h)
  simpa [isFinalCode, not_or] using hcode

theorem sendOutcome_controlSafe {o : Outcome} (h : Deliverable (c, o) s g) :
    ControlSafe (Told o) (sendOutcome c o) s g := by
  obtain ⟨-, hconsistent, hs, hparts, hg⟩ := h
  have hlasts : Lasts fun s => s.AllTracked ∧ (o.status = .close → s.AllGone) :=
    lasts_allTracked.and (lasts_allGone.imp _)
  unfold sendOutcome
  cases hreply : o.reply with
  | none =>
    refine ⟨hs, hg.holds, fun _ => hg.finished, fun _ reply h => ?_⟩
    cases hreply.symm.trans h
  | some reply =>
    have hlast : isFinalCode reply.code = true →
        ∀ s : Scene, s.AllTracked ∧ (o.status = .close → s.AllGone) → s.AllGone :=
      fun hlast s hs => by
      by_cases hstatus : o.status = .close
      · exact hs.2 hstatus
      · cases hlast.symm.trans (isFinalCode_eq_false hconsistent hreply hstatus)
    refine (send_controlSafe hlasts reply hlast ⟨hs, hparts⟩ hg).bind fun result s g hsent => ?_
    have hfinished : o.status ≠ .close → g.finished = false := fun hstatus =>
      hsent.finished (isFinalCode_eq_false hconsistent hreply hstatus)
    split
    next =>
      refine ⟨hsent.lasts.1, hsent.holds, hfinished, fun _ reply' h => ?_⟩
      obtain rfl := Option.some.inj (hreply.symm.trans h)
      exact hsent.said rfl
    next cause =>
      have hunlocked : g.Unlocked g.finished := ⟨hsent.holds, rfl⟩
      refine (note_controlSafe lasts_allTracked _ hsent.lasts.1 hunlocked).bind
        fun _ s' g' ⟨hs', hg'⟩ => ?_
      refine ⟨hs', hg'.holds, fun hstatus => hg'.finished.trans (hfinished hstatus),
        fun hgoes => ?_⟩
      cases hgoes

theorem conclude_controlSafe {status : Status} (hs : s.AllTracked) (hholds : g.holds = false)
    (hfinished : status ≠ .close → g.finished = false) (command : Command) :
    ControlSafe Onwards (conclude c command status) s g := by
  have hunlocked : g.Unlocked g.finished := ⟨hholds, rfl⟩
  refine (ControlSafe.of_spares lasts_allTracked (conclude_spares c command status) hs hunlocked).mono
    fun onward s g' ⟨honward, hs, hg'⟩ => ⟨hs, hg'.holds, fun hgoes => ?_⟩
  refine hg'.finished.trans (hfinished fun hclose => ?_)
  rw [honward, if_pos hclose] at hgoes
  cases hgoes

theorem deliver_controlSafe {o : Outcome} (h : Deliverable (c, o) s g) (command : Command) :
    ControlSafe Onwards (deliver c command o) s g := by
  have hbegins := h.consistent.begins
  refine (sendOutcome_controlSafe h).bind fun onward s g htold => ?_
  cases onward with
  | stop => exact ⟨htold.allTracked, htold.holds, fun hgoes => by cases hgoes⟩
  | goOn =>
    cases htransfer : o.transfer with
    | none => exact conclude_controlSafe htold.allTracked htold.holds htold.finished command
    | some transfer =>
      have hsaid : g.said = some 150 := by
        obtain ⟨reply, hreply, hcode⟩ := Option.map_eq_some_iff.1 (hbegins.2 (by simp [htransfer]))
        rw [htold.said rfl reply hreply, hcode]
      refine ControlSafe.question lasts_allTracked htold.allTracked fun s hs => ⟨hsaid, ?_⟩
      rintro _ _ ⟨⟩
      exact conclude_controlSafe (g := g.ask (.install transfer) ()) (hs.install transfer) htold.holds
        htold.finished command

abbrev Answered (r : Client × Onward) (s : Scene) (g : ReplyState) : Prop :=
  r.1.IsPlain ∧ Onwards r.2 s g

theorem onCommand_controlSafe (hc : c.IsPlain) (hs : s.AllTracked) (hg : g.Unlocked false)
    (command : Command) : ControlSafe Answered (onCommand ctx c command) s g := by
  rw [onCommand_eq]
  refine (perform_controlSafe hc hs hg command).bind fun r s g hr => ?_
  exact (deliver_controlSafe hr command).bind fun onward s g h => ⟨hr.isPlain, h⟩

theorem sendOrStop_controlSafe (hs : s.AllTracked) (hg : g.Unlocked false) {reply : Reply}
    (hreply : isFinalCode reply.code = false) : ControlSafe Onwards (sendOrStop reply) s g := by
  have hlast : isFinalCode reply.code = true → ∀ s : Scene, s.AllTracked → s.AllGone := fun h => by
    cases hreply.symm.trans h
  refine (send_controlSafe lasts_allTracked reply hlast hs hg).bind fun result s g hsent => ?_
  split <;> exact ⟨hsent.lasts, hsent.holds, fun _ => hsent.finished hreply⟩

theorem onIncoming_controlSafe (hc : c.IsPlain) (hs : s.AllTracked) (hg : g.Unlocked false)
    (line : Line.Incoming) : ControlSafe Answered (onIncoming ctx c line) s g := by
  have hrefuse : ∀ (record : Record) {reply : Reply}, isFinalCode reply.code = false →
      ControlSafe Answered (do note record; return (c, ← sendOrStop reply)) s g :=
    fun record reply hreply => by
      refine (note_controlSafe lasts_allTracked record hs hg).bind fun _ s g ⟨hs, hg⟩ => ?_
      exact (sendOrStop_controlSafe hs hg hreply).bind fun onward s g h => ⟨hc, h⟩
  unfold onIncoming
  split
  next =>
    refine (note_controlSafe lasts_allTracked _ hs hg).bind fun _ s g ⟨hs, hg⟩ => ?_
    exact ⟨hc, hs, hg.holds, fun hgoes => by cases hgoes⟩
  next => exact hrefuse _ rfl
  next =>
    split
    next command _ => exact onCommand_controlSafe hc hs hg command
    next => exact hrefuse _ rfl

theorem answer_controlSafe (hc : c.IsPlain) (hs : s.AllTracked) (hg : g.Unlocked false)
    (lines : List Line.Incoming) :
    ControlSafe (fun c s g => c.IsPlain ∧ s.AllTracked ∧ g.holds = false)
    (answer ctx c lines) s g := by
  induction lines generalizing c s g with
  | nil => exact ⟨hc, hs, hg.holds⟩
  | cons line rest ih =>
    refine (onIncoming_controlSafe hc hs hg line).bind fun (c, onward) s g ⟨hc, hnext⟩ => ?_
    cases onward with
    | goOn => exact ih hc hnext.allTracked ⟨hnext.holds, hnext.finished rfl⟩
    | stop => exact ⟨hc, hnext.allTracked, hnext.holds⟩

theorem close_controlSafe (hc : c.IsPlain) (hs : s.AllTracked) (hg : g.holds = false) :
    ControlSafe (fun _ _ _ => True) (close c) s g := by
  have hunlocked : g.Unlocked g.finished := ⟨hg, rfl⟩
  refine (stopWorker_controlSafe hc hs hunlocked).bind fun c s g ⟨_, hs, hg⟩ => ?_
  refine ControlSafe.inner lasts_allGone hs hg rfl fun s hs => ⟨trivial, fun _ s' g hperform hg => ?_⟩
  have hs := hs.same (same_of_spared rfl hperform)
  refine (note_controlSafe lasts_allGone _ hs hg).bind fun _ s g ⟨hs, hg⟩ => ?_
  refine ControlSafe.question lasts_allGone hs fun s hs => ⟨hg.holds, fun _ s' hperform => ?_⟩
  have hs := hs.same (same_of_spared rfl hperform)
  refine ControlSafe.question lasts_allGone hs fun s hs => ⟨trivial, fun _ s' hperform => ?_⟩
  have hs := hs.same (same_of_spared rfl hperform)
  refine ControlSafe.question lasts_allGone hs fun s hs => ⟨rfl, fun _ s' hperform => ?_⟩
  have hs := hs.same (same_of_spared rfl hperform)
  exact (note_controlSafe lasts_allGone _ hs ⟨rfl, rfl⟩).bind fun _ _ _ _ => trivial

/-- A session keeps the rules of the control connection, from a slot without workers on. -/
theorem serve_controlSafe (ctx : Context) (address : Socket) (lines : List Line.Incoming)
    (hs : s.AllGone) : ControlSafe (fun _ _ _ => True) (serve ctx address lines) s .silent := by
  have hlast : isFinalCode Reply.ready = true → ∀ s : Scene, s.AllGone → s.AllGone :=
    fun _ _ h => h
  refine (send_controlSafe lasts_allGone _ hlast hs ReplyState.unlocked_silent).bind
    fun result s g hsent => ?_
  split
  next => trivial
  next =>
    have hunlocked : g.Unlocked false := ⟨hsent.holds, hsent.finished rfl⟩
    refine (answer_controlSafe
      (Client.connect_isPlain address) hsent.lasts.allTracked hunlocked lines).bind
      fun c s g ⟨hc, hs, hg⟩ => ?_
    exact (close_controlSafe hc hs hg).bind fun _ _ _ _ => trivial

end Session

end FtpServer
