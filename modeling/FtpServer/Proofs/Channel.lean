import FtpServer.Proofs.AtomicCommands
import FtpServer.Proofs.Gate

/-!
# The data channel between commands

Between two commands the channel for data is closed, ready for a transfer or busy with one.  Workers
close a busy channel and no other; a command opens it, begins a transfer on it or closes it.
-/

namespace FtpServer

open Program Dialogue

inductive Channel
  /-- No worker serves the slot. -/
  | closed
  /-- A worker waits for a transfer. -/
  | ready
  /-- A transfer is in progress. -/
  | busy
  deriving DecidableEq, Repr

/-- What workers can make of a channel: they end what is in progress. -/
def Channel.Settles (ch ch' : Channel) : Prop := ch' = ch ∨ ch = .busy ∧ ch' = .closed

theorem Channel.Settles.refl (ch : Channel) : ch.Settles ch := .inl rfl

theorem Channel.Settles.trans {ch ch' ch'' : Channel} (h : ch.Settles ch') (h' : ch'.Settles ch'') :
    ch.Settles ch'' := by
  rcases h with rfl | ⟨rfl, rfl⟩
  · exact h'
  · rcases h' with rfl | ⟨hbusy, -⟩
    · exact .inr ⟨rfl, rfl⟩
    · cases hbusy

namespace Scene

variable {s s' t : Scene} {c : Client} {number : Nat} {m : Worker.Move}

def channel (s : Scene) : Channel :=
  if s.shared.slot.armed then
    if s.shared.slot.inProgress then .busy else .ready
  else .closed

theorem channel_eq_closed : s.channel = .closed ↔ s.shared.slot.armed = false := by
  unfold channel
  cases s.shared.slot.armed <;> cases s.shared.slot.inProgress <;> simp

theorem channel_eq_ready :
    s.channel = .ready ↔ s.shared.slot.armed = true ∧ s.shared.slot.inProgress = false := by
  unfold channel
  cases s.shared.slot.armed <;> cases s.shared.slot.inProgress <;> simp

theorem channel_eq_busy :
    s.channel = .busy ↔ s.shared.slot.armed = true ∧ s.shared.slot.inProgress = true := by
  unfold channel
  cases s.shared.slot.armed <;> cases s.shared.slot.inProgress <;> simp

theorem Retired.channel (h : s.Retired) : s.channel = .closed := channel_eq_closed.2 h.armed

theorem SameService.channel (h : s.SameService s') : s'.channel = s.channel := by
  unfold Scene.channel
  rw [h.slot]

/-- A worker that attends the slot leaves it only at the end of a transfer. -/
theorem Sound.channel_move (h : s.Sound) (hmove : s.moveWorker? number m = some s') :
    s.channel.Settles s'.channel := by
  cases h with
  | alone _ hretired | outlived _ _ hretired =>
    exact .inl ((hretired.move hmove).2.channel.trans hretired.channel.symm)
  | attended n hheld hattends huncancelled =>
    rcases hattends.move hmove with ⟨-, -, hanswers⟩ | ⟨-, hdone, hretired⟩
    · refine .inl ?_
      unfold Scene.channel
      rw [hanswers.armed, hanswers.inProgress]
    · have hbusy : s.shared.slot.inProgress = true := by simpa [huncancelled] using hdone
      exact .inr ⟨channel_eq_busy.2 ⟨hattends.armed, hbusy⟩, hretired.channel⟩

/-- A session between two commands: the slot is in order and was not cancelled under a worker, and
the data mode tells whether there is a worker. -/
structure AtBoundary (c : Client) (s : Scene) : Prop where
  sound : s.Sound
  uncancelled : s.held.isSome = true → s.shared.slot.cancelled = false
  mode : c.dataMode = .none ↔ s.held = none

theorem AtBoundary.same (h : AtBoundary c s) (hsame : s.SameService s') : AtBoundary c s' where
  sound := h.sound.same hsame
  uncancelled hheld := by
    rw [hsame.held] at hheld
    rw [hsame.slot]
    exact h.uncancelled hheld
  mode := by
    rw [hsame.held]
    exact h.mode

theorem AtBoundary.move (h : AtBoundary c s) (hmove : s.moveWorker? number m = some s') :
    AtBoundary c s' where
  sound := h.sound.move hmove
  uncancelled hheld := by
    rw [held_of_moveWorker hmove] at hheld
    exact (cancelled_of_moveWorker hmove).trans (h.uncancelled hheld)
  mode := by
    rw [held_of_moveWorker hmove]
    exact h.mode

theorem AtBoundary.mono {c' : Client} (h : AtBoundary c s) (hmode : c'.dataMode = c.dataMode) :
    AtBoundary c' s := ⟨h.sound, h.uncancelled, hmode ▸ h.mode⟩

theorem atBoundary_of_left (h : s.Left none) (hmode : c.dataMode = .none) : AtBoundary c s where
  sound := h.sound
  uncancelled hheld := by
    rw [h.1] at hheld
    cases hheld
  mode := by simp [hmode, h.1]

theorem AtBoundary.retired (h : AtBoundary c s) (hclosed : s.channel = .closed) : s.Retired :=
  h.sound.retired_of_disarmed (channel_eq_closed.1 hclosed)

theorem AtBoundary.attended (h : AtBoundary c s) (hopen : s.channel ≠ .closed) :
    ∃ n, s.held = some n ∧ s.Attends n ∧ s.shared.slot.cancelled = false := by
  cases h.sound with
  | alone _ hretired | outlived _ _ hretired => exact absurd hretired.channel hopen
  | attended n hheld hattends huncancelled => exact ⟨n, hheld, hattends, huncancelled⟩

theorem AtBoundary.inProgress_iff (h : AtBoundary c s) :
    s.shared.slot.inProgress = true ↔ s.channel = .busy := by
  rw [channel_eq_busy]
  refine ⟨fun hbusy => ⟨?_, hbusy⟩, fun h => h.2⟩
  cases harmed : s.shared.slot.armed with
  | true => rfl
  | false =>
    have hretired := h.sound.retired_of_disarmed harmed
    rw [Slot.inProgress_eq_false.2 hretired.handle] at hbusy
    cases hbusy

theorem AtBoundary.mode_ne_none (h : AtBoundary c s) (hopen : s.channel ≠ .closed) :
    c.dataMode ≠ .none := by
  obtain ⟨n, hheld, -⟩ := h.attended hopen
  rw [ne_eq, h.mode, hheld]
  simp

def AtBoundarySince (ch : Channel) (c : Client) (s : Scene) : Prop :=
  AtBoundary c s ∧ ch.Settles s.channel

theorem AtBoundarySince.move {ch : Channel} (h : AtBoundarySince ch c s)
    (hmove : s.moveWorker? number m = some s') : AtBoundarySince ch c s' :=
  ⟨h.1.move hmove, h.2.trans (h.1.sound.channel_move hmove)⟩

theorem AtBoundarySince.same {ch : Channel} (h : AtBoundarySince ch c s)
    (hsame : s.SameService s') :
    AtBoundarySince ch c s' := ⟨h.1.same hsame, hsame.channel ▸ h.2⟩

theorem AtBoundary.since (h : AtBoundary c s) : AtBoundarySince s.channel c s := ⟨h, .refl _⟩

theorem WorkersMove.atBoundary (h : WorkersMove s t) (hs : AtBoundary c s) :
    AtBoundarySince s.channel c t :=
  h.keeps hs.since (fun hs hmove => hs.move hmove) fun hs hsame => hs.same hsame

end Scene

namespace Session

open Scene

variable {ctx : Context} {c c' : Client} {s t : Scene} {α : Type}

/-- A worker that has left is forgotten, and with it the data mode. -/
theorem reapWorker_atomic (hs : AtBoundary c s) :
    (reapWorker c).Meets atomic (fun c' t => Reaps c c' ∧ AtBoundary c' t ∧ t.channel = s.channel ∧
      (t.channel = .closed → c'.dataMode = .none)) s := by
  refine atomic_question rfl fun s₁ hsame r s' hperform => ?_
  obtain ⟨rfl, rfl⟩ := Prod.mk.inj (Option.some.inj hperform)
  have hs₁ := hs.same hsame
  split
  next hsome =>
    refine atomic_question rfl fun s₂ hsame₂ r s' hperform => ?_
    obtain ⟨rfl, rfl⟩ := Prod.mk.inj (Option.some.inj hperform)
    have hs₂ := hs₁.same hsame₂
    have hchannel := (hsame.trans hsame₂).channel
    split
    next harmed =>
      refine ⟨.inl rfl, hs₂, hchannel, fun hclosed => ?_⟩
      rw [channel_eq_closed.1 hclosed] at harmed
      cases harmed
    next harmed =>
      refine atomic_question rfl fun s₃ hsame₃ r s' hperform => ?_
      obtain ⟨-, rfl⟩ := Prod.mk.inj (Option.some.inj hperform)
      have hdisarmed : s₃.shared.slot.armed = false := by
        rw [hsame₃.slot]
        simpa using harmed
      have hretired := (hs₂.same hsame₃).sound.retired_of_disarmed hdisarmed
      exact ⟨.inr rfl, atBoundary_of_left hretired.letGo rfl, hsame₃.channel.trans hchannel,
        fun _ => rfl⟩
  next hnone =>
    have hmode : c.dataMode = .none := hs₁.mode.2 (by simpa using hnone)
    exact ⟨.inl rfl, hs₁, hsame.channel, fun _ => hmode⟩

theorem stopWorker_atomic (hs : AtBoundary c s) :
    (stopWorker c).Meets atomic (fun c' t => c' = c.withMode .none ∧ t.Left none) s := by
  refine atomic_question rfl fun s₁ hsame held s' hperform => ?_
  obtain ⟨hheld, rfl⟩ := Prod.mk.inj (Option.some.inj hperform)
  have hs₁ := hs.same hsame
  cases held with
  | none => exact ⟨rfl, (hs₁.sound.retired hheld).letGo⟩
  | some n =>
    have hstopping := hs₁.sound.letGo hheld
    refine atomic_question rfl fun s₂ hsame₂ r s' hperform => ?_
    obtain ⟨-, rfl⟩ := Prod.mk.inj (Option.some.inj hperform)
    refine atomic_wait (fun hs hmove => Stopping.move hs hmove) (fun hs h => Stopping.same hs h)
      (hstopping.same hsame₂).cancel fun s₃ hs₃ r s' hperform => ?_
    obtain ⟨rfl, hleft⟩ := hs₃.join hperform
    refine atomic_question rfl fun s₄ hsame₄ r s' hperform => ?_
    obtain ⟨-, rfl⟩ := Prod.mk.inj (Option.some.inj hperform)
    exact ⟨rfl, Left.finish ⟨hsame₄.held.trans hleft.1, hleft.2.same hsame₄⟩⟩

theorem startWorker_atomic (hs : AtBoundary c s) (endpoint : Endpoint) {mode : DataMode}
    (hmode : mode ≠ .none) :
    (Session.startWorker c endpoint mode).Meets atomic
      (fun c' t => c' = c.withMode mode ∧ AtBoundary c' t ∧ t.channel = .ready) s := by
  refine (stopWorker_atomic hs).bind fun c' s ⟨hc', hleft⟩ => ?_
  subst hc'
  refine atomic_question rfl fun s₁ hsame r s' hperform => ?_
  obtain ⟨-, rfl⟩ := Prod.mk.inj (Option.some.inj hperform)
  have hallGone := hleft.2.allGone.same hsame
  have hrearmed : (s₁.withSlot s₁.shared.slot.rearm).AllGone := hallGone
  refine atomic_question rfl fun s₂ hsame₂ r s' hperform => ?_
  obtain ⟨-, rfl⟩ := Prod.mk.inj (Option.some.inj hperform)
  have hslot : s₂.shared.slot = s₁.shared.slot.rearm := hsame₂.slot
  have harmed : s₂.shared.slot.armed = true := by rw [hslot]; rfl
  have hhandle : s₂.shared.slot.handle = none := by rw [hslot]; rfl
  have huncancelled : s₂.shared.slot.cancelled = false := by rw [hslot]; rfl
  have hattends := (hrearmed.same hsame₂).start harmed hhandle huncancelled endpoint
    (some s₂.workers.length)
  refine ⟨rfl, ⟨.attended _ rfl hattends huncancelled, fun _ => huncancelled, ?_⟩, ?_⟩
  · simpa [Client.withMode] using hmode
  · exact channel_eq_ready.2 ⟨harmed, Slot.inProgress_eq_false.2 hhandle⟩

end Session

namespace Exchange

/-- `PORT` or `PASV`, answered by the offer of a data connection. -/
def Offers (e : Exchange) : Prop :=
  (∃ argument, e.command = .port argument) ∧ e.code? = some 200 ∨
    e.command = .pasv ∧ e.code? = some 227

def Begins (e : Exchange) : Prop := e.code? = some 150

theorem Offers.not_begins {e : Exchange} (h : e.Offers) : ¬ e.Begins := by
  intro hbegins
  rw [Begins] at hbegins
  rcases h with ⟨-, hcode⟩ | ⟨-, hcode⟩
  · cases hbegins.symm.trans hcode
  · cases hbegins.symm.trans hcode

end Exchange

namespace Session

open Scene

/-- What a command does to the channel before its reply is out. -/
structure Handles (c : Client) (ch : Channel) (e : Exchange) (c' : Client) (t : Scene) : Prop where
  atBoundary : AtBoundary c' t
  opens : t.channel = .ready → ch = .ready ∨ e.Offers
  fills : t.channel = .busy → ch = .busy
  begins : e.outcome.transfer.isSome = true → c.isLoggedIn = true ∧ ch = .ready ∧
    t.channel = .ready ∧ e.outcome.IsUntaken
  refuses : e.command.opensTransfer = true → c.isLoggedIn = true → ch = .closed →
    e.code? = some 425
  ignores : e.command.opensTransfer = true → c.isLoggedIn = true → ch = .busy →
    e.outcome.reply = none
  aborts : e.command = .abor → t.channel ≠ .busy ∧ e.outcome.transfer = none

abbrev HandlesAs (verdict : String → String → Bool) (c : Client) (ch : Channel)
    (command : Command) (r : Client × Outcome) (t : Scene) : Prop :=
  Handles c ch ⟨command, r.2, verdict⟩ r.1 t

variable {ctx : Context} {c c' : Client} {s t : Scene} {α : Type}
variable {verdict : String → String → Bool} {command : Command} {o : Outcome}

theorem handles_of_still (hboundary : AtBoundary c' t) (hchannel : t.channel = s.channel)
    (htransfer : o.transfer = none) (hcommand : command.opensTransfer = false)
    (habor : command = .abor → s.channel ≠ .busy) :
    HandlesAs verdict c s.channel command (c', o) t where
  atBoundary := hboundary
  opens hready := .inl (hchannel ▸ hready)
  fills hbusy := hchannel ▸ hbusy
  begins hsome := by simp [htransfer] at hsome
  refuses hopens := by simp [hcommand] at hopens
  ignores hopens := by simp [hcommand] at hopens
  aborts h := ⟨hchannel ▸ habor h, htransfer⟩

theorem handles_of_left (hleft : t.Left none) (hmode : c'.dataMode = .none)
    (htransfer : o.transfer = none) (hcommand : command.opensTransfer = false) :
    HandlesAs verdict c s.channel command (c', o) t := by
  have hclosed := hleft.2.channel
  refine ⟨atBoundary_of_left hleft hmode, fun h => ?_, fun h => ?_, fun h => ?_, fun h => ?_,
    fun h => ?_, fun _ => ⟨fun h => ?_, htransfer⟩⟩
  · cases hclosed.symm.trans h
  · cases hclosed.symm.trans h
  · simp [htransfer] at h
  · simp [hcommand] at h
  · simp [hcommand] at h
  · cases hclosed.symm.trans h

theorem handles_of_offer (hboundary : AtBoundary c' t) (hready : t.channel = .ready)
    (htransfer : o.transfer = none) (hcommand : command.opensTransfer = false)
    (hoffers : Exchange.Offers ⟨command, o, verdict⟩) :
    HandlesAs verdict c s.channel command (c', o) t := by
  refine ⟨hboundary, fun _ => .inr hoffers, fun h => ?_, fun h => ?_, fun h => ?_,
    fun h => ?_, fun _ => ⟨fun h => ?_, htransfer⟩⟩
  · cases hready.symm.trans h
  · simp [htransfer] at h
  · simp [hcommand] at h
  · simp [hcommand] at h
  · cases hready.symm.trans h

theorem Handles.same {ch : Channel} {e : Exchange} {u : Scene} (h : Handles c ch e c' t)
    (hsame : t.SameService u) : Handles c ch e c' u where
  atBoundary := h.atBoundary.same hsame
  opens hready := h.opens (hsame.channel.symm.trans hready)
  fills hbusy := h.fills (hsame.channel.symm.trans hbusy)
  begins hsome := by rw [hsame.channel]; exact h.begins hsome
  refuses := h.refuses
  ignores := h.ignores
  aborts habor := by rw [hsame.channel]; exact h.aborts habor

/-- The two looks at the slot, after which a client without a worker has no data mode. -/
theorem gate_atomic {post : α → Scene → Prop} {k : Client → Bool → Dialogue α} (hs : AtBoundary c s)
    (h : ∀ c' t, AtBoundary c' t → t.channel = s.channel →
      (t.channel = .closed → c'.dataMode = .none) → Reaps c c' →
      (k c' t.shared.slot.inProgress).Meets atomic post t) :
    (reapWorker c >>= fun c => isInProgress >>= k c).Meets atomic post s := by
  refine (reapWorker_atomic hs).bind fun c' t ⟨hreaps, hboundary, hchannel, hmode⟩ => ?_
  refine atomic_question rfl fun t' hsame r s' hperform => ?_
  obtain ⟨rfl, rfl⟩ := Prod.mk.inj (Option.some.inj hperform)
  have hchannel' := hsame.channel
  refine h c' t' (hboundary.same hsame) (hchannel'.trans hchannel) (fun hclosed => ?_) hreaps
  exact hmode (hchannel' ▸ hclosed)

theorem note_atomic (record : Record) (s : Scene) :
    (note record).Meets atomic (fun _ t => s.SameService t) s :=
  have hspares : Spares (fun _ => True) (note record) :=
    Keeps.question ⟨rfl, rfl⟩ fun _ _ => trivial
  (atomic_spares hspares).mono fun _ _ h => h.2

theorem note_handles {ch : Channel} {r : Client × Outcome} (record : Record)
    (h : HandlesAs verdict c ch command r t) :
    (note record >>= fun _ => .done r).Meets atomic (HandlesAs verdict c ch command) t :=
  (note_atomic record t).bind fun _ _ hsame => h.same hsame

theorem onPort_atomic (hs : AtBoundary c s) (argument : String) :
    (onPort c argument).Meets atomic (HandlesAs verdict c s.channel (.port argument)) s := by
  refine gate_atomic hs fun c' t hboundary hchannel _ _ => ?_
  split
  next => exact handles_of_still hboundary hchannel rfl rfl (by simp)
  next =>
    split
    next address _ =>
      refine (note_atomic _ t).bind fun _ u hsame => ?_
      refine (startWorker_atomic (hboundary.same hsame) _ (by simp)).bind
        fun c'' v ⟨_, hboundary, hready⟩ => ?_
      exact handles_of_offer hboundary hready rfl rfl (.inl ⟨⟨argument, rfl⟩, rfl⟩)
    next =>
      refine (note_atomic _ t).bind fun _ u hsame => ?_
      exact handles_of_still (hboundary.same hsame) (hsame.channel.trans hchannel) rfl rfl (by simp)

theorem onPasv_atomic (hs : AtBoundary c s) :
    (onPasv ctx c).Meets atomic (HandlesAs verdict c s.channel .pasv) s := by
  refine gate_atomic hs fun c' t hboundary hchannel _ _ => ?_
  split
  next => exact handles_of_still hboundary hchannel rfl rfl (by simp)
  next =>
    refine (stopWorker_atomic hboundary).bind fun c'' u ⟨hc'', hleft⟩ => ?_
    subst hc''
    have hopen : Spares (fun _ => True) (openListener ctx) :=
      (openListener_keeps ctx fun _ => ⟨rfl, rfl⟩).mono fun _ _ => trivial
    refine (atomic_spares hopen).bind fun result v ⟨_, hsame⟩ => ?_
    have hleft : v.Left none := ⟨hsame.held.trans hleft.1, hleft.2.same hsame⟩
    split
    next address =>
      refine (note_atomic _ v).bind fun _ w hsame => ?_
      have hleft : w.Left none := ⟨hsame.held.trans hleft.1, hleft.2.same hsame⟩
      refine (startWorker_atomic (atBoundary_of_left hleft rfl) _ (by simp)).bind
        fun c'' x ⟨_, hboundary, hready⟩ => ?_
      exact handles_of_offer hboundary hready rfl rfl (.inr ⟨rfl, rfl⟩)
    next e =>
      refine (note_atomic _ v).bind fun _ w hsame => ?_
      have hleft : w.Left none := ⟨hsame.held.trans hleft.1, hleft.2.same hsame⟩
      exact handles_of_left hleft rfl rfl rfl

theorem onAbor_atomic (hs : AtBoundary c s) :
    (onAbor c).Meets atomic (HandlesAs verdict c s.channel .abor) s := by
  refine atomic_question rfl fun t hsame r s' hperform => ?_
  obtain ⟨rfl, rfl⟩ := Prod.mk.inj (Option.some.inj hperform)
  have hboundary := hs.same hsame
  split
  next =>
    refine (stopWorker_atomic hboundary).bind fun c' u ⟨hc', hleft⟩ => ?_
    subst hc'
    exact note_handles _ (handles_of_left hleft rfl rfl rfl)
  next hidle =>
    refine handles_of_still hboundary hsame.channel rfl rfl fun _ hbusy => hidle ?_
    exact hboundary.inProgress_iff.2 (hsame.channel.trans hbusy)

theorem onQuit_atomic (hs : AtBoundary c s) :
    (onQuit c).Meets atomic (HandlesAs verdict c s.channel .quit) s := by
  refine (stopWorker_atomic hs).bind fun c' t ⟨hc', hleft⟩ => ?_
  subst hc'
  exact handles_of_left hleft rfl rfl rfl

/-- A command that opens a transfer does so on a channel that is ready for it. -/
theorem withData_atomic (hs : AtBoundary c s) (hc : c.IsPlain) (hin : c.isLoggedIn = true)
    {root : String} {opener : Client → Step} (hopens : Opens (fun _ _ => True) root opener)
    (hcommand : command.opensTransfer = true) :
    (withData c opener).Meets atomic (HandlesAs verdict c s.channel command) s := by
  have habor : command ≠ .abor := fun h => by simp [h, Command.opensTransfer] at hcommand
  refine gate_atomic hs fun c' t hboundary hchannel hmode hreaps => ?_
  split
  next hbusy =>
    have hbusy : s.channel = .busy := hchannel ▸ hboundary.inProgress_iff.1 hbusy
    refine note_handles _ ⟨hboundary, fun h => .inl (hchannel ▸ h), fun h => hchannel ▸ h,
      fun h => ?_, fun _ _ h => ?_, fun _ _ _ => rfl, fun h => absurd h habor⟩
    · simp [Outcome.ignored] at h
    · cases hbusy.symm.trans h
  next hidle =>
    have hidle : s.channel ≠ .busy := fun h => hidle (hboundary.inProgress_iff.2 (hchannel.trans h))
    split
    next hnone =>
      have hclosed : s.channel = .closed := by
        rw [← hchannel]
        exact Decidable.not_not.1 fun hopen => hboundary.mode_ne_none hopen hnone
      refine ⟨hboundary, fun h => .inl (hchannel ▸ h), fun h => hchannel ▸ h, fun h => ?_,
        fun _ _ _ => rfl, fun _ _ h => absurd h hidle, fun h => absurd h habor⟩
      simp [Outcome.failure] at h
    next hsome =>
      have hopen : s.channel ≠ .closed := fun h => hsome (hmode (hchannel.trans h))
      have hready : s.channel = .ready := by
        cases hch : s.channel with
        | ready => rfl
        | closed => exact absurd hch hopen
        | busy => exact absurd hch hidle
      have hspares := OnlyFileCalls.spares (hopens c' (hreaps.isPlain hc))
      refine (atomic_spares hspares).mono fun r u hru => ?_
      obtain ⟨⟨hc', hr⟩, hsame⟩ := hru
      have hchannel := hsame.channel.trans hchannel
      refine ⟨(hboundary.same hsame).mono (by rw [hc']), fun h => .inl (hchannel ▸ h),
        fun h => hchannel ▸ h, fun _ => ⟨hin, hready, hchannel.trans hready, hr.isUntaken⟩,
        fun _ _ h => absurd h hopen, fun _ _ h => absurd h hidle, fun h => absurd h habor⟩

theorem DispatchCase.atomic {step : Step} (h : DispatchCase ctx c command step)
    (hs : AtBoundary c s)
    (hc : c.IsPlain) (hlogin : command.requiresLogin = true → c.isLoggedIn = true) :
    step.Meets Scene.atomic (HandlesAs verdict c s.channel command) s := by
  cases h with
  | spares hcommand h =>
    refine (atomic_spares h).mono fun r t ⟨⟨hkeeps, hr⟩, hsame⟩ => ?_
    refine handles_of_still ((hs.same hsame).mono hkeeps.2) hsame.channel hr.transfer ?_ ?_
    · cases command <;> first | rfl | cases hcommand
    · rintro rfl
      cases hcommand
  | port argument => exact onPort_atomic hs argument
  | pasv => exact onPasv_atomic hs
  | abor => exact onAbor_atomic hs
  | quit => exact onQuit_atomic hs
  | opens hcommand h =>
    refine withData_atomic hs hc (hlogin ?_) h hcommand
    cases command with
    | list | retr | stor => rfl
    | _ => cases hcommand

theorem perform_atomic (hs : AtBoundary c s) (hc : c.IsPlain) (command : Command) :
    (perform ctx c command).Meets Scene.atomic (HandlesAs verdict c s.channel command) s := by
  refine (note_atomic _ s).bind fun _ t hsame => ?_
  have hboundary := hs.same hsame
  have hchannel := hsame.channel
  unfold handle
  split
  next hgate =>
    simp only [Bool.and_eq_true, Bool.not_eq_true'] at hgate
    obtain ⟨hrequires, hout⟩ := hgate
    refine ⟨hboundary, fun h => .inl (hchannel ▸ h), fun h => hchannel ▸ h, fun h => ?_,
      fun _ hin => ?_, fun _ hin => ?_, ?_⟩
    · simp [loginFirst, Outcome.failure] at h
    · cases hout.symm.trans hin
    · cases hout.symm.trans hin
    · rintro rfl
      cases hrequires
  next hgate =>
    simp only [Bool.and_eq_true, Bool.not_eq_true', not_and, Bool.not_eq_false] at hgate
    have hdispatch : (dispatch ctx c command).Meets Scene.atomic
      (HandlesAs verdict c t.channel command) t :=
      (dispatch_cases ctx hc command).atomic hboundary hc hgate
    rwa [hchannel] at hdispatch

/-- How a channel is left by the delivery of an outcome: with the transfer that was announced, unless
its announcement could not be sent. -/
structure Delivers (c : Client) (o : Outcome) (ch : Channel) (onward : Onward) (t : Scene) :
    Prop where
  atBoundary : AtBoundary c t
  settles : o.transfer = none → ch.Settles t.channel
  begins : o.transfer.isSome = true → t.channel = .busy ∨ t.channel = .ready ∧ onward = .stop

theorem conclude_atomic (c : Client) (command : Command) (status : Status) (s : Scene) :
    (conclude c command status).Meets atomic (fun _ t => s.SameService t) s :=
  (atomic_spares (conclude_spares c command status)).mono fun _ _ h => h.2

theorem deliver_atomic (hs : AtBoundary c s) (command : Command)
    (ho : o.transfer.isSome = true → s.channel = .ready ∧ o.IsUntaken) :
    (deliver c command o).Meets atomic (fun onward t => Delivers c o s.channel onward t) s := by
  have hsend : (sendOutcome c o).Keeps (fun _ _ => True) (fun q => q.sparesSlot = true)
      fun _ => True :=
    (sendOutcome_onlyControl c o).weaken (fun _ _ h => h) fun q hq => by
      cases q <;> first | rfl | cases hq
  refine (atomic_spared hsend hs.since (fun hs hmove => hs.move hmove) fun hs h => hs.same h).bind
    fun onward t ⟨_, hboundary, hsettles⟩ => ?_
  cases htransfer : o.transfer with
  | none =>
    cases onward with
    | stop => exact ⟨hboundary, fun _ => hsettles, fun h => by simp [htransfer] at h⟩
    | goOn =>
      refine (conclude_atomic c command o.status t).mono fun onward u hsame => ?_
      exact ⟨hboundary.same hsame, fun _ => hsame.channel ▸ hsettles,
        fun h => by simp [htransfer] at h⟩
  | some transfer =>
    obtain ⟨hready, huntaken⟩ := ho (by simp [htransfer])
    -- Only a transfer under way ends by itself, so the announcement finds the channel as it was.
    have hready : t.channel = .ready := by
      rw [hready] at hsettles
      rcases hsettles with hsame | ⟨hbusy, -⟩
      · exact hsame
      · cases hbusy
    cases onward with
    | stop => exact ⟨hboundary, fun h => by simp [htransfer] at h, fun _ => .inr ⟨hready, rfl⟩⟩
    | goOn =>
      refine atomic_question rfl fun u hsame r s' hperform => ?_
      obtain ⟨-, rfl⟩ := Prod.mk.inj (Option.some.inj hperform)
      have hboundary := hboundary.same hsame
      have hready := hsame.channel.trans hready
      obtain ⟨n, hheld, hattends, huncancelled⟩ := hboundary.attended (by rw [hready]; simp)
      have hfree := Slot.inProgress_eq_false.1 (channel_eq_ready.1 hready).2
      have hinstalled := hattends.install huncancelled hfree (huntaken transfer htransfer)
      have hboundary' : AtBoundary c (u.withSlot (u.shared.slot.install transfer)) :=
        ⟨.attended n hheld hinstalled huncancelled, fun _ => huncancelled, hboundary.mode⟩
      have hbusy : (u.withSlot (u.shared.slot.install transfer)).channel = .busy :=
        channel_eq_busy.2 ⟨hattends.armed, rfl⟩
      refine (conclude_atomic c command o.status _).mono fun onward v hsame => ?_
      exact ⟨hboundary'.same hsame, fun h => by simp [htransfer] at h,
        fun _ => .inl (hsame.channel.trans hbusy)⟩

end Session

end FtpServer
