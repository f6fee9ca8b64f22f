import FtpServer.Proofs.Advance
import FtpServer.Proofs.ControlRules

/-!
# One holder of the control connection

A worker takes the control connection before it leaves the slot, sends its report, if it has one,
and gives the connection up.  Meanwhile nobody else has it.
-/

namespace FtpServer

def Phase.holdsControl : Phase → Bool
  | .releasing _ | .reporting _ | .unlocking => true
  | _ => false

/-- A worker has taken a transfer, and may still report on it. -/
def Phase.hasTransfer : Phase → Bool
  | .waiting _ | .unlocking | .leaving | .ended => false
  | _ => true

def Reply.IsReport (reply : Reply) : Prop :=
  reply.code = 226 ∨ reply.code = 425 ∨ reply.code = 451

namespace Worker

def Move.usesControl : Move → Bool
  | .lock | .release | .report | .unlock => true
  | _ => false

variable {w w' : Worker} {m : Move} {s s' : Shared}

/-- The worker takes the stream of the transfer that is in the slot. -/
def Takes (w : Worker) (s : Shared) (m : Move) (w' : Worker) : Prop :=
  m = .look ∧ ∃ direction stream deadline, s.slot.handle = some ⟨direction, some stream⟩ ∧
    w.phase.stage = .waiting ∧ w'.phase = .connecting direction stream deadline

inductive ControlMove (w : Worker) (s : Shared) : Move → Worker → Shared → Prop
  | works {m : Move} {w' : Worker} {s' : Shared} (hmove : m.usesControl = false)
      (hcontrol : s'.control = s.control) (hholds : w.phase.holdsControl = false)
      (hholds' : w'.phase.holdsControl = false)
      (hreply : ∀ reply, w'.phase.reply? = some reply → reply.IsReport)
      (htransfer : w'.phase.hasTransfer = true → w.phase.hasTransfer = true ∨ w.Takes s m w') :
      ControlMove w s m w' s'
  | locks {w' : Worker} {s' : Shared} {reply : Option Reply} (hphase : w.phase = .retiring reply)
      (hfree : s.control.holder = none) (hphase' : w'.phase = .releasing reply)
      (hcontrol : s'.control = { s.control with holder := some (.worker w.number) }) :
      ControlMove w s .lock w' s'
  | releases {w' : Worker} {s' : Shared} {reply : Option Reply}
      (hphase : w.phase = .releasing reply)
      (hphase' : w'.phase = .unlocking ∨ ∃ r, reply = some r ∧ w'.phase = .reporting r)
      (hcontrol : s'.control = s.control) : ControlMove w s .release w' s'
  | reports {w' : Worker} {s' : Shared} {reply : Reply} (hphase : w.phase = .reporting reply)
      (hphase' : w'.phase = .unlocking)
      (hcontrol : s'.control = (s.control.write (.worker w.number) reply).2) :
      ControlMove w s .report w' s'
  | unlocks {w' : Worker} {s' : Shared} (hphase : w.phase = .unlocking)
      (hphase' : w'.phase = .ended) (hcontrol : s'.control = s.control.unlock) :
      ControlMove w s .unlock w' s'

theorem not_ended_of_move (h : w.move? m s = some (w', s')) : w.phase ≠ .ended := fun hphase => by
  simp [move?, hphase] at h

theorem number_of_move (h : w.move? m s = some (w', s')) : w'.number = w.number := by
  rw [enter_of_move h]
  rfl

@[simp] theorem isReport_cannotConnect : cannotConnect.IsReport := .inr (.inl rfl)

@[simp] theorem isReport_complete : complete.IsReport := .inl rfl

@[simp] theorem isReport_failed : failed.IsReport := .inr (.inr rfl)

theorem ControlMove.of_enter {phase : Phase} {s₁ : Shared}
    (h : some (w.enter phase, s₁) = some (w', s')) (hmove : m.usesControl = false)
    (hcontrol : s₁.control = s.control) (hholds : w.phase.holdsControl = false)
    (hholds' : phase.holdsControl = false)
    (hreply : ∀ reply, phase.reply? = some reply → reply.IsReport)
    (htransfer : phase.hasTransfer = true → w.phase.hasTransfer = true) :
    ControlMove w s m w' s' := by
  obtain ⟨rfl, rfl⟩ := Prod.mk.inj (Option.some.inj h)
  exact .works hmove hcontrol hholds hholds' hreply fun h => .inl (htransfer h)

theorem controlMove_of_look {waiter : Slot.Waiter} (hphase : w.phase = .waiting waiter)
    (h : w.move? .look s = some (w', s')) : ControlMove w s .look w' s' := by
  have hholds : w.phase.holdsControl = false := by rw [hphase]; rfl
  have hstage : w.phase.stage = .waiting := by rw [hphase]; rfl
  have hcontrol : s'.control = s.control := by
    unfold move? at h
    rw [hphase] at h
    dsimp only at h
    repeat' split at h
    all_goals
      first
        | (obtain ⟨-, rfl⟩ := Prod.mk.inj (Option.some.inj h); rfl)
        | cases h
  cases advance_of_look hphase h with
  | looksInVain _ _ _ hphase' | givesUp _ _ _ hphase' =>
    refine .works rfl hcontrol hholds ?_ ?_ ?_
    all_goals simp [hphase', Phase.holdsControl, Phase.reply?, Phase.hasTransfer]
  | takes _ _ hlook hphase' =>
    refine .works rfl hcontrol hholds ?_ ?_ fun _ => .inr ?_
    · rw [hphase']; rfl
    · simp [hphase', Phase.reply?]
    · exact ⟨rfl, _, _, _, Slot.Waiter.poll_ready hlook, hstage, hphase'⟩
  | serves _ hserving | leaves _ hserving | windsUp _ hserving =>
    rw [hstage] at hserving
    cases hserving

/-- A worker that has its transfer, and has not come to its end, says nothing. -/
theorem controlMove_of_working (hholds : w.phase.holdsControl = false)
    (htransfer : w.phase.hasTransfer = true) (hretiring : ∀ reply, w.phase ≠ .retiring reply)
    (h : w.move? m s = some (w', s')) : ControlMove w s m w' s' := by
  have hworks : ∀ {phase : Phase} {s₁ : Shared}, some (w.enter phase, s₁) = some (w', s') →
      m.usesControl = false → s₁.control = s.control → phase.holdsControl = false →
      (∀ reply, phase.reply? = some reply → reply.IsReport) → ControlMove w s m w' s' :=
    fun h hmove hcontrol hholds' hreply =>
      .of_enter h hmove hcontrol hholds hholds' hreply fun _ => htransfer
  cases hphase : w.phase with
  | waiting | unlocking | leaving | ended => rw [hphase] at htransfer; cases htransfer
  | retiring reply => exact absurd hphase (hretiring reply)
  | releasing | reporting => rw [hphase] at hholds; cases hholds
  | connecting | checking | reading | writing | closing | recording =>
    unfold move? at h
    rw [hphase] at h
    dsimp only at h
    repeat' split at h
    all_goals
      first
        | contradiction
        | exact hworks h rfl rfl rfl (by simp [Phase.reply?])

theorem controlMove_of_move (h : w.move? m s = some (w', s')) : ControlMove w s m w' s' := by
  cases hphase : w.phase with
  | waiting waiter =>
    cases m with
    | look => exact controlMove_of_look hphase h
    | _ => simp [move?, hphase] at h
  | connecting | checking | reading | writing | closing | recording =>
    exact controlMove_of_working (by rw [hphase]; rfl) (by rw [hphase]; rfl) (by simp [hphase]) h
  | retiring reply =>
    cases m with
    | lock =>
      simp only [move?, hphase, Option.map_eq_some_iff, Control.lock] at h
      obtain ⟨control, hlock, h⟩ := h
      obtain ⟨rfl, rfl⟩ := Prod.mk.inj h
      split at hlock
      next hfree => exact .locks hphase hfree rfl (Option.some.inj hlock).symm
      next => cases hlock
    | _ => simp [move?, hphase] at h
  | releasing reply =>
    cases m with
    | release =>
      simp only [move?, hphase] at h
      obtain ⟨rfl, rfl⟩ := Prod.mk.inj (Option.some.inj h)
      refine .releases hphase ?_ rfl
      cases reply with
      | none => exact .inl rfl
      | some r =>
        cases hcancelled : s.slot.cancelled with
        | true => exact .inl (by simp [enter])
        | false => exact .inr ⟨r, rfl, by simp [enter]⟩
    | _ => simp [move?, hphase] at h
  | reporting reply =>
    cases m with
    | report =>
      simp only [move?, hphase] at h
      obtain ⟨rfl, rfl⟩ := Prod.mk.inj (Option.some.inj h)
      exact .reports hphase rfl rfl
    | _ => simp [move?, hphase] at h
  | unlocking =>
    cases m with
    | unlock =>
      simp only [move?, hphase] at h
      obtain ⟨rfl, rfl⟩ := Prod.mk.inj (Option.some.inj h)
      exact .unlocks hphase rfl rfl
    | _ => simp [move?, hphase] at h
  | leaving =>
    cases m with
    | leave =>
      simp only [move?, hphase] at h
      exact .of_enter h rfl rfl (by rw [hphase]; rfl) rfl (by simp [Phase.reply?]) (by
        simp [Phase.hasTransfer])
    | _ => simp [move?, hphase] at h
  | ended => simp [move?, hphase] at h

/-- Worker `n` has the control connection just when it is about to release the slot, to report or
to unlock, and every reply that it still has to give has the code of a report. -/
structure ControlSound (holder : Option Party) (n : Nat) (w : Worker) : Prop where
  numbered : w.number = n
  holds : w.phase.holdsControl = true ↔ holder = some (.worker n)
  reports : ∀ reply, w.phase.reply? = some reply → reply.IsReport

theorem controlSound_start (n : Nat) (endpoint : Endpoint) (bufferSize timeoutMs : Nat)
    {holder : Option Party} (hholder : holder ≠ some (.worker n)) :
    (start n endpoint bufferSize timeoutMs).ControlSound holder n where
  numbered := rfl
  holds := by simp [start, Phase.holdsControl, hholder]
  reports := by simp [start, Phase.reply?]

end Worker

theorem Control.write_cases (c : Control) (p : Party) (r : Reply) :
    c.write p r = (.ok (), { c with sent := c.sent ++ [(p, r)] }) ∨
      c.write p r = (.error .brokenPipe, c) := by
  unfold write
  split
  next => exact .inl rfl
  next => exact .inr rfl

theorem Control.holder_write (c : Control) (p : Party) (r : Reply) :
    (c.write p r).2.holder = c.holder := by
  rcases c.write_cases p r with h | h <;> rw [h]

namespace Worker

variable {w w' : Worker} {m : Move} {s s' : Shared} {n : Nat}

/-- No move of a worker gives the control connection to anybody else, or takes it from them. -/
theorem ControlMove.controlSound (hact : w.ControlMove s m w' s') (hnumber : w'.number = w.number)
    (h : w.ControlSound s.control.holder n) :
    w'.ControlSound s'.control.holder n ∧
      ∀ p, p ≠ .worker n → (s'.control.holder = some p ↔ s.control.holder = some p) := by
  have hnumber := hnumber.trans h.numbered
  cases hact with
  | works _ hcontrol hholds hholds' hreply =>
    rw [hcontrol]
    refine ⟨⟨hnumber, ?_, hreply⟩, fun p _ => Iff.rfl⟩
    rw [← h.holds, hholds, hholds']
  | locks hphase hfree hphase' hcontrol =>
    have hreply := h.reports
    rw [hphase] at hreply
    rw [hcontrol, h.numbered, hfree]
    refine ⟨⟨hnumber, ?_, ?_⟩, fun p hp => ?_⟩
    · simp [hphase', Phase.holdsControl]
    · rw [hphase']
      exact hreply
    · simp [Ne.symm hp]
  | @releases _ _ reply hphase hphase' hcontrol =>
    have hholds := h.holds
    have hreply := h.reports
    rw [hphase] at hholds hreply
    rw [hcontrol]
    refine ⟨⟨hnumber, ?_, ?_⟩, fun p _ => Iff.rfl⟩
    · rw [← hholds]
      rcases hphase' with hphase' | ⟨r, -, hphase'⟩ <;> simp [hphase', Phase.holdsControl]
    · rcases hphase' with hphase' | ⟨r, rfl, hphase'⟩
      · simp [hphase', Phase.reply?]
      · rw [hphase']
        exact hreply
  | reports hphase hphase' hcontrol =>
    have hholds := h.holds
    rw [hphase] at hholds
    rw [hcontrol, Control.holder_write]
    refine ⟨⟨hnumber, ?_, ?_⟩, fun p _ => Iff.rfl⟩
    · rw [← hholds, hphase']
      rfl
    · simp [hphase', Phase.reply?]
  | unlocks hphase hphase' hcontrol =>
    have hholder : s.control.holder = some (.worker n) := h.holds.1 (by rw [hphase]; rfl)
    rw [hcontrol, hholder]
    refine ⟨⟨hnumber, ?_, ?_⟩, fun p hp => ?_⟩
    · simp [hphase', Phase.holdsControl, Control.unlock]
    · simp [hphase', Phase.reply?]
    · simp [Control.unlock, Ne.symm hp]

end Worker

theorem Reply.IsReport.not_last {reply : Reply} (h : reply.IsReport) :
    isFinalCode reply.code = false := by
  rcases h with h | h | h <;> simp [h, isFinalCode]

theorem Phase.ended_of_gone {phase : Phase} (hgone : phase.stage = .gone)
    (hholds : phase.holdsControl = false) : phase = .ended := by
  cases phase <;> first | rfl | contradiction

namespace Scene

variable {s s' : Scene} {g : ReplyState} {number : Nat} {m : Worker.Move} {q : Request} {r : q.Answer}

def EndsAtFinalReply (sent : List (Party × Reply)) (finished : Bool) : Prop :=
  ∀ before x after, sent = before ++ x :: after → isFinalCode x.2.code = true →
    after = [] ∧ finished = true

theorem EndsAtFinalReply.snoc {sent : List (Party × Reply)} (h : EndsAtFinalReply sent false)
    (x : Party × Reply) : EndsAtFinalReply (sent ++ [x]) (isFinalCode x.2.code) := by
  intro before y after hsent hy
  rcases List.eq_nil_or_concat after with rfl | ⟨init, z, rfl⟩
  · obtain ⟨-, hlast⟩ := List.append_inj' hsent rfl
    obtain rfl := List.singleton_inj.1 hlast
    exact ⟨rfl, hy⟩
  · rw [List.concat_eq_append, ← List.cons_append, ← List.append_assoc] at hsent
    obtain ⟨hinit, -⟩ := List.append_inj' hsent rfl
    cases (h before y init hinit hy).2

/-- Whoever sends has the control connection, and nothing is sent after the final reply. -/
structure ExclusiveControl (s : Scene) (g : ReplyState) : Prop where
  session : g.holds = true ↔ s.shared.control.holder = some .session
  workers :
    ∀ (n : Nat) (w : Worker), s.workers[n]? = some w → w.ControlSound s.shared.control.holder n
  holder : ∀ n, s.shared.control.holder = some (.worker n) → n < s.workers.length
  finished : g.finished = true → ∀ (n : Nat) (w : Worker), s.workers[n]? = some w → w.phase = .ended
  last : EndsAtFinalReply s.shared.control.sent g.finished

theorem ExclusiveControl.move (h : s.ExclusiveControl g) (hmove : s.moveWorker? number m = some s') :
    s'.ExclusiveControl g := by
  obtain ⟨w, w', hw, hmoved, hw', hothers⟩ := workers_of_moveWorker hmove
  have hact := Worker.controlMove_of_move hmoved
  have hnumber := Worker.number_of_move hmoved
  obtain ⟨hsound, hholder⟩ := hact.controlSound hnumber (h.workers number w hw)
  have hfinished : g.finished = false := by
    cases hfinished : g.finished with
    | false => rfl
    | true => exact absurd (h.finished hfinished number w hw) (Worker.not_ended_of_move hmoved)
  refine ⟨?_, fun n v hv => ?_, fun n hn => ?_, fun htrue => ?_, ?_⟩
  · rw [hholder .session (by simp)]
    exact h.session
  · by_cases hn : n = number
    · subst hn
      exact Option.some.inj (hw'.symm.trans hv) ▸ hsound
    · obtain ⟨hnumbered, hholds, hreports⟩ := h.workers n v (hothers n hn ▸ hv)
      refine ⟨hnumbered, ?_, hreports⟩
      rw [hholder (.worker n) (by simpa using hn)]
      exact hholds
  · by_cases hsame : n = number
    · subst hsame
      exact (List.getElem?_eq_some_iff.1 hw').1
    · have hold := h.holder n ((hholder (.worker n) (by simpa using hsame)).1 hn)
      have hsome : s'.workers[n]? = some s.workers[n] :=
        (hothers n hsame).trans (List.getElem?_eq_getElem hold)
      exact (List.getElem?_eq_some_iff.1 hsome).1
  · cases hfinished.symm.trans htrue
  · have hlast := h.last
    cases hact with
    | works _ hcontrol | releases _ _ hcontrol => rwa [hcontrol]
    | locks _ _ _ hcontrol | unlocks _ _ hcontrol => rw [hcontrol]; exact hlast
    | @reports _ _ reply hphase _ hcontrol =>
      have hreport : reply.IsReport :=
        (h.workers number w hw).reports reply (by rw [hphase]; rfl)
      rw [hcontrol]
      rcases Control.sent_write s.shared.control (.worker w.number) reply with hsame | hsnoc
      · rw [hsame]
        exact hlast
      · rw [hfinished] at hlast ⊢
        rw [hsnoc, ← hreport.not_last]
        exact hlast.snoc (.worker w.number, reply)

/-- What is neither about the control connection nor starts a worker. -/
theorem still_of_perform (hcontrol : q.sparesControl = true)
    (hstart : ∀ endpoint, q ≠ .startWorker endpoint) (h : s.perform? q = some (r, s')) :
    s'.shared.control = s.shared.control ∧ s'.workers = s.workers := by
  cases q with
  | startWorker endpoint => exact absurd rfl (hstart endpoint)
  | lockControl | writeReply | shutControl | unlockControl => cases hcontrol
  | file call =>
    obtain rfl : (s.performFile call).2 = s' := congrArg Prod.snd (Option.some.inj h)
    cases call <;> exact ⟨rfl, rfl⟩
  | listen ip =>
    obtain ⟨-, rfl⟩ := Prod.mk.inj (Option.some.inj h)
    cases s.listenFault <;> exact ⟨rfl, rfl⟩
  | joinWorker number =>
    simp only [perform?] at h
    split at h
    next => cases h; exact ⟨rfl, rfl⟩
    next => cases h
  | _ =>
    cases h
    exact ⟨rfl, rfl⟩

theorem ExclusiveControl.still {g' : ReplyState} (h : s.ExclusiveControl g)
    (hholds : g'.holds = g.holds)
    (hfinished : g'.finished = g.finished) (hcontrol : s'.shared.control = s.shared.control)
    (hworkers : s'.workers = s.workers) : s'.ExclusiveControl g' := by
  refine ⟨?_, ?_, ?_, ?_, ?_⟩
  · rw [hholds, hcontrol]
    exact h.session
  · rw [hcontrol, hworkers]
    exact h.workers
  · rw [hcontrol, hworkers]
    exact h.holder
  · rw [hfinished, hworkers]
    exact h.finished
  · rw [hfinished, hcontrol]
    exact h.last

theorem ExclusiveControl.startWorker (h : s.ExclusiveControl g) (hfinished : g.finished = false)
    {endpoint : Endpoint}
    {r : Unit} (hperform : s.perform? (.startWorker endpoint) = some (r, s')) :
    s'.ExclusiveControl (g.ask (.startWorker endpoint) r) := by
  obtain ⟨-, rfl⟩ := Prod.mk.inj (Option.some.inj hperform)
  refine ⟨h.session, fun n w hw => ?_, fun n hn => ?_, fun htrue => ?_, h.last⟩
  · dsimp only at hw ⊢
    rcases Nat.lt_trichotomy n s.workers.length with hlt | rfl | hgt
    · rw [List.getElem?_append_left hlt] at hw
      exact h.workers n w hw
    · rw [List.getElem?_concat_length] at hw
      obtain rfl := Option.some.inj hw
      refine Worker.controlSound_start _ _ _ _ fun hholder => ?_
      have hlt := h.holder _ hholder
      omega
    · rw [List.getElem?_eq_none (by simp; omega)] at hw
      cases hw
  · have hlt := h.holder n hn
    simp only [List.length_append, List.length_singleton]
    omega
  · cases hfinished.symm.trans htrue

theorem ExclusiveControl.lock (h : s.ExclusiveControl g) {r : Unit}
    (hperform : s.perform? .lockControl = some (r, s')) :
    s'.ExclusiveControl (g.ask .lockControl r) := by
  obtain ⟨control, hlock, hsome⟩ := Option.map_eq_some_iff.1 hperform
  obtain ⟨-, rfl⟩ := Prod.mk.inj hsome
  unfold Control.lock at hlock
  split at hlock
  next hfree =>
    obtain rfl := Option.some.inj hlock
    refine ⟨by simp [ReplyState.ask, withControl, withShared], fun n w hw => ?_, fun n hn => ?_,
      h.finished, h.last⟩
    · obtain ⟨hnumbered, hholds, hreports⟩ := h.workers n w hw
      refine ⟨hnumbered, ?_, hreports⟩
      rw [hholds, hfree]
      simp [withControl, withShared]
    · simp [withControl, withShared] at hn
  next => cases hlock

theorem ExclusiveControl.unlock (h : s.ExclusiveControl g) (hholds : g.holds = true) {r : Unit}
    (hperform : s.perform? .unlockControl = some (r, s')) :
    s'.ExclusiveControl (g.ask .unlockControl r) := by
  obtain ⟨-, rfl⟩ := Prod.mk.inj (Option.some.inj hperform)
  have hholder := h.session.1 hholds
  refine ⟨by simp [ReplyState.ask, withControl, withShared, Control.unlock], fun n w hw => ?_,
    fun n hn => ?_, h.finished, h.last⟩
  · obtain ⟨hnumbered, hholds, hreports⟩ := h.workers n w hw
    refine ⟨hnumbered, ?_, hreports⟩
    rw [hholds, hholder]
    simp [withControl, withShared, Control.unlock]
  · simp [withControl, withShared, Control.unlock] at hn

/-- While the session has the control connection, whoever has left the slot has ended. -/
theorem ExclusiveControl.ended (h : s.ExclusiveControl g) (hholds : g.holds = true) {n : Nat}
    {w : Worker}
    (hw : s.workers[n]? = some w) (hgone : w.phase.stage = .gone) : w.phase = .ended := by
  refine Phase.ended_of_gone hgone ?_
  have hholder := h.session.1 hholds
  cases hholding : w.phase.holdsControl with
  | false => rfl
  | true =>
    have hworker := (h.workers n w hw).holds.1 hholding
    simp [hholder] at hworker

theorem ExclusiveControl.write (h : s.ExclusiveControl g) {reply : Reply}
    (hmayAsk : s.MayAskControl g (.writeReply reply))
    {r : Except OsError Unit} (hperform : s.perform? (.writeReply reply) = some (r, s')) :
    s'.ExclusiveControl (g.ask (.writeReply reply) r) := by
  obtain ⟨hholds, hfinished, hlast⟩ := hmayAsk
  obtain ⟨hr, rfl⟩ := Prod.mk.inj (Option.some.inj hperform)
  rcases s.shared.control.write_cases .session reply with hwrite | hwrite
  · rw [hwrite] at hr ⊢
    obtain rfl : Except.ok () = r := hr
    have hsent := h.last
    rw [hfinished] at hsent
    have hsaid : (g.ask (.writeReply reply) (.ok ())).finished = isFinalCode reply.code := by
      simp [ReplyState.ask, hfinished]
    refine ⟨h.session, h.workers, h.holder, fun hfinal n w hw => ?_, ?_⟩
    · rw [hsaid] at hfinal
      exact h.ended hholds hw (hlast hfinal n w hw)
    · rw [hsaid]
      exact hsent.snoc (.session, reply)
  · rw [hwrite] at hr ⊢
    obtain rfl : Except.error .brokenPipe = r := hr
    exact h.still rfl rfl rfl rfl

/-- Where it may be asked, a question leaves the control connection in order. -/
theorem ExclusiveControl.ask (h : s.ExclusiveControl g) (hmayAsk : s.MayAskControl g q)
    (hperform : s.perform? q = some (r, s')) : s'.ExclusiveControl (g.ask q r) := by
  cases q with
  | lockControl => exact h.lock hperform
  | writeReply reply => exact h.write hmayAsk hperform
  | unlockControl => exact h.unlock hmayAsk hperform
  | startWorker endpoint => exact h.startWorker hmayAsk hperform
  | shutControl =>
    obtain ⟨-, rfl⟩ := Prod.mk.inj (Option.some.inj hperform)
    exact ⟨h.session, h.workers, h.holder, h.finished, h.last⟩
  | _ =>
    obtain ⟨hcontrol, hworkers⟩ := still_of_perform rfl (by simp) hperform
    exact h.still rfl rfl hcontrol hworkers

theorem ExclusiveControl.pass (h : s.ExclusiveControl g) (ms : Nat) :
    (s.pass ms).ExclusiveControl g :=
  ⟨h.session, h.workers, h.holder, h.finished, h.last⟩

end Scene

end FtpServer
