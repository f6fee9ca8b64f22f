import FtpServer.Proofs.SlotRules
import FtpServer.Proofs.EmptySlot
import FtpServer.Proofs.ReplyOrder

/-!
# How transfers end

A transfer is ended by the report of its worker or by the reply to an `ABOR`.  Whoever leaves the
slot before it is cancelled reports, and whoever leaves it afterwards does not.
-/

namespace FtpServer

open Program Dialogue

/-- A worker has left its transfer, or never had one, and will report nothing. -/
def Phase.hasGivenUp : Phase → Bool
  | .retiring none | .releasing none | .leaving => true
  | _ => false

namespace Worker

variable {w w' : Worker} {m : Move} {s s' : Shared} {reply : Reply}

/-- Only who leaves the slot before it is cancelled has something to report. -/
theorem reporting_of_move (h : w.move? m s = some (w', s'))
    (hphase' : w'.phase = .reporting reply) :
    w.phase = .releasing (some reply) ∧ m = .release ∧ s.slot.cancelled = false := by
  cases controlMove_of_move h with
  | works _ _ _ hholds' => rw [hphase'] at hholds'; cases hholds'
  | locks _ _ hphase | reports _ hphase | unlocks _ hphase => cases hphase'.symm.trans hphase
  | @releases _ _ held hphase =>
    simp only [move?, hphase] at h
    obtain ⟨rfl, -⟩ := Prod.mk.inj (Option.some.inj h)
    cases held with
    | none => cases hphase'
    | some reply' =>
      cases hcancelled : s.slot.cancelled with
      | true => simp [enter, hcancelled] at hphase'
      | false =>
        obtain rfl : reply' = reply := by simpa [enter, hcancelled] using hphase'
        exact ⟨hphase, rfl, rfl⟩

theorem reporting_of_report (h : w.move? .report s = some (w', s')) :
    ∃ reply, w.phase = .reporting reply ∧ w'.phase = .unlocking := by
  cases hphase : w.phase with
  | reporting reply =>
    simp only [move?, hphase] at h
    obtain ⟨rfl, -⟩ := Prod.mk.inj (Option.some.inj h)
    exact ⟨reply, rfl, rfl⟩
  | _ => simp [move?, hphase] at h

theorem report_of_reporting (h : w.move? m s = some (w', s'))
    (hphase : w.phase = .reporting reply) : m = .report := by
  cases m with
  | report => rfl
  | _ => simp [move?, hphase] at h

theorem hasGivenUp_of_move (h : w.move? m s = some (w', s'))
    (huncancelled : s.slot.cancelled = false)
    (hup : w'.phase.hasGivenUp = true) : w.phase.hasGivenUp = true := by
  unfold move? at h
  repeat' split at h
  all_goals
    first
      | contradiction
      | (obtain ⟨rfl, -⟩ := Prod.mk.inj (Option.some.inj h)
         first
           | exact absurd hup Bool.false_ne_true
           | (rename_i hcancelled
              cases huncancelled.symm.trans hcancelled)
           | (rename_i hlook
              cases huncancelled.symm.trans (Slot.Waiter.poll_cancelled (congrArg Prod.fst hlook))))
      -- Whoever gets the control connection keeps the reply that it wanted it for.
      | (rename_i reply hphase
         obtain ⟨control, -, h⟩ := Option.map_eq_some_iff.1 h
         obtain ⟨rfl, -⟩ := Prod.mk.inj h
         rw [hphase]
         cases reply <;> exact hup)

theorem reporting_of_leave (h : w.move? m s = some (w', s')) (hleaves : m.leavesSlot = true)
    (huncancelled : s.slot.cancelled = false) (hup : w.phase.hasGivenUp = false) :
    ∃ reply, w'.phase = .reporting reply := by
  cases m with
  | release =>
    cases hphase : w.phase with
    | releasing held =>
      cases held with
      | none => rw [hphase] at hup; cases hup
      | some reply =>
        simp only [move?, hphase, huncancelled] at h
        obtain ⟨rfl, -⟩ := Prod.mk.inj (Option.some.inj h)
        exact ⟨reply, rfl⟩
    | _ => simp [move?, hphase] at h
  | leave =>
    cases hphase : w.phase with
    | leaving => rw [hphase] at hup; cases hup
    | _ => simp [move?, hphase] at h
  | _ => cases hleaves

/-- Whoever begins to serve was cancelled or has found a transfer. -/
theorem Advance.serving (h : Advance w s m w' s') (hstage' : w'.phase.stage = .serving) :
    w.phase.stage = .serving ∨ s.slot.cancelled = true ∨ s.slot.handle ≠ none := by
  cases h with
  | looksInVain _ _ _ hphase' => rw [hphase'] at hstage'; cases hstage'
  | givesUp _ _ hlook => exact .inr (.inl (Slot.Waiter.poll_cancelled hlook))
  | takes _ _ hlook => exact .inr (.inr (by simp [Slot.Waiter.poll_ready hlook]))
  | serves _ hstage => exact .inl hstage
  | leaves _ _ hgone | windsUp _ _ hgone => cases hstage'.symm.trans hgone

end Worker

namespace Scene

variable {s s' : Scene} {n number : Nat} {m : Worker.Move} {q : Request} {r : q.Answer}
variable {g : Gate}

def NoReportDue (s : Scene) : Prop :=
  ∀ (i : Nat) (w : Worker), s.workers[i]? = some w → ∀ reply, w.phase ≠ .reporting reply

def Unserved (s : Scene) : Prop :=
  ∀ (i : Nat) (w : Worker), s.workers[i]? = some w → w.phase.stage ≠ .serving

/-- No worker will report on what it may have taken from the slot. -/
structure Spent (s : Scene) : Prop where
  noReportDue : s.NoReportDue
  rests : s.shared.slot.cancelled = true ∨ s.shared.slot.handle = none ∧ s.Unserved

theorem AllGone.unserved (hs : s.AllGone) : s.Unserved := fun i w hw hserving => by
  cases (hs i w hw).symm.trans hserving

theorem NoReportDue.move (hs : s.NoReportDue) (hmove : s.moveWorker? number m = some s')
    (hstays : m = .release → s.shared.slot.cancelled = true ∨ s.Unserved) : s'.NoReportDue := by
  refine each_of_moveWorker hmove hs fun w w' hw hmoved reply hphase => ?_
  obtain ⟨hreleasing, hrelease, huncancelled⟩ := Worker.reporting_of_move hmoved hphase
  rcases hstays hrelease with hcancelled | hunserved
  · cases hcancelled.symm.trans huncancelled
  · exact hunserved number w hw (by rw [hreleasing]; rfl)

theorem Unserved.move (hs : s.Unserved) (huncancelled : s.shared.slot.cancelled = false)
    (hnone : s.shared.slot.handle = none) (hmove : s.moveWorker? number m = some s') :
    s'.Unserved := by
  refine each_of_moveWorker hmove hs fun w w' hw hmoved hserving => ?_
  rcases (Worker.advance_of_move hmoved).serving hserving with hserved | hcancelled | hfull
  · exact hs number w hw hserved
  · cases huncancelled.symm.trans hcancelled
  · exact hfull hnone

theorem Spent.move (hs : s.Spent) (hmove : s.moveWorker? number m = some s') : s'.Spent := by
  refine ⟨hs.noReportDue.move hmove fun _ => hs.rests.imp_right And.right, ?_⟩
  have hcancelled := cancelled_of_moveWorker hmove
  cases huncancelled : s.shared.slot.cancelled with
  | true => exact .inl (hcancelled.trans huncancelled)
  | false =>
    obtain ⟨hnone, hunserved⟩ := hs.rests.resolve_left (by simp [huncancelled])
    exact .inr ⟨handle_of_moveWorker hmove hnone, hunserved.move huncancelled hnone hmove⟩

theorem NoReportDue.same (hs : s.NoReportDue) (hworkers : s'.workers = s.workers) :
    s'.NoReportDue := by
  unfold NoReportDue
  rwa [hworkers]

theorem Spent.same (hs : s.Spent) (hsame : s.SameService s') : s'.Spent := by
  refine ⟨hs.noReportDue.same hsame.workers, ?_⟩
  unfold Unserved
  rw [hsame.slot, hsame.workers]
  exact hs.rests

theorem waiting_of_perform (hperform : s.perform? q = some (r, s')) {i : Nat} {w : Worker}
    (hw : s'.workers[i]? = some w) : s.workers[i]? = some w ∨ w.phase.stage = .waiting := by
  rcases workers_of_perform hperform with hsame | ⟨endpoint, hmore⟩
  · exact .inl (hsame ▸ hw)
  · rw [hmore, List.getElem?_append] at hw
    split at hw
    next => exact .inl hw
    next =>
      obtain rfl := List.mem_singleton.1 (List.mem_of_getElem? hw)
      exact .inr rfl

theorem NoReportDue.ask (hs : s.NoReportDue) (hperform : s.perform? q = some (r, s')) :
    s'.NoReportDue := by
  intro i w hw reply hphase
  rcases waiting_of_perform hperform hw with hw | hwaiting
  · exact hs i w hw reply hphase
  · rw [hphase] at hwaiting
    cases hwaiting

theorem Unserved.ask (hs : s.Unserved) (hperform : s.perform? q = some (r, s')) : s'.Unserved := by
  intro i w hw hserving
  rcases waiting_of_perform hperform hw with hw | hwaiting
  · exact hs i w hw hserving
  · cases hwaiting.symm.trans hserving

/-- Only making the slot ready for a worker takes back that it was cancelled. -/
theorem cancelled_of_perform (hs : s.shared.slot.cancelled = true) (hq : q ≠ .rearm)
    (hperform : s.perform? q = some (r, s')) : s'.shared.slot.cancelled = true := by
  by_cases hspared : q.sparesSlot = true
  · rwa [(same_of_spared hspared hperform).slot]
  · cases q with
    | rearm => exact absurd rfl hq
    | joinWorker number =>
      simp only [perform?] at hperform
      split at hperform
      next => cases hperform; exact hs
      next => cases hperform
    | holdsWorker | letGoWorker | startWorker | isInProgress | isArmed | install | finish =>
      cases hperform
      exact hs
    | cancel => cases hperform; rfl
    | _ => exact absurd rfl hspared

theorem Spent.ask (hs : s.Spent) (hinstall : ∀ transfer, q ≠ .install transfer)
    (hrearm : q = .rearm → s.Unserved) (hperform : s.perform? q = some (r, s')) : s'.Spent := by
  refine ⟨hs.noReportDue.ask hperform, ?_⟩
  by_cases hq : q = .rearm
  · have hunserved := (hrearm hq).ask hperform
    subst hq
    cases hperform
    exact .inr ⟨rfl, hunserved⟩
  · refine hs.rests.imp (cancelled_of_perform · hq hperform) fun ⟨hnone, hunserved⟩ => ?_
    refine ⟨?_, hunserved.ask hperform⟩
    rcases handle_of_perform hperform with hsame | ⟨-, hcleared⟩ | ⟨transfer, heq⟩
    · exact hsame.trans hnone
    · exact hcleared
    · exact absurd heq (hinstall transfer)

theorem Attends.unserved (hs : s.Attends n) (huncancelled : s.shared.slot.cancelled = false)
    (hnone : s.shared.slot.handle = none) : s.Unserved := by
  intro i w hw hserving
  obtain ⟨own, hown, hatSlot⟩ := hs.worker
  by_cases hi : i = n
  · subst hi
    obtain rfl := Option.some.inj (hw.symm.trans hown)
    have htaken := hatSlot.of_serving hserving
    rw [huncancelled, hnone] at htaken
    simp at htaken
  · cases (hs.others i w hw hi).symm.trans hserving

/-- Where the slot is in order, nobody serves it while it is empty. -/
theorem MayAskSlot.unserved (hs : s.MayAskSlot g q) (huncancelled : s.shared.slot.cancelled = false)
    (hnone : s.shared.slot.handle = none) : s.Unserved := by
  have hattends : ∀ n, s.Attends n → s.Unserved :=
    fun n hattends => hattends.unserved huncancelled hnone
  have hsound : s.Sound → s.Unserved := fun hsound => by
    cases hsound with
    | alone _ hretired | outlived _ _ hretired => exact hretired.allGone.unserved
    | attended n _ hserved => exact hattends n hserved
  cases q with
  | cancel =>
    rcases hs with ⟨n, hserved⟩ | hretired
    · exact hattends n hserved
    · exact hretired.allGone.unserved
  | joinWorker n =>
    rcases hs with hserved | hretired
    · exact hattends n hserved
    · exact hretired.allGone.unserved
  | finish | rearm | startWorker => exact hs.allGone.unserved
  | install =>
    obtain ⟨n, hready⟩ := hs
    rcases hready.stands with ⟨-, hserved, -⟩ | ⟨-, hretired⟩
    · exact hattends n hserved
    · exact hretired.allGone.unserved
  | _ => exact hsound hs

def NoneGaveUp (s : Scene) : Prop :=
  ∀ (i : Nat) (w : Worker), s.workers[i]? = some w → w.phase.hasGivenUp = true →
    s.shared.slot.cancelled = true

theorem serving_of_hasGivenUp {phase : Phase} (h : phase.hasGivenUp = true) :
    phase.stage = .serving := by
  unfold Phase.hasGivenUp at h
  split at h <;> first | rfl | cases h

theorem NoneGaveUp.move (hs : s.NoneGaveUp) (hmove : s.moveWorker? number m = some s') :
    s'.NoneGaveUp := by
  unfold NoneGaveUp
  rw [cancelled_of_moveWorker hmove]
  refine each_of_moveWorker hmove hs fun w w' hw hmoved hup => ?_
  cases huncancelled : s.shared.slot.cancelled with
  | true => rfl
  | false =>
    have hcancelled := hs number w hw (Worker.hasGivenUp_of_move hmoved huncancelled hup)
    rwa [huncancelled] at hcancelled

theorem NoneGaveUp.same (hs : s.NoneGaveUp) (hsame : s.SameService s') : s'.NoneGaveUp := by
  unfold NoneGaveUp
  rw [hsame.slot, hsame.workers]
  exact hs

theorem NoneGaveUp.ask (hs : s.NoneGaveUp) (hrearm : q = .rearm → s.Unserved)
    (hperform : s.perform? q = some (r, s')) : s'.NoneGaveUp := by
  intro i w hw hup
  have hserving := serving_of_hasGivenUp hup
  rcases waiting_of_perform hperform hw with hw | hwaiting
  · by_cases hq : q = .rearm
    · exact absurd hserving (hrearm hq i w hw)
    · exact cancelled_of_perform (hs i w hw hup) hq hperform
  · cases hwaiting.symm.trans hserving

/-- A reply that ends a transfer: the report of its worker, or the answer that it was aborted. -/
def Event.endsTransfer : Event → Bool
  | .moved _ .report => true
  | .asked (.writeReply reply) (.ok ()) => reply.code = 226
  | _ => false

def Event.leavesOpen (b : Bool) (e : Event) : Bool := e.installs || b && !e.endsTransfer

/-- The transfer that was handed over last has not been ended. -/
def leftOpen (τ : List Event) : Bool := τ.foldl Event.leavesOpen false

variable {b : Bool}

theorem leftOpen_append (τ : List Event) (e : Event) :
    leftOpen (τ ++ [e]) = e.leavesOpen (leftOpen τ) := by
  simp [leftOpen]

/-- The only reply of the session that ends a transfer says that it was aborted. -/
theorem aborts_of_endsTransfer (hends : Event.endsTransfer (.asked q r) = true) :
    ∃ reply, q = .writeReply reply ∧ reply.code = 226 := by
  cases q with
  | writeReply reply =>
    cases r with
    | ok => exact ⟨reply, rfl, of_decide_eq_true hends⟩
    | error => cases hends
  | _ => cases hends

theorem leavesOpen_moved (hm : m ≠ .report) : Event.leavesOpen b (.moved number m) = b := by
  cases m with
  | report => exact absurd rfl hm
  | _ => simp [Event.leavesOpen, Event.installs, Event.endsTransfer]

theorem leavesOpen_asked (hinstall : ∀ transfer, q ≠ .install transfer)
    (hwrite : ∀ reply, q ≠ .writeReply reply) : Event.leavesOpen b (.asked q r) = b := by
  cases q with
  | install transfer => exact absurd rfl (hinstall transfer)
  | writeReply reply => exact absurd rfl (hwrite reply)
  | _ => simp [Event.leavesOpen, Event.installs, Event.endsTransfer]

@[simp] theorem leavesOpen_report : Event.leavesOpen b (.moved number .report) = false := by
  simp [Event.leavesOpen, Event.installs, Event.endsTransfer]

@[simp] theorem leavesOpen_passed (ms : Nat) : Event.leavesOpen b (.passed ms) = b := by
  simp [Event.leavesOpen, Event.installs, Event.endsTransfer]

end Scene

end FtpServer
