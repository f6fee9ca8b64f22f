import FtpServer.Proofs.Aborts
import FtpServer.Proofs.Endings

/-!
# The transfer that is still open

As long as no race is lost, nothing is left that could end a transfer once it was ended: no worker
is about to report, and whoever still serves the slot is told that it was cancelled.  An `ABOR` that
cancels its worker in time leaves nothing to report; where it comes too late, the worker has reported
before the `ABOR` is answered.
-/

namespace FtpServer

open Program Dialogue

namespace Scene

variable {s s' : Scene} {n number : Nat} {m : Worker.Move} {q : Request} {r : q.Answer}
variable {g : Gate} {v : ReplyState} {h : Abort} {b late : Bool} {reply : Reply}

structure Busy (s : Scene) : Prop where
  attended : ∃ n, s.Attends n
  uncancelled : s.shared.slot.cancelled = false
  inProgress : s.shared.slot.inProgress = true

/-- If the transfer that was handed over last has not been ended, its worker is about to do so. -/
def Closing (s : Scene) (b : Bool) : Prop :=
  b = true → ∃ (i : Nat) (w : Worker) (reply : Reply), s.workers[i]? = some w ∧
    w.phase = .reporting reply

/-- What an `ABOR` faces that was told of a transfer, and whose worker has left since or not. -/
def BusyOrClosing (s : Scene) (b : Bool) : Bool → Prop
  | false => s.Busy
  | true => s.Closing b

def UnderAbort (s : Scene) (b : Bool) : Abort → Prop
  | .idle => True
  | .found late => s.held.isSome = true ∧ s.BusyOrClosing b late
  | .letGo late => s.held = none ∧ s.BusyOrClosing b late
  | .nobody => False
  | .stopped false => s.held = none ∧ s.Spent ∧ b = true
  | .stopped true => s.held = none ∧ s.Closing b

/-- What a run leaves of a transfer, which is open or not. -/
structure MatchesOpen (s : Scene) (b : Bool) (h : Abort) : Prop where
  spent : b = false → s.Spent
  noReportDue : s.shared.slot.inProgress = true → s.NoReportDue
  noneGaveUp : s.NoneGaveUp
  underAbort : s.UnderAbort b h

theorem NoReportDue.not_report (hs : s.NoReportDue) : s.moveWorker? number .report = none := by
  cases hmove : s.moveWorker? number .report with
  | none => rfl
  | some s' =>
    obtain ⟨w, w', hw, hmoved, -⟩ := workers_of_moveWorker hmove
    obtain ⟨reply, hphase, -⟩ := Worker.reporting_of_report hmoved
    exact absurd hphase (hs number w hw reply)

theorem NoReportDue.leavesOpen (hs : s.NoReportDue) (hmove : s.moveWorker? number m = some s') :
    Event.leavesOpen b (.moved number m) = b := by
  by_cases hm : m = .report
  · subst hm
    cases hmove.symm.trans hs.not_report
  · exact leavesOpen_moved hm

/-- The worker of a transfer stays with it, or leaves and is about to report. -/
theorem Busy.move (hs : s.Busy) (hnone : s.NoneGaveUp)
    (hmove : s.moveWorker? number m = some s') :
    m.leavesSlot = false ∧ s'.Busy ∨ m.leavesSlot = true ∧ s'.Closing b := by
  obtain ⟨n, hattends⟩ := hs.attended
  rcases hattends.move hmove with ⟨hstays, hattends', hanswers⟩ | ⟨hleaves, -⟩
  · refine .inl ⟨hstays, ⟨n, hattends'⟩, hanswers.cancelled.trans hs.uncancelled, ?_⟩
    exact hanswers.inProgress.trans hs.inProgress
  · obtain ⟨w, w', hw, hmoved, hw', -⟩ := workers_of_moveWorker hmove
    have hkeeps : w.phase.hasGivenUp = false := by
      refine Bool.eq_false_iff.2 fun hup => ?_
      cases hs.uncancelled.symm.trans (hnone number w hw hup)
    obtain ⟨reply, hphase⟩ := Worker.reporting_of_leave hmoved hleaves hs.uncancelled hkeeps
    exact .inr ⟨hleaves, fun _ => ⟨number, w', reply, hw', hphase⟩⟩

theorem Closing.move (hs : s.Closing b) (hmove : s.moveWorker? number m = some s') :
    s'.Closing (Event.leavesOpen b (.moved number m)) := by
  intro hopen
  by_cases hm : m = .report
  · rw [hm, leavesOpen_report] at hopen
    cases hopen
  · rw [leavesOpen_moved hm] at hopen
    obtain ⟨i, u, reply, hu, hphase⟩ := hs hopen
    obtain ⟨w, w', hw, hmoved, -, hothers⟩ := workers_of_moveWorker hmove
    have hi : i ≠ number := by
      rintro rfl
      obtain rfl := Option.some.inj (hw.symm.trans hu)
      exact hm (Worker.report_of_reporting hmoved hphase)
    exact ⟨i, u, reply, (hothers i hi).trans hu, hphase⟩

theorem BusyOrClosing.move (hs : s.BusyOrClosing b late) (hnone : s.NoneGaveUp)
    (hmove : s.moveWorker? number m = some s') :
    s'.BusyOrClosing (Event.leavesOpen b (.moved number m)) (late || m.leavesSlot) := by
  cases late with
  | true => exact Closing.move hs hmove
  | false =>
    rcases Busy.move hs hnone hmove with ⟨hstays, hbusy⟩ | ⟨hleaves, hclosing⟩
    · rw [hstays]
      exact hbusy
    · rw [hleaves]
      exact hclosing

theorem UnderAbort.move (hs : s.UnderAbort b h) (hnone : s.NoneGaveUp)
    (hmove : s.moveWorker? number m = some s') :
    s'.UnderAbort (Event.leavesOpen b (.moved number m)) (h.next (.moved number m)) := by
  have hheld := held_of_moveWorker hmove
  cases h with
  | idle => trivial
  | found late => exact ⟨hheld ▸ hs.1, hs.2.move hnone hmove⟩
  | letGo late => exact ⟨hheld.trans hs.1, hs.2.move hnone hmove⟩
  | nobody => exact hs
  | stopped late =>
    cases late with
    | true => exact ⟨hheld.trans hs.1, hs.2.move hmove⟩
    | false =>
      obtain ⟨hnone, hspent, hopen⟩ := hs
      exact ⟨hheld.trans hnone, hspent.move hmove,
        (hspent.noReportDue.leavesOpen hmove).trans hopen⟩

theorem ExclusiveControl.noReportDue_of_report (hturn : s.ExclusiveControl v)
    (hmove : s.moveWorker? number .report = some s') : s'.NoReportDue := by
  obtain ⟨w, w', hw, hmoved, hw', hothers⟩ := workers_of_moveWorker hmove
  obtain ⟨reply, hphase, hphase'⟩ := Worker.reporting_of_report hmoved
  have hholder := (hturn.workers number w hw).holds.1 (by rw [hphase]; rfl)
  intro i u hu reply' hreporting
  by_cases hi : i = number
  · subst hi
    obtain rfl := Option.some.inj (hw'.symm.trans hu)
    cases hphase'.symm.trans hreporting
  · rw [hothers i hi] at hu
    have hother := (hturn.workers i u hu).holds.1 (by rw [hreporting]; rfl)
    rw [hholder] at hother
    exact hi (Party.worker.inj (Option.some.inj hother)).symm

theorem MatchesOpen.report (ht : s.MatchesOpen b h) (hturn : s.ExclusiveControl v)
    (hunserved : s.shared.slot.cancelled = false → s.shared.slot.handle = none → s.Unserved)
    (hmove : s.moveWorker? number .report = some s') : s'.Spent := by
  have hnone : s.shared.slot.handle = none := by
    rw [← Slot.inProgress_eq_false]
    refine Bool.eq_false_iff.2 fun hbusy => ?_
    have hnobody : s.moveWorker? number .report = none := (ht.noReportDue hbusy).not_report
    cases hmove.symm.trans hnobody
  refine ⟨hturn.noReportDue_of_report hmove, ?_⟩
  cases hcancelled : s.shared.slot.cancelled with
  | true => exact .inl ((cancelled_of_moveWorker hmove).trans hcancelled)
  | false =>
    exact .inr ⟨handle_of_moveWorker hmove hnone,
      (hunserved hcancelled hnone).move hcancelled hnone hmove⟩

theorem MatchesOpen.move (ht : s.MatchesOpen b h) (hturn : s.ExclusiveControl v)
    (hunserved : s.shared.slot.cancelled = false → s.shared.slot.handle = none → s.Unserved)
    (hmove : s.moveWorker? number m = some s') :
    s'.MatchesOpen (Event.leavesOpen b (.moved number m)) (h.next (.moved number m)) := by
  have hprogress := inProgress_of_moveWorker hmove
  refine ⟨fun hclosed => ?_, fun hbusy => ?_, ht.noneGaveUp.move hmove,
    ht.underAbort.move ht.noneGaveUp hmove⟩
  · by_cases hm : m = .report
    · subst hm
      exact ht.report hturn hunserved hmove
    · rw [leavesOpen_moved hm] at hclosed
      exact (ht.spent hclosed).move hmove
  · rw [hprogress, Bool.and_eq_true] at hbusy
    refine (ht.noReportDue hbusy.1).move hmove fun hrelease => ?_
    rw [hrelease] at hbusy
    cases hbusy.2

theorem Busy.same (hs : s.Busy) (hsame : s.SameService s') : s'.Busy := by
  obtain ⟨n, hattends⟩ := hs.attended
  exact ⟨⟨n, hattends.same hsame⟩, hsame.slot ▸ hs.uncancelled, hsame.slot ▸ hs.inProgress⟩

theorem Closing.same (hs : s.Closing b) (hworkers : s'.workers = s.workers) : s'.Closing b := by
  unfold Closing
  rwa [hworkers]

theorem BusyOrClosing.same (hs : s.BusyOrClosing b late) (hsame : s.SameService s') :
    s'.BusyOrClosing b late := by
  cases late with
  | false => exact Busy.same hs hsame
  | true => exact Closing.same hs hsame.workers

theorem UnderAbort.same (hs : s.UnderAbort b h) (hsame : s.SameService s') : s'.UnderAbort b h := by
  cases h with
  | idle => trivial
  | found late => exact ⟨hsame.held ▸ hs.1, hs.2.same hsame⟩
  | letGo late => exact ⟨hsame.held.trans hs.1, hs.2.same hsame⟩
  | nobody => exact hs
  | stopped late =>
    cases late with
    | false => exact ⟨hsame.held.trans hs.1, hs.2.1.same hsame, hs.2.2⟩
    | true => exact ⟨hsame.held.trans hs.1, hs.2.same hsame.workers⟩

theorem MatchesOpen.pass (ht : s.MatchesOpen b h) (ms : Nat) :
    (s.pass ms).MatchesOpen (Event.leavesOpen b (.passed ms)) (h.next (.passed ms)) := by
  have hsame : s.SameService (s.pass ms) := ⟨rfl, rfl, rfl⟩
  rw [leavesOpen_passed, Abort.next_passed]
  exact ⟨fun hclosed => (ht.spent hclosed).same hsame, ht.noReportDue, ht.noneGaveUp.same hsame,
    ht.underAbort.same hsame⟩

theorem held_of_perform (hletGo : q ≠ .letGoWorker) (hstart : ∀ endpoint, q ≠ .startWorker endpoint)
    (hperform : s.perform? q = some (r, s')) : s'.held = s.held := by
  by_cases hspared : q.sparesSlot = true
  · exact (same_of_spared hspared hperform).held
  · cases q with
    | letGoWorker => exact absurd rfl hletGo
    | startWorker endpoint => exact absurd rfl (hstart endpoint)
    | joinWorker number =>
      simp only [perform?] at hperform
      split at hperform
      next => cases hperform; rfl
      next => cases hperform
    | holdsWorker | isInProgress | isArmed | install | finish | rearm | cancel =>
      cases hperform
      rfl
    | _ => exact absurd rfl hspared

theorem MatchesOpen.open_of_busy (ht : s.MatchesOpen b h) (hbusy : s.Busy) : b = true := by
  cases hb : b with
  | true => rfl
  | false =>
    rcases (ht.spent hb).rests with hcancelled | ⟨hnone, -⟩
    · cases hbusy.uncancelled.symm.trans hcancelled
    · cases hbusy.inProgress.symm.trans (Slot.inProgress_eq_false.2 hnone)

theorem Sound.busy (hs : s.Sound) (hprogress : s.shared.slot.inProgress = true) :
    s.held.isSome = true ∧ s.Busy := by
  have hfull : s.shared.slot.handle ≠ none := fun hnone => by
    cases hprogress.symm.trans (Slot.inProgress_eq_false.2 hnone)
  cases hs with
  | alone _ hretired | outlived _ _ hretired => exact absurd hretired.handle hfull
  | attended n hheld hattends huncancelled =>
    exact ⟨hheld ▸ rfl, ⟨n, hattends⟩, huncancelled, hprogress⟩

theorem BusyOrClosing.letGo (hs : s.BusyOrClosing b late) :
    BusyOrClosing { s with held := none } b late := by
  cases late with
  | true => exact hs
  | false =>
    obtain ⟨⟨i, hattends⟩, huncancelled, hprogress⟩ := hs
    exact ⟨⟨i, hattends.worker, hattends.others, hattends.armed⟩, huncancelled, hprogress⟩

theorem Closing.ask (hs : s.Closing b) (hperform : s.perform? q = some (r, s')) : s'.Closing b := by
  intro hopen
  obtain ⟨i, w, reply, hw, hphase⟩ := hs hopen
  refine ⟨i, w, reply, ?_, hphase⟩
  rcases workers_of_perform hperform with hsame | ⟨endpoint, hmore⟩
  · rwa [hsame]
  · rwa [hmore, List.getElem?_append_left (List.getElem?_eq_some_iff.1 hw).1]

theorem UnderAbort.stays (hs : s.UnderAbort b (.stopped late))
    (hq : (Abort.stopped late).ask q r = .stopped late) (hperform : s.perform? q = some (r, s')) :
    s'.UnderAbort (Event.leavesOpen b (.asked q r)) (.stopped late) := by
  have hnot {q' : Request} (hq' : ∀ r, (Abort.stopped late).ask q' r ≠ .stopped late) : q ≠ q' := by
    rintro rfl
    exact hq' r hq
  have hinstall (transfer : Transfer) : q ≠ .install transfer := hnot (by simp [Abort.ask])
  have hheld : s'.held = s.held :=
    held_of_perform (hnot (by simp [Abort.ask])) (fun _ => hnot (by simp [Abort.ask])) hperform
  have hopen : Event.leavesOpen b (.asked q r) = b :=
    leavesOpen_asked hinstall fun _ => hnot (by simp [Abort.ask])
  rw [hopen]
  cases late with
  | true => exact ⟨hheld.trans hs.1, hs.2.ask hperform⟩
  | false =>
    obtain ⟨hnone, hspent, hopen⟩ := hs
    have hrearm : q ≠ .rearm := hnot (by simp [Abort.ask])
    exact ⟨hheld.trans hnone, hspent.ask hinstall (fun h => absurd h hrearm) hperform, hopen⟩

/-- The worker that is cancelled has not left, or is about to report. -/
theorem MatchesOpen.cancel (ht : s.MatchesOpen b (.letGo late)) :
    (s.withSlot s.shared.slot.cancel).UnderAbort b (.stopped late) := by
  obtain ⟨hnone, hfound⟩ := ht.underAbort
  cases late with
  | true => exact ⟨hnone, hfound⟩
  | false =>
    have hbusy : s.Busy := hfound
    exact ⟨hnone, ⟨ht.noReportDue hbusy.inProgress, .inl rfl⟩, ht.open_of_busy hbusy⟩

theorem UnderAbort.ask (ht : s.MatchesOpen b h) (hslot : s.MayAskSlot g q)
    (hperform : s.perform? q = some (r, s')) :
    s'.UnderAbort (Event.leavesOpen b (.asked q r)) (h.ask q r) := by
  have hunder := ht.underAbort
  cases q with
  | isInProgress =>
    obtain ⟨hprogress, rfl⟩ := Prod.mk.inj (Option.some.inj hperform)
    have hprogress : s.shared.slot.inProgress = r := hprogress
    cases r with
    | false => cases h <;> trivial
    | true => cases h <;> exact Sound.busy hslot hprogress
  | letGoWorker =>
    rw [leavesOpen_asked (by simp) (by simp)]
    obtain ⟨hheld, rfl⟩ := Prod.mk.inj (Option.some.inj hperform)
    cases h with
    | found late =>
      obtain ⟨n, hsome⟩ := Option.isSome_iff_exists.1 hunder.1
      obtain rfl : some n = r := hsome.symm.trans hheld
      exact ⟨rfl, hunder.2.letGo⟩
    | _ => trivial
  | cancel =>
    rw [leavesOpen_asked (by simp) (by simp)]
    obtain ⟨-, rfl⟩ := Prod.mk.inj (Option.some.inj hperform)
    cases h with
    | letGo late => exact ht.cancel
    | _ => trivial
  | finish =>
    cases h with
    | stopped late => exact hunder.stays rfl hperform
    | _ => trivial
  | lockControl =>
    cases h with
    | stopped late => exact hunder.stays rfl hperform
    | nobody => exact hunder
    | _ => trivial
  | joinWorker number =>
    cases h with
    | stopped late => exact hunder.stays rfl hperform
    | _ => trivial
  | note record =>
    cases h with
    | stopped late => exact hunder.stays rfl hperform
    | nobody => exact hunder
    | _ => trivial
  | _ => cases h <;> trivial

/-- When an `ABOR` says that it aborted a transfer, nothing is left to end.  The transfer is still
open only if the worker was cancelled in time. -/
theorem MatchesOpen.aborted (ht : s.MatchesOpen b h) (hdone : h.HasAborted)
    (hsilent : s.held = none → s.NoReportDue) :
    s.held = none ∧ s.Spent ∧ (b = true ↔ h ≠ .stopped true) := by
  have hunder := ht.underAbort
  rcases hdone with rfl | ⟨late, rfl⟩
  · exact hunder.elim
  · cases late with
    | false => exact ⟨hunder.1, hunder.2.1, by simp [hunder.2.2]⟩
    | true =>
      obtain ⟨hnone, hcloses⟩ := hunder
      have hclosed : b = false := by
        refine Bool.eq_false_iff.2 fun hopen => ?_
        obtain ⟨i, w, reply, hw, hphase⟩ := hcloses hopen
        exact hsilent hnone i w hw reply hphase
      exact ⟨hnone, ht.spent hclosed, by simp [hclosed]⟩

/-- Every worker but the one that the session holds has left the slot. -/
theorem Sound.gone (hs : s.Sound) {i : Nat} {w : Worker} (hw : s.workers[i]? = some w)
    (hother : s.held ≠ some i) : w.phase.stage = .gone := by
  cases hs with
  | alone _ hretired | outlived _ _ hretired => exact hretired.allGone i w hw
  | attended n hheld hattends =>
    refine hattends.others i w hw ?_
    rintro rfl
    exact hother hheld

/-- A session that holds no worker writes only where nobody is about to report. -/
theorem ExclusiveControl.noReportDue_of_write (hturn : s.ExclusiveControl v)
    (hslot : s.MayAskSlot g (.writeReply reply)) (hcontrol : s.MayAskControl v (.writeReply reply))
    (hnone : s.held = none) : s.NoReportDue := by
  intro i w hw reply' hphase
  have hgone := Sound.gone hslot hw (by simp [hnone])
  cases (hturn.ended hcontrol.1 hw hgone).symm.trans hphase

theorem MatchesOpen.ask (ht : s.MatchesOpen b h) (hturn : s.ExclusiveControl v)
    (hslot : s.MayAskSlot g q) (hcontrol : s.MayAskControl v q)
    (hinstall : ∀ transfer, q = .install transfer → s.NoReportDue)
    (haborts : ∀ reply, q = .writeReply reply → reply.code = 226 → h.HasAborted)
    (hperform : s.perform? q = some (r, s')) :
    s'.MatchesOpen (Event.leavesOpen b (.asked q r)) (h.ask q r) := by
  have hrearm : q = .rearm → s.Unserved := by
    rintro rfl
    exact hslot.allGone.unserved
  refine ⟨fun hclosed => ?_, fun hbusy => ?_, ht.noneGaveUp.ask hrearm hperform,
    UnderAbort.ask ht hslot hperform⟩
  · obtain ⟨hinstalls, hends⟩ := Bool.or_eq_false_iff.1 hclosed
    have hother : ∀ transfer, q ≠ .install transfer := by
      rintro transfer rfl
      cases hinstalls
    refine Spent.ask ?_ hother hrearm hperform
    cases b with
    | false => exact ht.spent rfl
    | true =>
      have hends : Event.endsTransfer (.asked q r) = true := by simpa using hends
      obtain ⟨reply, rfl, hcode⟩ := aborts_of_endsTransfer hends
      have hsilent := hturn.noReportDue_of_write hslot hcontrol
      exact (ht.aborted (haborts reply rfl hcode) hsilent).2.1
  · rcases handle_of_perform hperform with hsame | ⟨-, hnone⟩ | ⟨transfer, hq⟩
    · rw [Slot.inProgress, hsame] at hbusy
      exact (ht.noReportDue hbusy).ask hperform
    · rw [Slot.inProgress_eq_false.2 hnone] at hbusy
      cases hbusy
    · exact (hinstall transfer hq).ask hperform

/-- Right after the session has said something, every worker but the one it holds has ended. -/
def OthersEnded (s : Scene) (v : ReplyState) : Prop :=
  v.said.isSome = true → ∀ (i : Nat) (w : Worker), s.workers[i]? = some w → s.held ≠ some i →
    w.phase = .ended

theorem OthersEnded.move (hs : s.OthersEnded v) (hmove : s.moveWorker? number m = some s') :
    s'.OthersEnded v := by
  intro hsaid
  rw [held_of_moveWorker hmove]
  refine each_of_moveWorker hmove (hs hsaid) fun w w' hw hmoved hother => ?_
  exact absurd (hs hsaid number w hw hother) (Worker.not_ended_of_move hmoved)

theorem OthersEnded.same (hs : s.OthersEnded v) (hsame : s.SameService s') : s'.OthersEnded v := by
  unfold OthersEnded
  rw [hsame.workers, hsame.held]
  exact hs

theorem OthersEnded.ask (hs : s.OthersEnded v) (hturn : s.ExclusiveControl v)
    (hslot : s.MayAskSlot g q) (hcontrol : s.MayAskControl v q)
    (hperform : s.perform? q = some (r, s')) : s'.OthersEnded (v.ask q r) := by
  cases q with
  | writeReply reply =>
    have hsame : s.SameService s' := same_of_spared rfl hperform
    cases r with
    | error => exact fun hsaid => by cases hsaid
    | ok =>
      refine OthersEnded.same (fun _ i w hw hother => ?_) hsame
      exact hturn.ended hcontrol.1 hw (Sound.gone hslot hw hother)
  | unlockControl =>
    have hsame : s.SameService s' := same_of_spared rfl hperform
    exact OthersEnded.same (v := v.ask .unlockControl r) hs hsame
  | _ => exact fun hsaid => by cases hsaid

/-- When a transfer is handed over, every worker has ended, or waits for it. -/
theorem OthersEnded.waits (hs : s.OthersEnded v) (hready : Ready n s g) (hpast : g ≠ .past)
    (hsaid : v.said.isSome = true) {i : Nat} {w : Worker} (hw : s.workers[i]? = some w) :
    w.phase.hasTransfer = false := by
  by_cases hi : i = n
  · subst hi
    obtain ⟨-, hattends, huncancelled, hnone⟩ :=
      hready.stands.resolve_right fun hgone => hpast hgone.1
    obtain ⟨own, hown, hatSlot⟩ := hattends.worker
    obtain rfl := Option.some.inj (hw.symm.trans hown)
    cases hstage : w.phase.stage with
    | waiting => cases hphase : w.phase <;> rw [hphase] at hstage <;> first | rfl | cases hstage
    | gone => exact absurd hstage hatSlot.stage_ne_gone
    | serving => exact absurd hstage (hattends.unserved huncancelled hnone i w hw)
  · have hended := hs hsaid i w hw fun hheld => hi (Option.some.inj (hheld.symm.trans hready.held))
    rw [hended]
    rfl

end Scene

end FtpServer
