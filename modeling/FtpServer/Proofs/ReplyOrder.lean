import FtpServer.Proofs.Replay
import FtpServer.Proofs.ExclusiveControl

/-!
# The order of replies

Session and workers share the control connection in any order that their steps can take.  A worker
reports only on a transfer that was announced before it, no reply of the session comes between the
leaving of a worker and its report, and nothing comes after the session's final reply.
-/

namespace FtpServer

open Program Dialogue

namespace Scene

variable {α : Type} {a b c : Dialogue α × Scene} {p : Dialogue α} {s s' : Scene} {g : ReplyState}
variable {τ τ₁ τ₂ : List Event} {e : Event} {n number : Nat} {m : Worker.Move} {w w' : Worker}
variable {post : α → Scene × ReplyState → Prop} {transfer : Transfer} {code : Nat}

theorem ExclusiveControl.tells (h : a.2.ExclusiveControl g) (htells : Tells a e b)
    (hmayAsk : ∀ q k, a.1 = .ask q k → a.2.MayAskControl g q) : b.2.ExclusiveControl (g.next e) := by
  cases htells with
  | session hperform => exact h.ask (hmayAsk _ _ rfl) hperform
  | worker number m hmove => exact h.move hmove
  | time ms => exact h.pass ms

/-- Along a run by the rules, whoever sends has the control connection. -/
theorem Traced.exclusiveControl (hrun : Traced a τ b) (hp : a.1.Meets controlRules post (a.2, g))
    (hs : a.2.ExclusiveControl g) : b.2.ExclusiveControl (τ.foldl ReplyState.next g) := by
  induction hrun with
  | refl => exact hs
  | @tail b c τ e hbefore htells ih =>
    rw [List.foldl_append, List.foldl_cons, List.foldl_nil]
    refine ih.tells htells fun q k hq => ?_
    obtain ⟨p, s⟩ := b
    obtain rfl : p = .ask q k := hq
    exact hbefore.asked hp

theorem workers_of_perform {q : Request} {r : q.Answer} (h : s.perform? q = some (r, s')) :
    s'.workers = s.workers ∨ ∃ endpoint, s'.workers =
      s.workers ++ [.start s.workers.length endpoint s.bufferSize s.timeoutMs] := by
  by_cases hspared : q.sparesSlot = true
  · exact .inl (same_of_spared hspared h).workers
  · cases q with
    | startWorker endpoint =>
      obtain ⟨-, rfl⟩ := Prod.mk.inj (Option.some.inj h)
      exact .inr ⟨endpoint, rfl⟩
    | lockControl | writeReply | shutControl | unlockControl => exact absurd rfl hspared
    | _ => exact .inl (still_of_perform rfl (by simp) h).2

/-- A step leaves worker `n` as it is, or is a move of that worker. -/
theorem Tells.worker_cases (htells : Tells a e b) (hw : a.2.workers[n]? = some w) :
    b.2.workers[n]? = some w ∧ (∀ m, e ≠ .moved n m) ∨
      ∃ m w', e = .moved n m ∧ w.move? m a.2.shared = some (w', b.2.shared) ∧
        b.2.workers[n]? = some w' := by
  cases htells with
  | @session q k s s' r hperform =>
    refine .inl ⟨?_, by simp⟩
    have hlt := (List.getElem?_eq_some_iff.1 hw).1
    rcases workers_of_perform hperform with hsame | ⟨endpoint, hmore⟩
    · exact hsame ▸ hw
    · show s'.workers[n]? = some w
      rw [hmore, List.getElem?_append_left hlt]
      exact hw
  | @worker p s s' number m hmove =>
    obtain ⟨v, v', hv, hmoved, hv', hothers⟩ := workers_of_moveWorker hmove
    by_cases hn : n = number
    · subst hn
      obtain rfl := Option.some.inj (hw.symm.trans hv)
      exact .inr ⟨m, v', rfl, hmoved, hv'⟩
    · exact .inl ⟨(hothers n hn).trans hw, fun m' h => hn (Event.moved.inj h).1.symm⟩
  | time ms => exact .inl ⟨hw, by simp⟩

theorem Traced.gone (hrun : Traced a τ b) (hw : a.2.workers[n]? = some w)
    (hgone : w.phase.stage = .gone) :
    ∃ w', b.2.workers[n]? = some w' ∧ w'.phase.stage = .gone := by
  induction hrun with
  | refl => exact ⟨w, hw, hgone⟩
  | tail _ htells ih =>
    obtain ⟨v, hv, hgone⟩ := ih
    rcases htells.worker_cases hv with ⟨hsame, -⟩ | ⟨m, v', -, hmoved, hv'⟩
    · exact ⟨v, hsame, hgone⟩
    · exact ⟨v', hv', ((Worker.advance_of_move hmoved).of_gone hgone).2.1⟩

theorem Traced.not_reported (hrun : Traced a τ b) (hw : a.2.workers[n]? = some w)
    (hended : w.phase = .ended) : b.2.workers[n]? = some w ∧ .moved n .report ∉ τ := by
  induction hrun with
  | refl => exact ⟨hw, by simp⟩
  | tail _ htells ih =>
    obtain ⟨hv, hnot⟩ := ih
    rcases htells.worker_cases hv with ⟨hsame, hother⟩ | ⟨m, v', -, hmoved, -⟩
    · exact ⟨hsame, by simpa [hnot] using fun h => hother _ h.symm⟩
    · exact absurd hended (Worker.not_ended_of_move hmoved)

/-- A worker that has the control connection keeps it until it gives it up. -/
theorem Traced.holdsControl (hrun : Traced a τ b) (hw : a.2.workers[n]? = some w)
    (hholds : w.phase.holdsControl = true) (hkeeps : .moved n .unlock ∉ τ) :
    ∃ w', b.2.workers[n]? = some w' ∧ w'.phase.holdsControl = true := by
  induction hrun with
  | refl => exact ⟨w, hw, hholds⟩
  | tail _ htells ih =>
    rw [List.mem_append, not_or, List.mem_singleton] at hkeeps
    obtain ⟨v, hv, hholds⟩ := ih hkeeps.1
    rcases htells.worker_cases hv with ⟨hsame, -⟩ | ⟨m, v', rfl, hmoved, hv'⟩
    · exact ⟨v, hsame, hholds⟩
    · refine ⟨v', hv', ?_⟩
      cases Worker.controlMove_of_move hmoved with
      | works _ _ hsilent => cases hholds.symm.trans hsilent
      | locks hphase => rw [hphase] at hholds; cases hholds
      | releases _ hphase' =>
        rcases hphase' with hphase' | ⟨r, -, hphase'⟩ <;> rw [hphase'] <;> rfl
      | reports _ hphase' => rw [hphase']; rfl
      | unlocks => exact absurd rfl hkeeps.2

/-- A reply with that code went out, and the session did nothing but let go of the control
connection since. -/
def Said (code : Nat) (τ : List Event) : Prop :=
  ∃ reply τ₁ τ₂, τ = τ₁ ++ .asked (.writeReply reply) (Except.ok ()) :: τ₂ ∧ reply.code = code ∧
    ∀ q r, .asked q r ∈ τ₂ → q = .unlockControl

/-- The transfer that was installed last, right after its announcement. -/
def Announces (τ : List Event) (transfer : Transfer) : Prop :=
  ∃ τ₁ τ₂, τ = τ₁ ++ .asked (.install transfer) () :: τ₂ ∧ Said 150 τ₁ ∧
    ∀ t, .asked (.install t) () ∉ τ₂

/-- Worker `n` has looked at the slot and taken the transfer in it, which had been announced. -/
def Took (a : Dialogue α × Scene) (n : Nat) (τ : List Event) : Prop :=
  ∃ τ₁ τ₂ p₁ s₁ s₂ w direction stream deadline, τ = τ₁ ++ .moved n .look :: τ₂ ∧
    Traced a τ₁ (p₁, s₁) ∧ s₁.moveWorker? n .look = some s₂ ∧
    s₁.shared.slot.handle = some ⟨direction, some stream⟩ ∧
    Announces τ₁ ⟨direction, some stream⟩ ∧
    s₂.workers[n]? = some w ∧ w.phase = .connecting direction stream deadline

theorem said_of_voice (h : (τ.foldl ReplyState.next g).said = some code) :
    Said code τ ∨ g.said = some code ∧ ∀ q r, .asked q r ∈ τ → q = .unlockControl := by
  induction τ generalizing g with
  | nil => exact .inr ⟨h, by simp⟩
  | cons e τ ih =>
    rcases ih h with ⟨reply, τ₁, τ₂, rfl, hcode, hrest⟩ | ⟨hsaid, hrest⟩
    · exact .inl ⟨reply, e :: τ₁, τ₂, rfl, hcode, hrest⟩
    · cases e with
      | moved number m => exact .inr ⟨hsaid, by simpa using hrest⟩
      | passed ms => exact .inr ⟨hsaid, by simpa using hrest⟩
      | asked q r =>
        cases q with
        | writeReply reply =>
          cases r with
          | ok => exact .inl ⟨reply, [], τ, rfl, Option.some.inj hsaid, hrest⟩
          | error => cases hsaid
        | unlockControl =>
          refine .inr ⟨hsaid, fun q r hqr => ?_⟩
          rcases List.mem_cons.1 hqr with hfirst | hold
          · cases hfirst
            rfl
          · exact hrest q r hold
        | _ => cases hsaid

theorem Announces.snoc (h : Announces τ transfer) (he : ∀ t, e ≠ .asked (.install t) ()) :
    Announces (τ ++ [e]) transfer := by
  obtain ⟨τ₁, τ₂, rfl, hsaid, hnone⟩ := h
  refine ⟨τ₁, τ₂ ++ [e], by simp, hsaid, fun t ht => ?_⟩
  rcases List.mem_append.1 ht with hold | hnew
  · exact hnone t hold
  · exact he t (List.mem_singleton.1 hnew).symm

theorem Took.snoc (h : Took a n τ) (e : Event) : Took a n (τ ++ [e]) := by
  obtain ⟨τ₁, τ₂, p₁, s₁, s₂, w, direction, stream, deadline, rfl, hrest⟩ := h
  exact ⟨τ₁, τ₂ ++ [e], p₁, s₁, s₂, w, direction, stream, deadline, by simp, hrest⟩

/-- Where the transfer in the slot comes from, and those that workers have. -/
structure Provenance (a : Dialogue α × Scene) (τ : List Event) (s : Scene) : Prop where
  slot : ∀ direction stream, s.shared.slot.handle = some ⟨direction, some stream⟩ →
    Announces τ ⟨direction, some stream⟩
  workers : ∀ (n : Nat) (w : Worker), s.workers[n]? = some w → w.phase.hasTransfer = true →
    Took a n τ

theorem Provenance.slot_tells (h : Provenance a τ b.2) (htells : Tells b e c)
    (hsaid : ∀ t k, b.1 = .ask (.install t) k → Said 150 τ) {direction : Direction}
    {stream : Stream Source Sink}
    (hhandle : c.2.shared.slot.handle = some ⟨direction, some stream⟩) :
    Announces (τ ++ [e]) ⟨direction, some stream⟩ := by
  cases htells with
  | @session q k s s' r hperform =>
    by_cases hinstall : ∃ t, q = .install t
    · obtain ⟨t, rfl⟩ := hinstall
      obtain ⟨-, rfl⟩ := Prod.mk.inj (Option.some.inj hperform)
      obtain rfl := Option.some.inj hhandle
      exact ⟨τ, [], rfl, hsaid _ k rfl, by simp⟩
    · have hother : ∀ t, .asked q r ≠ Event.asked (.install t) () := fun t ht => by
        cases ht
        exact hinstall ⟨t, rfl⟩
      rcases handle_of_perform hperform with hsame | ⟨-, hnone⟩ | hother
      · exact (h.slot direction stream (hsame.symm.trans hhandle)).snoc hother
      · cases hnone.symm.trans hhandle
      · exact absurd hother hinstall
  | worker number m hmove =>
    obtain ⟨w, w', -, hmoved, -⟩ := workers_of_moveWorker hmove
    have hbefore := (Worker.advance_of_move hmoved).handle hhandle
    exact (h.slot direction stream hbefore).snoc (by simp)
  | time ms => exact (h.slot direction stream hhandle).snoc (by simp)

/-- Whoever has a transfer had it already, or has just taken it from the slot. -/
theorem Tells.hasTransfer (htells : Tells b e c) (hw : c.2.workers[n]? = some w)
    (htransfer : w.phase.hasTransfer = true) :
    (∃ v, b.2.workers[n]? = some v ∧ v.phase.hasTransfer = true) ∨
      ∃ direction stream deadline, e = .moved n .look ∧ b.2.moveWorker? n .look = some c.2 ∧
        b.2.shared.slot.handle = some ⟨direction, some stream⟩ ∧
        w.phase = .connecting direction stream deadline := by
  cases htells with
  | @session q k s s' r hperform =>
    rcases workers_of_perform hperform with hsame | ⟨endpoint, hmore⟩
    · exact .inl ⟨w, hsame ▸ hw, htransfer⟩
    · have hw : s'.workers[n]? = some w := hw
      rw [hmore, List.getElem?_append] at hw
      split at hw
      next => exact .inl ⟨w, hw, htransfer⟩
      next =>
        -- A worker that has just started has no transfer.
        obtain rfl := List.mem_singleton.1 (List.mem_of_getElem? hw)
        cases htransfer
  | @worker p s s' number m hmove =>
    obtain ⟨v, v', hv, hmoved, hv', hothers⟩ := workers_of_moveWorker hmove
    by_cases hn : n = number
    · subst hn
      obtain rfl := Option.some.inj (hv'.symm.trans hw)
      cases Worker.controlMove_of_move hmoved with
      | works _ _ _ _ _ htook =>
        rcases htook htransfer with hbefore | ⟨rfl, direction, stream, deadline, hhandle, -, hphase⟩
        · exact .inl ⟨v, hv, hbefore⟩
        · exact .inr ⟨direction, stream, deadline, rfl, hmove, hhandle, hphase⟩
      | locks hphase | releases hphase => exact .inl ⟨v, hv, by rw [hphase]; rfl⟩
      | reports _ hphase' | unlocks _ hphase' => rw [hphase'] at htransfer; cases htransfer
    · exact .inl ⟨w, (hothers n hn).symm.trans hw, htransfer⟩
  | time ms => exact .inl ⟨w, hw, htransfer⟩

theorem Provenance.workers_tells (h : Provenance a τ b.2) (hrun : Traced a τ b)
    (htells : Tells b e c) (hw : c.2.workers[n]? = some w)
    (htransfer : w.phase.hasTransfer = true) :
    Took a n (τ ++ [e]) := by
  rcases htells.hasTransfer hw htransfer with
    ⟨v, hv, hbefore⟩ | ⟨direction, stream, deadline, rfl, hmove, hhandle, hphase⟩
  · exact (h.workers n v hv hbefore).snoc e
  · obtain ⟨p, s⟩ := b
    exact ⟨τ, [], p, s, c.2, w, direction, stream, deadline, rfl, hrun, hmove, hhandle,
      h.slot direction stream hhandle, hw, hphase⟩

/-- Along a run by the rules, every transfer was announced right before it was installed. -/
theorem Traced.provenance (hrun : Traced a τ b) (hp : a.1.Meets controlRules post (a.2, .silent))
    (hs : Provenance a [] a.2) : Provenance a τ b.2 := by
  induction hrun with
  | refl => exact hs
  | @tail b c τ e hbefore htells ih =>
    -- The rules allow the question only right after 150 went out.
    have hsaid : ∀ t k, b.1 = .ask (.install t) k → Said 150 τ := fun t k hb => by
      obtain ⟨p, s⟩ := b
      obtain rfl : p = .ask (.install t) k := hb
      rcases said_of_voice (hbefore.asked hp) with hsaid | ⟨hsilent, -⟩
      · exact hsaid
      · cases hsilent
    exact ⟨fun _ _ hhandle => ih.slot_tells htells hsaid hhandle,
      fun _ _ hw htransfer => ih.workers_tells hbefore htells hw htransfer⟩

end Scene

namespace Session

open Scene

variable {ctx : Context} {address : Socket} {lines : List Line.Incoming} {s s' : Scene}
variable {τ : List Event} {p : Dialogue Unit} {n : Nat} {w : Worker} {g : ReplyState}

def KeepsSilent (b : Dialogue Unit × Scene) (n : Nat) : Prop :=
  ∀ τ c, Traced b τ c → .moved n .report ∉ τ

/-- When the session is about to write a reply, a worker that has left the slot has ended. -/
theorem ended_of_write (hs : s.AllGone) (hturn : s.ExclusiveControl .silent) {reply : Reply}
    {k : Except OsError Unit → Dialogue Unit}
    (hrun : Traced (serve ctx address lines, s) τ (.ask (.writeReply reply) k, s'))
    (hw : s'.workers[n]? = some w) (hgone : w.phase.stage = .gone) : w.phase = .ended := by
  have hspeaks := serve_controlSafe ctx address lines hs
  obtain ⟨hholds, -⟩ := hrun.asked hspeaks
  exact (hrun.exclusiveControl hspeaks hturn).ended hholds hw hgone

theorem exclusiveControl_silent (hworkers : s.workers = [])
    (hcontrol : s.shared.control.holder = none ∧ s.shared.control.sent = []) :
    s.ExclusiveControl .silent := by
  refine ⟨?_, ?_, ?_, ?_, ?_⟩
  · simp [hcontrol.1, ReplyState.silent]
  · simp [hworkers]
  · simp [hcontrol.1]
  · simp [hworkers]
  · simp [EndsAtFinalReply, hcontrol.2]

theorem provenance_nil (hhandle : s.shared.slot.handle = none) (hworkers : s.workers = []) :
    Provenance (serve ctx address lines, s) [] s := by
  refine ⟨?_, ?_⟩
  · simp [hhandle]
  · simp [hworkers]

/-- A worker that has left the slot before a reply is written reports nothing from then on. -/
theorem keepsSilent_of_gone (hs : s.AllGone) (hturn : s.ExclusiveControl .silent) {s₁ s₂ : Scene}
    {p₁ : Dialogue Unit} {τ₁ : List Event} {reply : Reply} {k : Except OsError Unit → Dialogue Unit}
    (hrun : Traced (serve ctx address lines, s) τ (p₁, s₁)) (hw : s₁.workers[n]? = some w)
    (hgone : w.phase.stage = .gone) (hrest : Traced (p₁, s₁) τ₁ (.ask (.writeReply reply) k, s₂)) :
    KeepsSilent (.ask (.writeReply reply) k, s₂) n := by
  obtain ⟨v, hv, hgone⟩ := hrest.gone hw hgone
  have hended := ended_of_write hs hturn (hrun.append hrest) hv hgone
  exact fun τ c hlater => (hlater.not_reported hv hended).2

theorem took_of_report (hturn : s'.ExclusiveControl g) {a : Dialogue Unit × Scene}
    (hprovenance : Provenance a τ s') {s₁ : Scene} (hmove : s'.moveWorker? n .report = some s₁) :
    Took a n τ ∧
      ∃ w reply, s'.workers[n]? = some w ∧ w.phase = .reporting reply ∧ reply.IsReport := by
  obtain ⟨w, w', hw, hmoved, -⟩ := workers_of_moveWorker hmove
  have hsound := hturn.workers n w hw
  cases Worker.controlMove_of_move hmoved with
  | works hsilent => cases hsilent
  | @reports _ _ reply hphase =>
    have htransfer : w.phase.hasTransfer = true := by rw [hphase]; rfl
    have hreply : w.phase.reply? = some reply := by rw [hphase]; rfl
    exact ⟨hprovenance.workers n w hw htransfer, w, reply, hw, hphase, hsound.reports reply hreply⟩

/-- A worker that has just left the slot still has the control connection. -/
theorem gone_of_release {s₁ : Scene} (hmove : s'.moveWorker? n .release = some s₁) :
    ∃ w, s₁.workers[n]? = some w ∧ w.phase.stage = .gone ∧ w.phase.holdsControl = true := by
  obtain ⟨w, w', -, hmoved, hw', -⟩ := workers_of_moveWorker hmove
  cases Worker.controlMove_of_move hmoved with
  | works hsilent => cases hsilent
  | releases _ hphase' =>
    rcases hphase' with hphase' | ⟨reply, -, hphase'⟩
    all_goals exact ⟨w', hw', by rw [hphase']; rfl, by rw [hphase']; rfl⟩

/-- No reply is written while a worker has the control connection. -/
theorem unlocked_of_write (hs : s.AllGone) (hturn : s.ExclusiveControl .silent) {s₁ s₂ : Scene}
    {p₁ : Dialogue Unit} {τ₁ : List Event} {reply : Reply} {k : Except OsError Unit → Dialogue Unit}
    (hrun : Traced (serve ctx address lines, s) τ (p₁, s₁)) (hw : s₁.workers[n]? = some w)
    (hholds : w.phase.holdsControl = true)
    (hrest : Traced (p₁, s₁) τ₁ (.ask (.writeReply reply) k, s₂)) : .moved n .unlock ∈ τ₁ := by
  have hspeaks := serve_controlSafe ctx address lines hs
  have hall := hrun.append hrest
  by_cases hunlocks : .moved n .unlock ∈ τ₁
  · exact hunlocks
  · -- Then the worker and the session would both have the control connection.
    obtain ⟨v, hv, hholds⟩ := hrest.holdsControl hw hholds hunlocks
    obtain ⟨hsession, -⟩ := hall.asked hspeaks
    have hlater := hall.exclusiveControl hspeaks hturn
    have hworker := (hlater.workers n v hv).holds.1 hholds
    have hboth := (hlater.session.1 hsession).symm.trans hworker
    simp at hboth

/-- A worker reports only on a transfer that it took and that had been announced right before it was
installed.  Between the leaving of a worker and its report no reply of the session is written; so
whoever had a transfer when the session found the slot free has said everything by the next reply.
After the reply to `QUIT`, and after that of a `PASV` that failed, nothing is written. -/
theorem replies_in_order
    (hs : s.shared.slot = .fresh ∧ s.workers = [] ∧ s.held = none)
    (hcontrol : s.shared.control.holder = none ∧ s.shared.control.sent = [])
    (hrun : Traced (serve ctx address lines, s) τ (p, s')) :
    (∀ n s₁, s'.moveWorker? n .report = some s₁ → Took (serve ctx address lines, s) n τ ∧
      ∃ w reply, s'.workers[n]? = some w ∧ w.phase = .reporting reply ∧ reply.IsReport) ∧
    (∀ n s₁ τ₁ reply k s₂, s'.moveWorker? n .release = some s₁ →
      Traced (p, s₁) τ₁ (.ask (.writeReply reply) k, s₂) →
        .moved n .unlock ∈ τ₁ ∧ KeepsSilent (.ask (.writeReply reply) k, s₂) n) ∧
    (∀ next n w τ₁ reply k s₂, p = .ask .isInProgress next →
      s'.shared.slot.inProgress = false → s'.workers[n]? = some w → w.phase.stage ≠ .waiting →
        Traced (p, s') τ₁ (.ask (.writeReply reply) k, s₂) →
          KeepsSilent (.ask (.writeReply reply) k, s₂) n) ∧
    (∀ before x after, s'.shared.control.sent = before ++ x :: after →
      x.2.code = 221 ∨ x.2.code = 421 → after = []) := by
  obtain ⟨hslot, hworkers, -⟩ := hs
  have hallGone : s.AllGone := by simp [AllGone, hworkers]
  have hsilent := exclusiveControl_silent hworkers hcontrol
  have hspeaks := serve_controlSafe ctx address lines hallGone
  have hturn := hrun.exclusiveControl hspeaks hsilent
  refine ⟨fun n s₁ hmove => ?_, fun n s₁ τ₁ reply k s₂ hmove hrest => ?_,
    fun next n w τ₁ reply k s₂ hp hfree hw htook hrest => ?_, fun before x after hsent hx => ?_⟩
  · have hnone : s.shared.slot.handle = none := by rw [hslot]; rfl
    exact took_of_report hturn (hrun.provenance hspeaks (provenance_nil hnone hworkers)) hmove
  · obtain ⟨w, hw, hgone, hholds⟩ := gone_of_release hmove
    have hreleased := hrun.tail (.worker n .release hmove)
    exact ⟨unlocked_of_write hallGone hsilent hreleased hw hholds hrest,
      keepsSilent_of_gone hallGone hsilent hreleased hw hgone hrest⟩
  · subst hp
    have hinHand : s'.AllTracked := hrun.asked hspeaks
    have hgone := (hinHand.idle hfree hw).resolve_left htook
    exact keepsSilent_of_gone hallGone hsilent hrun hw hgone hrest
  · have hlast : isFinalCode x.2.code = true := by simpa [isFinalCode] using hx
    exact (hturn.last before x after hsent hlast).1

def hastyClient : List Line.Incoming :=
  [.line "USER anonymous", .line "PASS guest", .line "PASV", .line "LIST"]

/-- The worker finds nobody at the other end and leaves the slot, with its report still to give. -/
def upToReport : List Choice :=
  List.replicate 34 .session ++
    [.worker 0 .look, .worker 0 (.connectFails .brokenPipe), .worker 0 .lock, .worker 0 .release]

theorem replies_in_order_listing_in_vain :
    ∃ τ p s' s₁, Traced (serve (usualContext "/") loopback hastyClient,
        { Scene.start Tree.bare {} with lister := .fixed [] }) τ (p, s') ∧
      s'.moveWorker? 0 .report = some s₁ ∧
      s₁.shared.control.sent.map (fun (_, reply) => reply.code) =
        [220, 331, 230, 227, 150, 425] ∧
      Took (serve (usualContext "/") loopback hastyClient,
        { Scene.start Tree.bare {} with lister := .fixed [] }) 0 τ := by
  have hreplay : (replay plainly upToReport (serve (usualContext "/") loopback hastyClient,
      { Scene.start Tree.bare {} with lister := .fixed [] })).any (fun r =>
        (r.2.2.moveWorker? 0 .report).any fun s₁ =>
          s₁.shared.control.sent.map (fun (_, reply) => reply.code) ==
            [220, 331, 230, 227, 150, 425]) = true := by
    decide +kernel
  obtain ⟨τ, ⟨p, s'⟩, hrun, htest⟩ := traced_of_any hreplay
  obtain ⟨s₁, hmove, hcodes⟩ := (Option.any_eq_true ..).1 htest
  have hall := replies_in_order ⟨rfl, rfl, rfl⟩ ⟨rfl, rfl⟩ hrun
  exact ⟨τ, p, s', s₁, hrun, hmove, beq_iff_eq.1 hcodes, (hall.1 0 s₁ hmove).1⟩

end Session

end FtpServer
