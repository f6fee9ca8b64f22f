import Mathlib.Data.List.Basic
import FtpServer.Proofs.OneReply
import FtpServer.Proofs.Orphans
import FtpServer.Proofs.OpenTransfers

/-!
# One outcome for every transfer

A transfer that was handed over is ended by one reply: by the report of the worker that took it,
or by the answer that it was aborted.  That goes for all interleavings but those in which a worker
leaves the slot unseen, between two looks of a data command or between the look of an `ABOR` and its
cancelling.
-/

namespace FtpServer

open Program Dialogue

namespace Scene

variable {α : Type} {a c : Dialogue α × Scene}
variable {τ τ' : List Event} {e : Event} {n : Nat}

/-- Every reply that ends a transfer comes while the transfer that was handed over last is open. -/
def EndsOnce (τ : List Event) : Prop :=
  ∀ τ₁ e τ₂, τ = τ₁ ++ e :: τ₂ → e.endsTransfer = true → leftOpen τ₁ = true

def TookLast (a : Dialogue α × Scene) (n : Nat) (τ : List Event) : Prop :=
  ∃ τ₁ τ₂ p₁ s₁ s₂ w direction stream deadline, τ = τ₁ ++ .moved n .look :: τ₂ ∧
    Traced a τ₁ (p₁, s₁) ∧ s₁.moveWorker? n .look = some s₂ ∧
    s₁.shared.slot.handle = some ⟨direction, some stream⟩ ∧
    Announces τ ⟨direction, some stream⟩ ∧
    s₂.workers[n]? = some w ∧ w.phase = .connecting direction stream deadline

theorem not_races_of_append (hτ : ¬ Races (τ ++ τ')) : ¬ Races τ := by
  intro hraced
  refine hτ ?_
  unfold Races at hraced ⊢
  rw [List.foldl_append, hraced]
  exact List.foldl_fixed' (fun e => by cases e <;> first | exact Gate.ask_raced | rfl) τ'

theorem Traced.tells (hrun : Traced a (τ ++ e :: τ') c) : ∃ b b', Traced a τ b ∧ Tells b e b' := by
  generalize hsplit : τ ++ e :: τ' = σ at hrun
  induction hrun generalizing τ' with
  | refl => simp at hsplit
  | tail hbefore htells ih =>
    rcases List.eq_nil_or_concat τ' with rfl | ⟨init, last, rfl⟩
    · obtain ⟨rfl, hlast⟩ := List.append_inj' hsplit rfl
      obtain rfl := List.singleton_inj.1 hlast
      exact ⟨_, _, hbefore, htells⟩
    · rw [List.concat_eq_append, ← List.cons_append, ← List.append_assoc] at hsplit
      exact ih (List.append_inj' hsplit rfl).1

structure Unbegun (s : Scene) : Prop where
  left : s.Left none
  exclusiveControl : s.ExclusiveControl .silent
  workers : s.workers = []

theorem TookLast.snoc (hn : TookLast a n τ) (he : ∀ t, e ≠ .asked (.install t) ()) :
    TookLast a n (τ ++ [e]) := by
  obtain ⟨τ₁, τ₂, p₁, s₁, s₂, w, direction, stream, deadline, rfl, hrun, hmove, hhandle, hlast,
    hrest⟩ := hn
  exact ⟨τ₁, τ₂ ++ [e], p₁, s₁, s₂, w, direction, stream, deadline, by simp, hrun, hmove, hhandle,
    hlast.snoc he, hrest⟩

end Scene

namespace Session

open Scene

variable {ctx : Context} {address : Socket} {lines : List Line.Incoming} {s s' : Scene}
variable {τ : List Event} {p : Dialogue Unit} {b : Dialogue Unit × Scene} {n : Nat} {w : Worker}

theorem unbegun_of_fresh (hs : s.shared.slot = .fresh ∧ s.workers = [] ∧ s.held = none)
    (hcontrol : s.shared.control.holder = none ∧ s.shared.control.sent = []) : s.Unbegun :=
  ⟨left_of_fresh hs, exclusiveControl_silent hs.2.1 hcontrol, hs.2.1⟩

theorem unserved_of_traced (hs : s.Unbegun)
    (hrun : Traced (serve ctx address lines, s) τ (p, s')) (hτ : ¬ Races τ)
    (huncancelled : s'.shared.slot.cancelled = false) (hnone : s'.shared.slot.handle = none) :
    s'.Unserved := by
  cases p with
  | done => exact (retired_of_done hs.left hrun hτ).allGone.unserved
  | ask q k => exact (slotRules_of_traced hs.left hrun hτ).unserved huncancelled hnone

theorem controlSafe_of_unbegun (ctx : Context) (address : Socket) (lines : List Line.Incoming)
    (hs : s.Unbegun) : ControlSafe (fun _ _ _ => True) (serve ctx address lines) s .silent :=
  serve_controlSafe ctx address lines hs.left.2.allGone

theorem exclusiveControl_of_traced (hs : s.Unbegun)
    (hrun : Traced (serve ctx address lines, s) τ b) :
    b.2.ExclusiveControl (τ.foldl ReplyState.next .silent) :=
  hrun.exclusiveControl (controlSafe_of_unbegun ctx address lines hs) hs.exclusiveControl

theorem mayAskControl_of_traced (hs : s.Unbegun) {q : Request} {k : q.Answer → Dialogue Unit}
    (hrun : Traced (serve ctx address lines, s) τ (.ask q k, s')) :
    s'.MayAskControl (τ.foldl ReplyState.next .silent) q :=
  hrun.asked (controlSafe_of_unbegun ctx address lines hs)

theorem othersEnded_of_traced (hs : s.Unbegun)
    (hrun : Traced (serve ctx address lines, s) τ b) (hτ : ¬ Races τ) :
    b.2.OthersEnded (τ.foldl ReplyState.next .silent) := by
  induction hrun with
  | refl => exact fun hsaid => by cases hsaid
  | @tail b c τ e hbefore htells ih =>
    have hτ' := not_races_of_append hτ
    have ih := ih hτ'
    rw [List.foldl_append, List.foldl_cons, List.foldl_nil]
    cases htells with
    | session hperform =>
      exact ih.ask (exclusiveControl_of_traced hs hbefore) (slotRules_of_traced hs.left hbefore hτ')
        (mayAskControl_of_traced hs hbefore) hperform
    | worker number m hmove => exact ih.move hmove
    | time ms => exact ih.same ⟨rfl, rfl, rfl⟩

theorem waits_of_install (hs : s.Unbegun) {transfer : Transfer}
    {k : Unit → Dialogue Unit}
    (hrun : Traced (serve ctx address lines, s) τ (.ask (.install transfer) k, s'))
    (hτ : ¬ Races (τ ++ [.asked (.install transfer) ()])) (hw : s'.workers[n]? = some w) :
    w.phase.hasTransfer = false := by
  have hτ' := not_races_of_append hτ
  obtain ⟨number, hready⟩ := slotRules_of_traced hs.left hrun hτ'
  have hsaid : _ = some 150 := mayAskControl_of_traced hs hrun
  have hpast : τ.foldl Gate.next .shut ≠ .past := fun hpast => hτ (by
    rw [Races, List.foldl_append, hpast]
    rfl)
  exact (othersEnded_of_traced hs hrun hτ').waits hready hpast (by simp [hsaid]) hw

/-- Whoever has a transfer took the one that was handed over last. -/
theorem tookLast_of_traced (hs : s.Unbegun)
    (hrun : Traced (serve ctx address lines, s) τ b) (hτ : ¬ Races τ)
    (hw : b.2.workers[n]? = some w) (htransfer : w.phase.hasTransfer = true) :
    TookLast (serve ctx address lines, s) n τ := by
  induction hrun generalizing w with
  | refl => simp [hs.workers] at hw
  | @tail b c τ e hbefore htells ih =>
    have hτ' := not_races_of_append hτ
    have hprovenance := hbefore.provenance (controlSafe_of_unbegun ctx address lines hs)
      (provenance_nil hs.left.2.handle hs.workers)
    rcases htells.hasTransfer hw htransfer with
      ⟨v, hv, hheld⟩ | ⟨direction, stream, deadline, rfl, hmove, hhandle, hphase⟩
    · refine (ih hτ' hv hheld).snoc fun t he => ?_
      subst he
      cases htells
      cases hheld.symm.trans (waits_of_install hs hbefore hτ hv)
    · obtain ⟨p, s₁⟩ := b
      exact ⟨τ, [], p, s₁, c.2, w, direction, stream, deadline, rfl, hbefore, hmove, hhandle,
        (hprovenance.slot direction stream hhandle).snoc (by simp), hw, hphase⟩

/-- Whoever is about to report took the transfer that was handed over last. -/
theorem tookLast_of_report (hs : s.Unbegun)
    (hrun : Traced (serve ctx address lines, s) τ (p, s')) (hτ : ¬ Races τ) {s₁ : Scene}
    (hmove : s'.moveWorker? n .report = some s₁) : TookLast (serve ctx address lines, s) n τ := by
  obtain ⟨w, w', hw, hmoved, -⟩ := workers_of_moveWorker hmove
  obtain ⟨reply, hphase, -⟩ := Worker.reporting_of_report hmoved
  exact tookLast_of_traced hs hrun hτ hw (by rw [hphase]; rfl)

theorem aborts_of_traced {reply : Reply} {k : Except OsError Unit → Dialogue Unit}
    (hrun : Traced (serve ctx address lines, s) τ (.ask (.writeReply reply) k, s'))
    (hcode : reply.code = 226) : (τ.foldl Abort.next .idle).HasAborted :=
  hrun.asked (serve_aborts ctx address lines) reply rfl hcode

theorem matchesOpen_of_traced (hs : s.Unbegun)
    (hrun : Traced (serve ctx address lines, s) τ b) (hτ : ¬ Races τ) :
    b.2.MatchesOpen (leftOpen τ) (τ.foldl Abort.next .idle) := by
  induction hrun with
  | refl =>
    have hnobody : ∀ (i : Nat) (w : Worker), s.workers[i]? ≠ some w := by simp [hs.workers]
    have hsilent : s.NoReportDue := fun i w hw => absurd hw (hnobody i w)
    have hspent : s.Spent :=
      ⟨hsilent, .inr ⟨hs.left.2.handle, hs.left.2.allGone.unserved⟩⟩
    exact ⟨fun _ => hspent, fun _ => hsilent, fun i w hw => absurd hw (hnobody i w), trivial⟩
  | @tail b c τ e hbefore htells ih =>
    have hτ' := not_races_of_append hτ
    have hturn := exclusiveControl_of_traced hs hbefore
    have ih := ih hτ'
    rw [List.foldl_append, List.foldl_cons, List.foldl_nil, leftOpen_append]
    cases htells with
    | @session q k s₁ s₂ r hperform =>
      rw [Abort.next_asked]
      refine ih.ask hturn (slotRules_of_traced hs.left hbefore hτ')
        (mayAskControl_of_traced hs hbefore)
        (fun transfer hq => ?_) (fun reply hq hcode => ?_) hperform
      · subst hq
        intro i w hw reply hphase
        have hnone := waits_of_install hs hbefore hτ hw
        rw [hphase] at hnone
        cases hnone
      · subst hq
        exact aborts_of_traced hbefore hcode
    | worker number m hmove => exact ih.move hturn (unserved_of_traced hs hbefore hτ') hmove
    | time ms => exact ih.pass ms

/-- A worker reports only on a transfer that was not ended before. -/
theorem leftOpen_of_report (hs : s.Unbegun)
    (hrun : Traced (serve ctx address lines, s) τ (p, s')) (hτ : ¬ Races τ) {s₁ : Scene}
    (hmove : s'.moveWorker? n .report = some s₁) : leftOpen τ = true := by
  cases hopen : leftOpen τ with
  | true => rfl
  | false =>
    have hspent : s'.Spent := (matchesOpen_of_traced hs hrun hτ).spent hopen
    cases hmove.symm.trans hspent.noReportDue.not_report

/-- When an `ABOR` says that it aborted a transfer, every worker stays silent from then on; the
transfer was ended before just if the `ABOR` was too late. -/
theorem leftOpen_of_aborted (hs : s.Unbegun)
    {reply : Reply} {k : Except OsError Unit → Dialogue Unit}
    (hrun : Traced (serve ctx address lines, s) τ (.ask (.writeReply reply) k, s'))
    (hτ : ¬ Races τ) (hcode : reply.code = 226) :
    (leftOpen τ = true ↔ ¬ TooLate τ) ∧ ∀ n w, s'.workers[n]? = some w →
      KeepsSilent (.ask (.writeReply reply) k, s') n := by
  have hsound : s'.Sound := slotRules_of_traced hs.left hrun hτ
  have hmatches : s'.MatchesOpen _ _ := matchesOpen_of_traced hs hrun hτ
  have hsilent := (exclusiveControl_of_traced hs hrun).noReportDue_of_write
    (slotRules_of_traced hs.left hrun hτ)
    (mayAskControl_of_traced hs hrun)
  obtain ⟨hheld, -, hopen⟩ := hmatches.aborted (aborts_of_traced hrun hcode) hsilent
  refine ⟨hopen, fun n w hw => ?_⟩
  have hgone := hsound.gone hw (by simp [hheld])
  exact keepsSilent_of_gone hs.left.2.allGone hs.exclusiveControl hrun hw hgone (.refl _)

/-- Every transfer is ended once, unless an `ABOR` that was too late says that it aborted one. -/
theorem endsOnce_iff (hs : s.Unbegun)
    (hrun : Traced (serve ctx address lines, s) τ b) (hτ : ¬ Races τ) :
    EndsOnce τ ↔ ∀ τ₁ reply τ₂, τ = τ₁ ++ .asked (.writeReply reply) (.ok ()) :: τ₂ →
      reply.code = 226 → ¬ TooLate τ₁ := by
  constructor
  · rintro honce τ₁ reply τ₂ rfl hcode
    obtain ⟨a, a', hfirst, htells⟩ := hrun.tells
    cases htells
    have hopen := honce τ₁ _ τ₂ rfl (by simpa [Event.endsTransfer] using hcode)
    exact (leftOpen_of_aborted hs hfirst (not_races_of_append hτ) hcode).1.1 hopen
  · rintro hintime τ₁ e τ₂ rfl hends
    obtain ⟨a, a', hfirst, htells⟩ := hrun.tells
    have hτ' := not_races_of_append hτ
    cases htells with
    | @session q k s₁ s₂ r hperform =>
      obtain ⟨reply, rfl, hcode⟩ := aborts_of_endsTransfer hends
      cases r with
      | error => cases hends
      | ok =>
        refine (leftOpen_of_aborted hs hfirst hτ' hcode).1.2 ?_
        exact hintime τ₁ reply τ₂ rfl hcode
    | worker number m hmove =>
      cases m with
      | report => exact leftOpen_of_report hs hfirst hτ' hmove
      | _ => cases hends
    | time ms => cases hends

def aborReply (busy : Bool) : Reply :=
  if busy then ⟨Reply.transferComplete, "Transfer aborted."⟩
  else ⟨Reply.noTransfer, "No transfer in progress."⟩

/-- Every reply of the transcript is the one to an `ABOR` that was told `busy` when it looked. -/
def AnswersAbor (l : Transcript Request.Answer) : Prop :=
  ∀ reply result, ⟨.writeReply reply, result⟩ ∈ l →
    ∃ busy, ⟨.isInProgress, busy⟩ ∈ l ∧ reply = aborReply busy

theorem not_writes_of_precedesReply {l : Transcript Request.Answer}
    (hl : ∀ x ∈ l, Request.PrecedesReply x.1)
    (reply : Reply) (result : Except OsError Unit) : ⟨.writeReply reply, result⟩ ∉ l :=
  fun hmem => by cases (hl _ hmem).1

theorem onAbor_yields (c : Client) : (onAbor c).Yields fun l r =>
    ∃ busy, ⟨.isInProgress, busy⟩ ∈ l ∧ r.2.reply = some (aborReply busy) := by
  refine Yields.question fun (busy : Bool) => ?_
  cases busy with
  | true =>
    refine (Yields.any _).bind fun _ _ _ => ?_
    exact Yields.question fun _ => ⟨true, by simp, rfl⟩
  | false => exact ⟨false, by simp, rfl⟩

theorem onIncoming_answersAbor (ctx : Context) (c : Client) {text : String}
    (hparse : Command.parse text = .ok .abor) :
    (onIncoming ctx c (.line text)).Yields fun l _ => AnswersAbor l := by
  have hnoted : (perform ctx c .abor).Yields fun l r => (∀ x ∈ l, Request.PrecedesReply x.1) ∧
      ∃ busy, ⟨.isInProgress, busy⟩ ∈ l ∧ r.2.reply = some (aborReply busy) := by
    refine Yields.question fun _ => ?_
    refine ((onAbor_precedesReply c).yields.and (onAbor_yields c)).mono fun l r hl => ?_
    obtain ⟨⟨hinner, -⟩, busy, hbusy, hreply⟩ := hl
    refine ⟨List.forall_mem_cons.2 ⟨⟨rfl, by simp⟩, hinner⟩, busy, ?_, hreply⟩
    exact List.mem_cons_of_mem _ hbusy
  have hcommand : onIncoming ctx c (.line text) = onCommand ctx c .abor := by
    simp only [onIncoming, hparse]
  rw [hcommand, onCommand_eq]
  refine hnoted.bind fun l r hl => ?_
  obtain ⟨c', o⟩ := r
  obtain ⟨hinner, busy, hbusy, hreply⟩ := hl
  refine (deliver_delivered c' .abor o).bind fun l' onward hdelivered => ?_
  intro reply result hmem
  rw [List.append_nil] at hmem ⊢
  rcases List.mem_append.1 hmem with hmem | hmem
  · exact absurd hmem (not_writes_of_precedesReply hinner reply result)
  · refine ⟨busy, List.mem_append_left _ hbusy, ?_⟩
    exact Option.some.inj ((hdelivered.reply hmem).symm.trans hreply)

/-- Unless a data command goes on past a worker that leaves, whoever reports took the transfer that
was handed over last, and nothing has ended it before.  An `ABOR` that was told of a transfer says
that it aborted it, and any other that there is none.  The former is true, and no worker reports any
more, unless a worker left the slot between the look of the `ABOR` and its cancelling; then the
transfer has been ended before.  So each is ended once just where no such `ABOR` is answered. -/
theorem one_outcome_unless_too_late
    (hs : s.shared.slot = .fresh ∧ s.workers = [] ∧ s.held = none)
    (hcontrol : s.shared.control.holder = none ∧ s.shared.control.sent = [])
    (hrun : Traced (serve ctx address lines, s) τ (p, s')) (hraced : ¬ Races τ) :
    (∀ n s₁, s'.moveWorker? n .report = some s₁ →
      leftOpen τ = true ∧ TookLast (serve ctx address lines, s) n τ) ∧
    (∀ reply k, p = .ask (.writeReply reply) k → reply.code = 226 →
      (leftOpen τ = true ↔ ¬ TooLate τ) ∧
        ∀ n w, s'.workers[n]? = some w → KeepsSilent (p, s') n) ∧
    (∀ c text, Command.parse text = .ok .abor →
      (onIncoming ctx c (.line text)).Yields fun l _ => AnswersAbor l) ∧
    (EndsOnce τ ↔ ∀ τ₁ reply τ₂, τ = τ₁ ++ .asked (.writeReply reply) (.ok ()) :: τ₂ →
      reply.code = 226 → ¬ TooLate τ₁) := by
  have hbegins := unbegun_of_fresh hs hcontrol
  refine ⟨fun n s₁ hmove => ⟨leftOpen_of_report hbegins hrun hraced hmove,
      tookLast_of_report hbegins hrun hraced hmove⟩,
    fun reply k hp hcode => ?_, fun c text hparse => onIncoming_answersAbor ctx c hparse,
    endsOnce_iff hbegins hrun hraced⟩
  subst hp
  exact leftOpen_of_aborted hbegins hrun hraced hcode

def fickleClient : List Line.Incoming := hastyClient ++ [.line "ABOR"]

def fickleSession : Dialogue Unit := serve (usualContext "/") loopback fickleClient

/-- The worker is cancelled while it waits for the client to connect. -/
def inTime : List Choice :=
  List.replicate 34 .session ++ [.worker 0 .look] ++ List.replicate 4 .session ++
    [.worker 0 .cancel, .worker 0 .leave] ++ List.replicate 4 .session

/-- The worker leaves the slot, and reports, between the look of the `ABOR` and its cancelling. -/
def tooLate : List Choice :=
  upToLeaving ++ List.replicate 2 .session ++
    [.worker 0 .release, .worker 0 .report, .worker 0 .unlock] ++ List.replicate 6 .session

def codeToWrite : Dialogue Unit → Option Nat
  | .ask (.writeReply reply) _ => some reply.code
  | _ => none

theorem asks_of_codeToWrite {code : Nat} (h : codeToWrite p = some code) :
    ∃ reply k, p = .ask (.writeReply reply) k ∧ reply.code = code := by
  cases p with
  | done => cases h
  | ask q k =>
    cases q with
    | writeReply reply => exact ⟨reply, k, rfl, Option.some.inj h⟩
    | _ => cases h

theorem one_outcome_unless_too_late_aborted_in_time :
    ∃ τ p s', Traced (fickleSession, bareScene) τ (p, s') ∧ codeToWrite p = some 226 ∧
      s'.workers.length = 1 ∧ leftOpen τ = true ∧ KeepsSilent (p, s') 0 := by
  have hreplay : (replay plainly inTime (fickleSession, bareScene)).any (fun r =>
      !decide (Races r.1) && !decide (TooLate r.1) && codeToWrite r.2.1 == some 226 &&
        r.2.2.workers.length == 1) = true := by
    decide +kernel
  obtain ⟨τ, ⟨p, s'⟩, hrun, htest⟩ := traced_of_any hreplay
  simp only [Bool.and_eq_true, Bool.not_eq_true', decide_eq_false_iff_not, beq_iff_eq] at htest
  obtain ⟨⟨⟨hraced, hintime⟩, hcode⟩, hlength⟩ := htest
  have hall := one_outcome_unless_too_late ⟨rfl, rfl, rfl⟩ ⟨rfl, rfl⟩ hrun hraced
  obtain ⟨reply, k, rfl, hreply⟩ := asks_of_codeToWrite hcode
  obtain ⟨hopen, hsilent⟩ := hall.2.1 reply k rfl hreply
  have hw : s'.workers[0]? = some s'.workers[0] := List.getElem?_eq_getElem _
  exact ⟨τ, _, s', hrun, hcode, hlength, hopen.2 hintime, hsilent 0 _ hw⟩

/-- The worker reports that nobody connected, and then the session says that it aborted the
transfer. -/
theorem transfer_ended_twice_too_late :
    ∃ τ p s', Traced (fickleSession, bareScene) τ (p, s') ∧ ¬ Races τ ∧ ¬ EndsOnce τ ∧
      s'.shared.control.sent.map (fun (_, reply) => reply.code) =
        [220, 331, 230, 227, 150, 425, 226] := by
  have hreplay : (replay plainly tooLate (fickleSession, bareScene)).any (fun r =>
      !leftOpen r.1 && (choose? plainly .session r.2).any fun x =>
        x.1.endsTransfer && !decide (Races (r.1 ++ [x.1])) &&
          x.2.2.shared.control.sent.map (fun (_, reply) => reply.code) ==
            [220, 331, 230, 227, 150, 425, 226]) = true := by
    decide +kernel
  obtain ⟨τ, a, hrun, htest⟩ := traced_of_any hreplay
  simp only [Bool.and_eq_true, Bool.not_eq_true'] at htest
  obtain ⟨hclosed, hnext⟩ := htest
  obtain ⟨⟨e, p, s'⟩, hchoose, htest⟩ := (Option.any_eq_true ..).1 hnext
  simp only [Bool.and_eq_true, Bool.not_eq_true', decide_eq_false_iff_not, beq_iff_eq] at htest
  obtain ⟨⟨hends, hraced⟩, hcodes⟩ := htest
  refine ⟨τ ++ [e], p, s', hrun.tail (tells_of_choose hchoose), hraced, fun honce => ?_, hcodes⟩
  cases hclosed.symm.trans (honce τ e [] rfl hends)

end Session

end FtpServer
