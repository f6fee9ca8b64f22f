import Mathlib.Data.List.Basic
import FtpServer.Proofs.Attendance
import FtpServer.Proofs.OneReply

/-!
# Refused lines change nothing

Whatever the session asks for a line that it then refuses leaves the host's files, the slot and the
workers as they are.  A worker that has left the slot may be forgotten; a refused `PASS` resets the
login, a refused `RNFR` or `RNTO` drops the staged rename, and a `PASV` without a listener tears the
data connection down.
-/

namespace FtpServer

open Program Dialogue Outcome

namespace Scene

variable {α : Type} {a b : Dialogue α × Scene} {τ τ' : List Event} {s s' : Scene} {q : Request}
variable {r : q.Answer} {number : Nat} {m : Worker.Move}

structure Same (s s' : Scene) : Prop where
  tree : s'.shared.tree = s.shared.tree
  slot : s'.shared.slot = s.shared.slot
  workers : s'.workers = s.workers

theorem changed_vain {t t' : Tree} {result : Except OsError Tree} {e : OsError}
    (h : t.changed result = (.error e, t')) : t' = t := by
  cases result with
  | ok => cases h
  | error => exact (Prod.mk.inj h).2.symm

theorem openSink_vain {t t' : Tree} {p : Place} {e : OsError}
    (h : t.openSink p = (.error e, t')) : t' = t := by
  unfold Tree.openSink at h
  split at h
  next => cases h
  next => cases h
  next => exact (Prod.mk.inj h).2.symm

/-- A call on the host that is answered by a failure leaves the tree as it was. -/
theorem perform_vain {lists : Place → Except OsError Text.Bytes} {call : FileCall} {r : call.Answer}
    {t t' : Tree} (hvain : call.IsVain r) (h : t.perform lists call = (r, t')) : t' = t := by
  cases call with
  | look | openSource | list => exact (Prod.mk.inj h).2.symm
  | makeDirectory | removeDirectory | removeFile | rename =>
    cases r with
    | ok => cases hvain
    | error e => exact changed_vain h
  | openSink =>
    cases r with
    | ok => cases hvain
    | error e => exact openSink_vain h

theorem tree_of_vain {call : FileCall} {r : call.Answer} (hvain : call.IsVain r)
    (h : s.perform? (.file call) = some (r, s')) : s'.shared.tree = s.shared.tree := by
  have hfile : s.performFile call = (r, s') := Option.some.inj h
  obtain ⟨hr, hs⟩ := Prod.mk.inj hfile
  exact perform_vain hvain (Prod.ext hr (congrArg (fun s => s.shared.tree) hs))

theorem same_of_vain (hvain : q.IsVain r) (h : s.perform? q = some (r, s')) :
    s.Same s' ∧ s'.held = s.held := by
  by_cases hfile : ∃ call, q = .file call
  · obtain ⟨call, rfl⟩ := hfile
    obtain ⟨hslot, hworkers, hheld⟩ := same_of_spared rfl h
    exact ⟨⟨tree_of_vain hvain h, hslot, hworkers⟩, hheld⟩
  · have htree := (frame_of_perform h).2 fun call hq => hfile ⟨call, hq⟩
    by_cases hspared : q.sparesSlot = true
    · have hsame := same_of_spared hspared h
      exact ⟨⟨htree, hsame.slot, hsame.workers⟩, hsame.held⟩
    · cases q with
      | holdsWorker | isInProgress | isArmed =>
        cases h
        exact ⟨⟨rfl, rfl, rfl⟩, rfl⟩
      | letGoWorker | joinWorker | startWorker | install | cancel | finish | rearm => cases hvain
      | _ => exact absurd rfl hspared

theorem armed_of_moveWorker (hout : s.shared.slot.armed = false)
    (h : s.moveWorker? number m = some s') : s'.shared.slot.armed = false := by
  obtain ⟨w, w', shared, -, hadvance, rfl⟩ := advance_of_moveWorker h
  cases hadvance with
  | looksInVain _ _ _ _ hslot | givesUp _ _ _ _ hslot | takes _ _ _ _ hslot =>
    rwa [hslot, Slot.Waiter.armed_poll]
  | serves _ _ _ hslot => rwa [hslot]
  | leaves _ _ _ hslot => rw [hslot, Slot.armed_finish]
  | windsUp _ _ _ hslot => rwa [hslot]

theorem armed_of_perform (hout : s.shared.slot.armed = false) (hq : q ≠ .rearm)
    (h : s.perform? q = some (r, s')) : s'.shared.slot.armed = false := by
  by_cases hspared : q.sparesSlot = true
  · rwa [(same_of_spared hspared h).slot]
  · cases q with
    | rearm => exact absurd rfl hq
    | joinWorker number =>
      simp only [perform?] at h
      split at h
      next => cases h; exact hout
      next => cases h
    | holdsWorker | letGoWorker | startWorker | isInProgress | isArmed | install | cancel =>
      cases h
      exact hout
    | finish => cases h; rfl
    | _ => exact absurd rfl hspared

section Invariants

variable {I : Scene → Prop}

theorem Traced.invariant (h : Traced a τ b) (ha : I a.2)
    (hask : ∀ q r, .asked q r ∈ τ → ∀ s s', I s → s.perform? q = some (r, s') → I s')
    (hmove : ∀ n m, .moved n m ∈ τ → ∀ s s', I s → s.moveWorker? n m = some s' → I s')
    (hpass : ∀ s ms, I s → I (s.pass ms)) : I b.2 := by
  induction h with
  | refl => exact ha
  | tail _ htells ih =>
    have hI := ih (fun q r h => hask q r (List.mem_append_left _ h))
      fun n m h => hmove n m (List.mem_append_left _ h)
    cases htells with
    | session hanswer => exact hask _ _ (by simp) _ _ hI hanswer
    | worker number m hworker => exact hmove _ _ (by simp) _ _ hI hworker
    | time ms => exact hpass _ ms hI

/-- What one answer brings about, and each step of the run keeps, holds at its end. -/
theorem Traced.since (h : Traced a τ b)
    (hone : ∃ q r, .asked q r ∈ τ ∧ ∀ s s' : Scene, s.perform? q = some (r, s') → I s')
    (hask : ∀ q r, .asked q r ∈ τ → ∀ s s', I s → s.perform? q = some (r, s') → I s')
    (hmove : ∀ s s' n m, I s → s.moveWorker? n m = some s' → I s')
    (hpass : ∀ s ms, I s → I (s.pass ms)) : I b.2 := by
  induction h with
  | refl =>
    obtain ⟨q, r, hmem, -⟩ := hone
    exact absurd hmem List.not_mem_nil
  | tail _ htells ih =>
    obtain ⟨q, r, hmem, hbrings⟩ := hone
    rcases List.mem_append.1 hmem with hmem | hmem
    · have hI := ih ⟨q, r, hmem, hbrings⟩ fun q r h => hask q r (List.mem_append_left _ h)
      cases htells with
      | session hanswer => exact hask _ _ (by simp) _ _ hI hanswer
      | worker number m hworker => exact hmove _ _ number m hI hworker
      | time ms => exact hpass _ ms hI
    · obtain rfl := List.mem_singleton.1 hmem
      cases htells with
      | session hanswer => exact hbrings _ _ hanswer

end Invariants

/-- A slot that was seen without a worker, or was cleared, stays so unless it is made ready again. -/
theorem Traced.disarmed (h : Traced a τ b) (hnot : .asked .rearm () ∉ τ)
    (hout : .asked .isArmed false ∈ τ ∨ .asked .finish () ∈ τ) :
    b.2.shared.slot.armed = false := by
  refine h.since (I := fun s => s.shared.slot.armed = false) ?_ (fun q r hmem s s' hs hanswer => ?_)
    (fun s s' n m hs hmove => armed_of_moveWorker hs hmove) fun s ms hs => hs
  · rcases hout with hout | hout
    · refine ⟨_, _, hout, fun s s' hanswer => ?_⟩
      obtain ⟨harmed, rfl⟩ := Prod.mk.inj (Option.some.inj hanswer)
      exact harmed
    · refine ⟨_, _, hout, fun s s' hanswer => ?_⟩
      obtain ⟨-, rfl⟩ := Prod.mk.inj (Option.some.inj hanswer)
      rfl
  · refine armed_of_perform hs (fun hq => ?_) hanswer
    subst hq
    exact hnot hmem

/-- Nobody is held once a worker was let go of, unless one is started. -/
theorem Traced.released (h : Traced a τ b)
    (hnot : ∀ endpoint, .asked (.startWorker endpoint) () ∉ τ)
    (hout : ∃ number, .asked .letGoWorker number ∈ τ) : b.2.held = none := by
  obtain ⟨number, hout⟩ := hout
  refine h.since (I := fun s => s.held = none) ⟨_, _, hout, fun s s' hanswer => ?_⟩
    (fun q r hmem s s' hs hanswer => ?_)
    (fun s s' n m hs hmove => (held_of_moveWorker hmove).trans hs)
    fun s ms hs => hs
  · obtain ⟨-, rfl⟩ := Prod.mk.inj (Option.some.inj hanswer)
    rfl
  · by_cases hspared : q.sparesSlot = true
    · exact (same_of_spared hspared hanswer).held.trans hs
    · cases q with
      | startWorker endpoint => exact absurd hmem (hnot endpoint)
      | joinWorker number =>
        simp only [perform?] at hanswer
        split at hanswer
        next => cases hanswer; exact hs
        next => cases hanswer
      | holdsWorker | isInProgress | isArmed | install | cancel | finish | rearm =>
        cases hanswer
        exact hs
      | letGoWorker => cases hanswer; rfl
      | _ => exact absurd rfl hspared

/-- Whenever the session was answered in the run, `R` leads from the scene before to that after. -/
def EachAnswer (a : Dialogue α × Scene) (τ : List Event) (R : Scene → Scene → Prop) : Prop :=
  ∀ τ₁ q r τ₂ b s', τ = τ₁ ++ .asked q r :: τ₂ → Traced a τ₁ b → b.2.perform? q = some (r, s') →
    R b.2 s'

/-- Nothing is touched, and only a worker that has left the slot is let go of. -/
structure Undisturbed (s s' : Scene) : Prop where
  same : s.Same s'
  held : s'.held = s.held ∨ s'.held = none ∧ s.shared.slot.armed = false

theorem not_rearm_of_vain (h : Vain (said τ)) : .asked .rearm () ∉ τ :=
  fun hmem => h ⟨.rearm, ()⟩ (mem_said.2 hmem)

theorem eachAnswer_of_unmoved {c c' : Client} (h : Session.Unmoved c (said τ) c') :
    EachAnswer a τ Undisturbed := by
  intro τ₁ q r τ₂ b s' hτ hbefore hanswer
  by_cases hvain : q.IsVain r
  · obtain ⟨hsame, hheld⟩ := same_of_vain hvain hanswer
    exact ⟨hsame, .inl hheld⟩
  · have hsaid : said τ = said τ₁ ++ ⟨q, r⟩ :: said τ₂ := by rw [hτ, said_append, said_asked]
    generalize hl : said τ = l at h hsaid
    cases h with
    | kept h => exact absurd (h ⟨q, r⟩ (by rw [hsaid]; simp)) hvain
    | @forgotten l₁ l₂ number h₁ h₂ =>
      -- All the others are vain, so this is the question that lets go of the worker.
      have hlooked : Vain (l₁ ++ [⟨.isArmed, false⟩]) := vain_append h₁ (vain_singleton trivial)
      rw [show l₁ ++ ⟨.isArmed, false⟩ :: ⟨.letGoWorker, number⟩ :: l₂ =
        (l₁ ++ [⟨.isArmed, false⟩]) ++ ⟨.letGoWorker, number⟩ :: l₂ by simp] at hsaid
      obtain ⟨hsaid₁, heq, -⟩ := (List.append_cons_inj_of_notMem
        (fun hmem => hvain (hlooked _ hmem)) fun hmem => hvain (h₂ _ hmem)).1 hsaid
      cases heq
      obtain ⟨-, rfl⟩ := Prod.mk.inj (Option.some.inj hanswer)
      refine ⟨⟨rfl, rfl, rfl⟩, .inr ⟨rfl, hbefore.disarmed ?_ (.inl ?_)⟩⟩
      · exact not_rearm_of_vain (hsaid₁ ▸ hlooked)
      · exact mem_said.1 (hsaid₁ ▸ by simp)

end Scene

def Client.afterRefusal (c : Client) (line : Line.Incoming) (code : Nat) : Client :=
  match line with
  | .line text =>
    match Command.parse text with
    | .ok command => c.refused command code
    | .error _ => c
  | .tooLong _ | .endOfStream => c

def Request.IsStop : Request → Prop
  | .letGoWorker | .cancel | .joinWorker _ | .finish => True
  | _ => False

namespace Session

open Scene

/-- `PASV` without a listener. -/
def TearsDown (line : Line.Incoming) (code : Nat) : Prop :=
  ∃ text, line = .line text ∧ Command.parse text = .ok .pasv ∧ code = 421

inductive Refused (c : Client) (line : Line.Incoming) (code : Nat) :
    Transcript Request.Answer → Client → Prop
  | unmoved {l : Transcript Request.Answer} {c' : Client} (hnot : ¬ TearsDown line code)
      (h : Unmoved (c.afterRefusal line code) l c') : Refused c line code l c'
  | torn {l l₁ l₂ : Transcript Request.Answer} {c₁ : Client} (htears : TearsDown line code)
      (h : Unmoved c l c₁) (hstopped : Stopped l₁) (hvain : Vain l₂) :
      Refused c line code (l ++ l₁ ++ l₂) (c.withMode .none)

variable {ctx : Context} {c c' : Client} {s s' : Scene} {l l' : Transcript Request.Answer}
variable {lines : List Line.Incoming} {τ : List Event} {o : Outcome} {onward : Onward}
variable {text : String} {command : Command} {reply : Reply}

theorem vain_concluding (c : Client) (command : Command) (status : Status) :
    Vain (concluding c command status) := by
  cases status with
  | success => exact vain_nil
  | failure reason => exact vain_note _ _
  | close => exact vain_note _ _

theorem reply_of_delivered (h : Delivered c command o l onward) (hmem : .writes reply ∈ deeds l) :
    o.reply = some reply ∧ l = ⟨.lockControl, ()⟩ :: ⟨.writeReply reply, .ok ()⟩ ::
      ⟨.unlockControl, ()⟩ :: handing c command o := by
  have hhanding := not_writes_handing c command o reply
  cases h with
  | silent => exact absurd hmem hhanding
  | failed => simp [deeds, deed?] at hmem
  | @sent reply' hreply =>
    rcases List.mem_cons.1 hmem with heq | hmem
    · cases heq
      exact ⟨hreply, rfl⟩
    · exact absurd hmem hhanding

theorem afterRefusal_line (c : Client) (hparse : Command.parse text = .ok command) (code : Nat) :
    c.afterRefusal (.line text) code = c.refused command code := by
  rw [Client.afterRefusal, hparse]

theorem tearsDown_iff (hparse : Command.parse text = .ok command) (code : Nat) :
    TearsDown (.line text) code ↔ command = .pasv ∧ code = 421 := by
  constructor
  · rintro ⟨text', heq, h⟩
    cases heq
    simpa [hparse] using h
  · rintro ⟨rfl, hcode⟩
    exact ⟨text, rfl, hparse, hcode⟩

theorem refused_of_handled (hparse : Command.parse text = .ok command)
    (hhandled : Handled c command l (c', o)) (hreply : o.reply = some reply)
    (hcode : IsRefusalCode reply.code) :
    Refused c (.line text) reply.code (⟨.note (.executed c.address command), ()⟩ :: l ++
      ⟨.lockControl, ()⟩ :: ⟨.writeReply reply, .ok ()⟩ :: ⟨.unlockControl, ()⟩ ::
        handing c' command o) c' := by
  have hfirst : Vain [⟨.note (.executed c.address command), ()⟩] := vain_note _ _
  have hlast : Vain (⟨.lockControl, ()⟩ :: ⟨.writeReply reply, .ok ()⟩ :: ⟨.unlockControl, ()⟩ ::
      concluding c' command o.status) :=
    vain_append (l := [_, _, _]) (by simp [Vain, Request.IsVain]) (vain_concluding _ _ _)
  obtain ⟨hlow, hhigh⟩ := hcode
  cases hhandled with
  | ignored => cases hreply
  | refused text' hcode' hnot hgate hunmoved =>
    cases hreply
    refine .unmoved (fun h => hnot ((tearsDown_iff hparse _).1 h).2) ?_
    rw [afterRefusal_line c hparse]
    exact (hunmoved.prepend hfirst).append hlast
  | @torn l l₁ l₂ c₁ code text' hcommand hcode' hreaped hstopped hvain =>
    cases hreply
    have hfront := (hreaped.unmoved.append (vain_singleton (q := .isInProgress) (r := false)
      trivial)).prepend hfirst
    have htorn := Refused.torn ((tearsDown_iff hparse code).2 ⟨hcommand, hcode'⟩) hfront hstopped
      (vain_append hvain hlast)
    rw [hreaped.withoutMode] at htorn ⊢
    simpa [handing, Outcome.close] using htorn
  | left => cases hreply; exact absurd hlow (by simp)
  | done text' hcommand hlow' => cases hreply; exact absurd hlow (Nat.not_le.2 hlow')
  | begun => cases hreply; exact absurd hlow (by simp)

theorem onCommand_refused (ctx : Context) (hc : c.IsSound)
    (hparse : Command.parse text = .ok command) :
    (onCommand ctx c command).Yields fun l r => ∀ reply, .writes reply ∈ deeds l →
      IsRefusalCode reply.code → Refused c (.line text) reply.code l r.1 := by
  have hinner := (perform_precedesReply ctx hc.plain command).yields
  refine onCommand_yields ((perform_performed ctx hc.plain hc.staged command).and hinner)
    fun l l' c' o onward hl hdelivered reply hmem hcode => ?_
  obtain ⟨⟨hhandled, -⟩, hinner, -⟩ := hl
  rw [deeds_append, deeds_inner hinner, List.nil_append] at hmem
  obtain ⟨hreply, rfl⟩ := reply_of_delivered hdelivered hmem
  exact refused_of_handled hparse hhandled hreply hcode

theorem remark_refused {line : Line.Incoming} (record : Record) (hcode : reply.code = 500)
    (hkept : c.afterRefusal line 500 = c) :
    (do note record; return (c, ← sendOrStop reply) : Dialogue (Client × Onward)).Yields
      fun l r => ∀ reply, .writes reply ∈ deeds l → IsRefusalCode reply.code →
        Refused c line reply.code l r.1 := by
  refine remark_yields (fun cause reply' hmem => ?_) fun reply' hmem _ => ?_
  · simp [remarking, deeds, deed?] at hmem
  · obtain rfl : reply = reply' := by simpa [remarking, deeds, deed?] using hmem
    have hnot : ¬ TearsDown line reply.code := by
      rintro ⟨_, _, _, h⟩
      simp [hcode] at h
    refine .unmoved hnot ?_
    rw [hcode, hkept]
    exact .kept (by simp [remarking, Vain, Request.IsVain])

/-- A refusal has touched nothing, whatever the answers are that the session is given. -/
theorem onIncoming_refused (ctx : Context) (hc : c.IsSound) (line : Line.Incoming) :
    (onIncoming ctx c line).Yields fun l r => ∀ reply, .writes reply ∈ deeds l →
      IsRefusalCode reply.code → Refused c line reply.code l r.1 := by
  unfold onIncoming
  split
  next =>
    refine Yields.question fun _ reply hmem => ?_
    simp [deeds, deed?] at hmem
  next => exact remark_refused _ rfl rfl
  next text =>
    split
    next command hparse => exact onCommand_refused ctx hc hparse
    next e hparse =>
      refine remark_refused _ (by cases e <;> rfl) ?_
      rw [Client.afterRefusal, hparse]

section Runs

variable {line : Line.Incoming} {code : Nat} {α : Type} {a b : Dialogue α × Scene}

theorem Unmoved.asks (h : Unmoved c l c') {q : Request} {r : q.Answer} (hmem : ⟨q, r⟩ ∈ l) :
    q.IsVain r ∨ q = .letGoWorker := by
  cases h with
  | kept h => exact .inl (h _ hmem)
  | forgotten h h' =>
    rcases List.mem_append.1 hmem with hmem | hmem
    · exact .inl (h _ hmem)
    · rcases List.mem_cons.1 hmem with heq | hmem
      · cases heq
        exact .inl trivial
      · rcases List.mem_cons.1 hmem with heq | hmem
        · cases heq
          exact .inr rfl
        · exact .inl (h' _ hmem)

/-- Stopping a worker is all that is asked, beside what is asked in vain. -/
theorem Refused.asks (h : Refused c line code l c') {q : Request} {r : q.Answer}
    (hmem : ⟨q, r⟩ ∈ l) : q.IsVain r ∨ q.IsStop := by
  have hunmoved {c c' : Client} {l : Transcript Request.Answer} (h : Unmoved c l c')
      (hmem : ⟨q, r⟩ ∈ l) : q.IsVain r ∨ q.IsStop :=
    (h.asks hmem).imp_right fun hq => by
      subst hq
      trivial
  cases h with
  | unmoved _ h => exact hunmoved h hmem
  | torn _ h hstopped hvain =>
    rcases List.mem_append.1 hmem with hmem | hmem
    · rcases List.mem_append.1 hmem with hmem | hmem
      · exact hunmoved h hmem
      · have hasked := List.mem_map_of_mem (f := Sigma.fst) hmem
        right
        cases hstopped with
        | nobody =>
          obtain rfl : q = .letGoWorker := by simpa using hasked
          trivial
        | somebody number =>
          rcases (by simpa using hasked : q = .letGoWorker ∨ q = .cancel ∨
            q = .joinWorker number ∨ q = .finish) with rfl | rfl | rfl | rfl <;> trivial
    · exact .inl (hvain _ hmem)

theorem tree_of_refused (h : Refused c line code l c') {q : Request} {r : q.Answer}
    (hmem : ⟨q, r⟩ ∈ l) (hanswer : s.perform? q = some (r, s')) :
    s'.shared.tree = s.shared.tree := by
  rcases h.asks hmem with hvain | hasked
  · exact (same_of_vain hvain hanswer).1.tree
  · refine (frame_of_perform hanswer).2 fun call hq => ?_
    subst hq
    exact hasked

theorem same_of_unmoved (h : Unmoved c l c') {q : Request} {r : q.Answer} (hmem : ⟨q, r⟩ ∈ l)
    (hanswer : s.perform? q = some (r, s')) : s.Same s' := by
  rcases h.asks hmem with hvain | rfl
  · exact (same_of_vain hvain hanswer).1
  · obtain ⟨-, rfl⟩ := Prod.mk.inj (Option.some.inj hanswer)
    exact ⟨rfl, rfl, rfl⟩

/-- No worker is started, and the slot is not made ready for one. -/
theorem starts_nothing (h : ∀ q r, .asked q r ∈ τ → q.IsVain r ∨ q.IsStop) :
    .asked .rearm () ∉ τ ∧ ∀ endpoint, .asked (.startWorker endpoint) () ∉ τ :=
  ⟨fun hmem => (h _ _ hmem).elim id id, fun _ hmem => (h _ _ hmem).elim id id⟩

/-- A worker is held as before, or it was forgotten and had left the slot. -/
theorem held_of_unmoved (h : Unmoved c (said τ) c') (hrun : Traced a τ b) :
    c' = c ∧ b.2.held = a.2.held ∨
      c' = c.withMode .none ∧ b.2.held = none ∧ b.2.shared.slot.armed = false := by
  obtain ⟨hrearm, hstart⟩ := starts_nothing fun q r hmem =>
    (h.asks (mem_said.2 hmem)).imp_right fun hq => by
      subst hq
      trivial
  generalize hl : said τ = l at h
  cases h with
  | kept h =>
    refine .inl ⟨rfl, hrun.invariant (I := fun t => t.held = a.2.held) rfl
      (fun q r hmem t t' ht hanswer => ?_) (fun n m _ t t' ht hmove => ?_) fun t ms ht => ht⟩
    · exact (same_of_vain (h _ (hl ▸ mem_said.2 hmem)) hanswer).2.trans ht
    · exact (held_of_moveWorker hmove).trans ht
  | @forgotten l₁ l₂ number _ _ =>
    refine .inr ⟨rfl, hrun.released hstart ⟨number, mem_said.1 ?_⟩,
      hrun.disarmed hrearm (.inl (mem_said.1 ?_))⟩
    · rw [hl]
      simp
    · rw [hl]
      simp

theorem Refused.unmoved_of_not (h : Refused c line code l c') (hnot : ¬ TearsDown line code) :
    Unmoved (c.afterRefusal line code) l c' := by
  cases h with
  | unmoved _ h => exact h
  | torn htears => exact absurd htears hnot

theorem released_of_torn (h : Refused c line code (said τ) c') (htears : TearsDown line code)
    (hrun : Traced a τ b) : c' = c.withMode .none ∧ b.2.held = none ∧
      ∀ number, .asked .letGoWorker (some number) ∈ τ → b.2.shared.slot.armed = false := by
  obtain ⟨hrearm, hstart⟩ := starts_nothing fun q r hmem => h.asks (mem_said.2 hmem)
  generalize hl : said τ = l at h
  cases h with
  | unmoved hnot => exact absurd htears hnot
  | @torn l l₁ l₂ c₁ _ hunmoved hstopped hvain =>
    have hlets : ∃ number, .asked .letGoWorker number ∈ τ := by
      cases hstopped with
      | nobody => exact ⟨none, mem_said.1 (by rw [hl]; simp)⟩
      | somebody number => exact ⟨some number, mem_said.1 (by rw [hl]; simp)⟩
    refine ⟨rfl, hrun.released hstart hlets, fun number hmem => hrun.disarmed hrearm ?_⟩
    have hmem := hl ▸ mem_said.2 hmem
    cases hstopped with
    | somebody => exact .inr (mem_said.1 (by rw [hl]; simp))
    | nobody =>
      cases hunmoved with
      | forgotten => exact .inl (mem_said.1 (by rw [hl]; simp))
      | kept hkept =>
        rcases List.mem_append.1 hmem with hmem | hmem
        · rcases List.mem_append.1 hmem with hmem | hmem
          · exact (hkept _ hmem).elim
          · cases List.mem_singleton.1 hmem
        · exact (hvain _ hmem).elim

/-- A line that is refused changes nothing.  Wherever the session is answered meanwhile, the tree, the
slot and the workers are as before, so that only workers could change them; of the client nothing is
lost but a login with a refused `PASS`, and the staged rename with `RNFR` and `RNTO`.  The worker is
held as before, unless it had left the slot.  Only a `PASV` without a listener tears the data
connection down; it leaves the tree and everything else of the client as well. -/
theorem refusals_change_nothing {address : Socket} {s₀ : Scene} {ts : List Turn}
    (hreach : Proceeds ctx (.connect address, s₀) ts (c, s) .goOn)
    (hrun : Traced (onIncoming ctx c line, s) τ (.done (c', onward), s'))
    (hreply : .writes reply ∈ deeds (said τ)) (hcode : IsRefusalCode reply.code) :
    EachAnswer (onIncoming ctx c line, s) τ (fun s s' => s'.shared.tree = s.shared.tree) ∧
    ((∀ n m, .moved n m ∉ τ) → s'.shared.tree = s.shared.tree) ∧
    (¬ TearsDown line reply.code →
      EachAnswer (onIncoming ctx c line, s) τ Undisturbed ∧
      ((∀ n m, .moved n m ∉ τ) → s.Same s') ∧
      (c' = c.afterRefusal line reply.code ∧ s'.held = s.held ∨
        c' = (c.afterRefusal line reply.code).withMode .none ∧ s'.held = none ∧
          s'.shared.slot.armed = false)) ∧
    (TearsDown line reply.code → c' = c.withMode .none ∧ s'.held = none ∧
      ∀ number, .asked .letGoWorker (some number) ∈ τ → s'.shared.slot.armed = false) := by
  have hsound := (hreach.isSound (Client.connect_isSound address)).1
  have hrefused : Refused c line reply.code (said τ) c' :=
    (onIncoming_refused ctx hsound line).of_goes hrun.goes reply hreply hcode
  refine ⟨fun τ₁ q r τ₂ b t hτ _ hanswer => ?_, fun hstill => ?_, fun hnot => ?_,
    fun htears => released_of_torn hrefused htears hrun⟩
  · exact tree_of_refused hrefused (mem_said.2 (by rw [hτ]; simp)) hanswer
  · refine hrun.invariant (I := fun t => t.shared.tree = s.shared.tree) rfl
      (fun q r hmem t t' ht hanswer => ?_) (fun n m hmem => absurd hmem (hstill n m))
      fun _ _ ht => ht
    exact (tree_of_refused hrefused (mem_said.2 hmem) hanswer).trans ht
  · have hunmoved := hrefused.unmoved_of_not hnot
    refine ⟨eachAnswer_of_unmoved hunmoved, fun hstill => ?_, held_of_unmoved hunmoved hrun⟩
    refine hrun.invariant (I := fun t => s.Same t) ⟨rfl, rfl, rfl⟩
      (fun q r hmem t t' ht hanswer => ?_) (fun n m hmem => absurd hmem (hstill n m))
      fun _ _ ht => ⟨ht.tree, ht.slot, ht.workers⟩
    have hsame := same_of_unmoved hunmoved (mem_said.2 hmem) hanswer
    exact ⟨hsame.tree.trans ht.tree, hsame.slot.trans ht.slot, hsame.workers.trans ht.workers⟩

def listeningClient : List Line.Incoming :=
  [.line "USER anonymous", .line "PASS guest", .line "PASV"]

/-- A `PORT` that makes no sense leaves the listener of the `PASV` before it. -/
theorem refusals_change_nothing_after_a_bad_port :
    ∃ ts c s τ c' s' reply, Proceeds (usualContext "/")
        (.connect loopback, { Scene.start Tree.bare {} with lister := .fixed [] }) ts (c, s) .goOn ∧
      Traced (onIncoming (usualContext "/") c (.line "PORT 1,2,3"), s) τ (.done (c', .goOn), s') ∧
      .writes reply ∈ deeds (said τ) ∧ reply.code = 501 ∧ c'.dataMode = .passive ∧
      s'.held = some 0 ∧ s'.shared.slot.armed = true ∧ s.Same s' := by
  have hplay : (takeTurns (usualContext "/")
      (.connect loopback, { Scene.start Tree.bare {} with lister := .fixed [] })
      listeningClient).any (fun (_, c, s) =>
        (recite (onIncoming (usualContext "/") c (.line "PORT 1,2,3")) s).any
          fun (τ, (c', onward), s') =>
            (deeds (said τ)).map Deed.code? == [some 501] && onward == .goOn &&
              c'.dataMode == .passive && s'.held == some 0 && s'.shared.slot.armed) = true := by
    decide +kernel
  obtain ⟨⟨ts, c, s⟩, hturns, hplay⟩ := (Option.any_eq_true ..).1 hplay
  obtain ⟨⟨τ, ⟨c', onward⟩, s'⟩, hrecite, htest⟩ := (Option.any_eq_true ..).1 hplay
  simp only [Bool.and_eq_true, beq_iff_eq] at htest
  obtain ⟨⟨⟨⟨hdeeds, rfl⟩, hmode⟩, hheld⟩, harmed⟩ := htest
  obtain ⟨reply, hreply, hcode⟩ : ∃ reply, .writes reply ∈ deeds (said τ) ∧ reply.code = 501 := by
    obtain ⟨deed, hmem, hdeed⟩ := List.mem_map.1 (hdeeds ▸ List.mem_singleton_self (some 501))
    cases deed with
    | hands => cases hdeed
    | writes reply => exact ⟨reply, hmem, Option.some.inj hdeed⟩
  have hreach := proceeds_of_takeTurns hturns
  have hrun := traced_of_recite hrecite
  have hrefusal : IsRefusalCode reply.code := hcode ▸ ⟨by decide, by decide⟩
  have hnot : ¬ TearsDown (.line "PORT 1,2,3") reply.code := fun ⟨_, _, _, h⟩ => by simp [hcode] at h
  obtain ⟨-, -, hunmoved, -⟩ := refusals_change_nothing hreach hrun hreply hrefusal
  exact ⟨ts, c, s, τ, c', s', reply, hreach, hrun, hreply, hcode, hmode, hheld, harmed,
    (hunmoved hnot).2.1 (not_moved_of_recite hrecite)⟩

end Runs

end Session

end FtpServer
