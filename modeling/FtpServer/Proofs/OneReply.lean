import FtpServer.Proofs.Turns
import FtpServer.Proofs.HandledCommands

/-!
# One reply for every line

As long as replies can be sent, the session answers every line once and in its turn.  Passed over in
silence is only the command that would open a transfer while another one is in progress; a transfer
is handed to the worker right behind the reply that announces it; and the session stops only at the
end of the lines, at `QUIT`, and at a `PASV` for which there is no listener.
-/

namespace FtpServer.Session

open Program Dialogue Scene Outcome

/-- What the session does for others to see: a reply that went out, or a transfer that the worker can
take. -/
inductive Deed
  | writes (reply : Reply)
  | hands (transfer : Transfer)
  deriving DecidableEq, Repr

def deed? : (q : Request) × q.Answer → Option Deed
  | ⟨.writeReply reply, .ok ()⟩ => some (.writes reply)
  | ⟨.install transfer, _⟩ => some (.hands transfer)
  | _ => none

def deeds (l : Transcript Request.Answer) : List Deed := l.filterMap deed?

theorem mem_of_writes {l : Transcript Request.Answer} {reply : Reply}
    (h : .writes reply ∈ deeds l) : ⟨.writeReply reply, .ok ()⟩ ∈ l := by
  obtain ⟨⟨q, r⟩, hmem, hdeed⟩ := List.mem_filterMap.1 h
  unfold deed? at hdeed
  split at hdeed
  next heq =>
    cases heq
    cases hdeed
    exact hmem
  next => cases hdeed
  next => cases hdeed

def isLost : (q : Request) × q.Answer → Bool
  | ⟨.writeReply _, .error _⟩ => true
  | _ => false

abbrev WritesSucceed (l : Transcript Request.Answer) : Prop := ∀ x ∈ l, isLost x = false

def OpensTransfer (c : Client) (line : Line.Incoming) : Prop :=
  ∃ text command, line = .line text ∧ Command.parse text = .ok command ∧
    command.opensTransfer = true ∧ c.isLoggedIn = true

/-- The line with a reply of this code is the last: `QUIT`, or `PASV` without a listener. -/
def Ends (line : Line.Incoming) (code : Nat) : Prop :=
  ∃ text, line = .line text ∧
    (Command.parse text = .ok .quit ∧ code = 221 ∨ Command.parse text = .ok .pasv ∧ code = 421)

/-- How a line is dealt with as long as replies go out. -/
inductive Settles (c : Client) :
    Line.Incoming → Transcript Request.Answer → Client × Onward → Prop
  /-- There is no line any more. -/
  | ended : Settles c .endOfStream [⟨.note (.closedByClient c.address), ()⟩] (c, .stop)
  /-- The gate finds a transfer in progress, and nothing else is looked at. -/
  | ignored {text : String} {command : Command} {l : Transcript Request.Answer} {c' : Client}
      (hparse : Command.parse text = .ok command) (hopens : command.opensTransfer = true)
      (hin : c.isLoggedIn = true) (hreaped : Reaped c l c') :
      Settles c (.line text)
        (⟨.note (.executed c.address command), ()⟩ ::
          l ++ [⟨.isInProgress, true⟩, ⟨.note (.transferIgnored c'.address), ()⟩]) (c', .goOn)
  /-- One reply goes out. -/
  | answered {line : Line.Incoming} {l : Transcript Request.Answer} {c' : Client} {onward : Onward}
      (reply : Reply) (hdeeds : deeds l = [.writes reply]) (hcode : reply.code ≠ 150)
      (hgate : OpensTransfer c line → ⟨.isInProgress, true⟩ ∉ l)
      (hends : onward = .stop ↔ Ends line reply.code) : Settles c line l (c', onward)
  /-- One reply goes out, and then the transfer that it announces is handed over. -/
  | begun {line : Line.Incoming} {l : Transcript Request.Answer} {c' : Client} (reply : Reply)
      (transfer : Transfer) (hopens : OpensTransfer c line)
      (hdeeds : deeds l = [.writes reply, .hands transfer]) (hcode : reply.code = 150)
      (hgate : ⟨.isInProgress, true⟩ ∉ l) : Settles c line l (c', .goOn)

variable {ctx : Context} {c c' : Client} {s s' : Scene} {l l' : Transcript Request.Answer}
variable {lines : List Line.Incoming} {τ : List Event} {o : Outcome} {onward : Onward}

@[simp] theorem deeds_nil : deeds [] = [] := rfl

@[simp] theorem deeds_append (l l' : Transcript Request.Answer) :
    deeds (l ++ l') = deeds l ++ deeds l' := List.filterMap_append

@[simp] theorem deeds_concluding (c : Client) (command : Command) (status : Status) :
    deeds (concluding c command status) = [] := by
  cases status <;> rfl

theorem deeds_handing (c : Client) (command : Command) (o : Outcome) :
    deeds (handing c command o) = (o.transfer.map .hands).toList := by
  unfold handing
  split
  next transfer h =>
    rw [h]
    exact congrArg (Deed.hands transfer :: ·) (deeds_concluding c command o.status)
  next h => rw [h, deeds_concluding]; rfl

theorem not_writes_handing (c : Client) (command : Command) (o : Outcome) (reply : Reply) :
    .writes reply ∉ deeds (handing c command o) := by
  simp [deeds_handing]

theorem deeds_inner (h : ∀ x ∈ l, Request.PrecedesReply x.1) : deeds l = [] := by
  refine List.filterMap_eq_nil_iff.2 fun x hx => ?_
  obtain ⟨hcontrol, hinstall⟩ := h x hx
  obtain ⟨q, r⟩ := x
  cases q with
  | writeReply reply => cases hcontrol
  | install transfer => exact absurd rfl (hinstall transfer)
  | _ => rfl

theorem not_writesSucceed (reply : Reply) (cause : OsError)
    (hl : ⟨.writeReply reply, .error cause⟩ ∈ l) : ¬ WritesSucceed l :=
  fun h => Bool.noConfusion (h _ hl)

theorem remark_settles {line : Line.Incoming} (record : Record) {reply : Reply}
    (hcode : reply.code ≠ 150) (hopens : ¬ OpensTransfer c line) (hends : ¬ Ends line reply.code) :
    (do note record; return (c, ← sendOrStop reply) : Dialogue (Client × Onward)).Yields
      fun l r => WritesSucceed l → Settles c line l r := by
  refine remark_yields (fun cause h => ?_) fun _ => ?_
  · exact absurd h (not_writesSucceed reply cause (by simp [remarking]))
  · refine .answered reply rfl hcode (fun h => absurd h hopens) ⟨fun h => ?_, fun h => ?_⟩
    · cases h
    · exact absurd h hends

section Commands

variable {text : String} {command : Command} {reply : Reply}

def sending (c c' : Client) (command : Command) (l : Transcript Request.Answer) (reply : Reply)
    (o : Outcome) : Transcript Request.Answer :=
  ⟨.note (.executed c.address command), ()⟩ :: l ++
    ⟨.lockControl, ()⟩ :: ⟨.writeReply reply, .ok ()⟩ :: ⟨.unlockControl, ()⟩ ::
      handing c' command o

theorem deeds_sending (hl : deeds l = []) :
    deeds (sending c c' command l reply o) =
      .writes reply :: (o.transfer.map .hands).toList := by
  rw [sending, deeds_append, ← deeds_handing c' command]
  show deeds l ++ _ = _
  rw [hl]
  rfl

theorem gate_sending (hl : ⟨.isInProgress, true⟩ ∉ l) :
    ⟨.isInProgress, true⟩ ∉ sending c c' command l reply o := by
  intro hmem
  rcases List.mem_append.1 hmem with hmem | hmem
  · rcases List.mem_cons.1 hmem with heq | hmem
    · cases heq
    · exact hl hmem
  · have hasked := List.mem_map_of_mem (f := Sigma.fst) hmem
    unfold handing concluding at hasked
    split at hasked <;> split at hasked <;> simp at hasked

theorem opensTransfer_iff (hparse : Command.parse text = .ok command) :
    OpensTransfer c (.line text) ↔ command.opensTransfer = true ∧ c.isLoggedIn = true := by
  constructor
  · rintro ⟨text', command', heq, hparse', hopens⟩
    cases heq
    rw [hparse] at hparse'
    cases hparse'
    exact hopens
  · exact fun h => ⟨text, command, rfl, hparse, h⟩

theorem ends_iff (hparse : Command.parse text = .ok command) (code : Nat) :
    Ends (.line text) code ↔ command = .quit ∧ code = 221 ∨ command = .pasv ∧ code = 421 := by
  constructor
  · rintro ⟨text', heq, h⟩
    cases heq
    simpa [hparse] using h
  · exact fun h => ⟨text, rfl, by simpa [hparse] using h⟩

theorem requiresLogin_of_opensTransfer (h : command.opensTransfer = true) :
    command.requiresLogin = true := by
  cases command <;> first | rfl | cases h

theorem settles_answered (hparse : Command.parse text = .ok command) (hinner : deeds l = [])
    (htransfer : o.transfer = none) (hcode : reply.code ≠ 150)
    (hgate : command.opensTransfer = true → ⟨.isInProgress, true⟩ ∉ l)
    (hends : o.status = .close ↔
      command = .quit ∧ reply.code = 221 ∨ command = .pasv ∧ reply.code = 421) :
    Settles c (.line text) (sending c c' command l reply o) (c', onwardOf o) := by
  have hdeeds : deeds (sending c c' command l reply o) = [.writes reply] := by
    rw [deeds_sending hinner, htransfer]
    rfl
  refine .answered reply hdeeds hcode
    (fun hopens => gate_sending (hgate ((opensTransfer_iff hparse).1 hopens).1)) ?_
  rw [ends_iff hparse, ← hends, onwardOf]
  split <;> simp_all

theorem settles_of_handled (hparse : Command.parse text = .ok command)
    (hhandled : Handled c command l (c', o)) (hinner : deeds l = [])
    (hlogin : command.requiresLogin = true → c.isLoggedIn = true ∨ (c', o) = (c, loginFirst))
    (hdelivered : Delivered c' command o l' onward) (hwrites : WritesSucceed l') :
    Settles c (.line text) (⟨.note (.executed c.address command), ()⟩ :: l ++ l') (c', onward) := by
  have hin (hopens : command.opensTransfer = true) (ho : o.status = .success) :
      c.isLoggedIn = true := by
    refine (hlogin (requiresLogin_of_opensTransfer hopens)).resolve_right fun h => ?_
    rw [(Prod.mk.inj h).2] at ho
    cases ho
  cases hdelivered with
  | @failed reply cause record hreply =>
    exact absurd hwrites (not_writesSucceed reply cause (by simp))
  | silent hreply =>
    cases hhandled with
    | ignored hopens hreaped =>
      rw [show handing c' command ignored = [] from rfl, List.append_nil]
      exact .ignored hparse hopens (hin hopens rfl) hreaped
    | _ => cases hreply
  | sent hreply =>
    cases hhandled with
    | ignored => cases hreply
    | @refused l c' code text' hcode hnot hgate =>
      cases hreply
      refine settles_answered hparse hinner rfl (fun h => ?_) hgate
        ⟨fun h => (by cases h), ?_⟩
      · obtain rfl : code = 150 := h
        exact absurd hcode (by decide)
      · rintro (⟨-, rfl⟩ | ⟨-, rfl⟩)
        · exact absurd hcode (by decide)
        · exact absurd rfl hnot
    | torn text' hcommand hcode =>
      cases hreply
      subst hcommand hcode
      exact settles_answered hparse hinner rfl (by simp) (fun h => by cases h)
        ⟨fun _ => .inr ⟨rfl, rfl⟩, fun _ => rfl⟩
    | left text' hcommand =>
      cases hreply
      subst hcommand
      exact settles_answered hparse hinner rfl (by simp) (fun h => by cases h)
        ⟨fun _ => .inl ⟨rfl, rfl⟩, fun _ => rfl⟩
    | done text' hcommand hcode hconsistent =>
      cases hreply
      refine settles_answered hparse hinner rfl hconsistent.1
        (fun h => by rw [hcommand] at h; cases h) ⟨fun h => (by cases h), ?_⟩
      rintro (⟨-, rfl⟩ | ⟨-, rfl⟩)
      · exact absurd rfl hconsistent.2.1
      · exact absurd rfl hconsistent.2.2
    | begun text' transfer hopens hgate =>
      cases hreply
      exact .begun _ transfer ((opensTransfer_iff hparse).2 ⟨hopens, hin hopens rfl⟩)
        (deeds_sending hinner) rfl (gate_sending hgate)

theorem onCommand_settles (ctx : Context) (hc : c.IsSound)
    (hparse : Command.parse text = .ok command) :
    (onCommand ctx c command).Yields fun l r => WritesSucceed l → Settles c (.line text) l r := by
  have hinner := (perform_precedesReply ctx hc.plain command).yields
  refine onCommand_yields ((perform_performed ctx hc.plain hc.staged command).and hinner)
    fun l l' c' o onward hl hdelivered hwrites => ?_
  obtain ⟨⟨hhandled, hlogin⟩, hinner, -⟩ := hl
  exact settles_of_handled hparse hhandled
    (deeds_inner fun x hx => hinner x (List.mem_cons_of_mem _ hx)) hlogin hdelivered
    (List.forall_mem_append.1 hwrites).2

end Commands

/-- Every line is settled, whatever the answers are that the session is given. -/
theorem onIncoming_settles (ctx : Context) (hc : c.IsSound) (line : Line.Incoming) :
    (onIncoming ctx c line).Yields fun l r => WritesSucceed l → Settles c line l r := by
  unfold onIncoming
  split
  next => exact Yields.question fun _ _ => .ended
  next kept =>
    refine remark_settles _ (by decide) ?_ ?_
    · rintro ⟨text, command, heq, -⟩
      cases heq
    · rintro ⟨text, heq, -⟩
      cases heq
  next text =>
    split
    next command hparse => exact onCommand_settles ctx hc hparse
    next e hparse =>
      refine remark_settles _ ?_ ?_ ?_
      · cases e <;> simp [unrecognized, CommandError.code]
      · rintro ⟨text', command, heq, hparse', -⟩
        cases heq
        rw [hparse] at hparse'
        cases hparse'
      · rintro ⟨text', heq, h⟩
        cases heq
        simp [hparse] at h

theorem send_deeds (reply : Reply) : (send reply).Yields fun l r =>
    WritesSucceed l → r = .ok () ∧ deeds l = [.writes reply] := by
  refine Yields.question fun _ => ?_
  refine Yields.question fun result => ?_
  refine Yields.question fun _ => ?_
  cases result with
  | error cause => exact fun h => absurd h (not_writesSucceed reply cause (by simp))
  | ok => exact fun _ => ⟨rfl, rfl⟩

theorem close_deeds (c : Client) : (close c).Yields fun l _ => deeds l = [] := by
  have hstop : (stopWorker c).Keeps (fun _ _ => True) (fun q => ∀ r, deed? ⟨q, r⟩ = none)
      fun _ => True := by
    refine (stopWorker_precedesReply c).weaken (fun _ _ hr => hr) fun q hq r => ?_
    exact List.filterMap_eq_nil_iff.1 (deeds_inner (l := [⟨q, r⟩]) (by simpa using hq)) _ (by simp)
  have hclose : (close c).Keeps (fun _ _ => True) (fun q => ∀ r, deed? ⟨q, r⟩ = none)
      fun _ => True := by
    refine hstop.bind fun c _ => ?_
    refine Keeps.question (fun _ => rfl) fun _ _ => ?_
    refine Keeps.question (fun _ => rfl) fun _ _ => ?_
    refine Keeps.question (fun _ => rfl) fun _ _ => ?_
    refine Keeps.question (fun _ => rfl) fun _ _ => ?_
    refine Keeps.question (fun _ => rfl) fun _ _ => ?_
    exact Keeps.question (fun _ => rfl) fun _ _ => trivial
  exact hclose.yields.mono fun l _ hl =>
    List.filterMap_eq_nil_iff.2 fun x hx => hl.1 x hx x.2

/-- Whatever is asked, there is an answer with which no reply is lost. -/
theorem exists_answer (q : Request) : ∃ r : q.Answer, isLost ⟨q, r⟩ = false := by
  cases q with
  | file call => cases call <;> exact ⟨.error .notFound, rfl⟩
  | writeReply reply => exact ⟨.ok (), rfl⟩
  | authenticate | holdsWorker | isInProgress | isArmed => exact ⟨false, rfl⟩
  | listen => exact ⟨.error .notFound, rfl⟩
  | letGoWorker => exact ⟨none, rfl⟩
  | totals => exact ⟨⟨0, 0⟩, rfl⟩
  | _ => exact ⟨(), rfl⟩

theorem Goes.succeeds {α : Type} {p p' : Dialogue α} (h : p.Goes l p') (hl : WritesSucceed l) :
    ∃ l' a, p.Goes (l ++ l') (.done a) ∧ WritesSucceed (l ++ l') := by
  obtain ⟨l', a, hends, hl'⟩ := Goes.ends exists_answer p'
  exact ⟨l', a, h.trans hends, List.forall_mem_append.2 ⟨hl, hl'⟩⟩

theorem deeds_prefix (l l' : Transcript Request.Answer) : deeds l <+: deeds (l ++ l') := by
  rw [deeds_append]
  exact List.prefix_append _ _

theorem WritesSucceed.part {τ τ' : List Event} (h : WritesSucceed (said τ)) (hτ : τ' ⊆ τ) :
    WritesSucceed (said τ') :=
  fun x hx => h x (mem_said.2 (hτ (mem_said.1 hx)))

/-- As long as replies go out, a session greets its client and then settles one line after the other:
each gets one reply, unless it asks for a transfer while another is in progress, and a transfer is
handed over right behind the reply that announces it.  The line that the session is at can still be
settled in this way, and there is no reply any more once the session has stopped. -/
theorem one_reply_per_line {address : Socket} {p : Dialogue Unit}
    (hrun : Traced (serve ctx address lines, s) τ (p, s')) (hwrites : WritesSucceed (said τ)) :
    deeds (said τ) <+: [.writes (greeting ctx)] ∨
      ∃ s₁ greeted ts b onward rest,
        τ = greeted ++ ts.flatMap Turn.events ++ rest ∧
        deeds (said greeted) = [.writes (greeting ctx)] ∧
        Proceeds ctx (.connect address, s₁) ts b onward ∧ ts.map Turn.line <+: lines ∧
        (∀ t ∈ ts, Settles t.before.1 t.line t.transcript (t.after.1, t.onward)) ∧
        ((onward = .goOn ∧ ∃ line l r, ts.map Turn.line ++ [line] <+: lines ∧
            said rest <+: l ∧ Settles b.1 line l r) ∨
          ((onward = .goOn → ts.map Turn.line = lines) ∧ deeds (said rest) = [])) := by
  rcases turns_of_serve hrun with ⟨p', hgreeting, -⟩ |
    ⟨s₁, greeted, ts, b, onward, rest, hgreeting, hturns, rfl, hunderway⟩
  · left
    obtain ⟨l', r, hends, hl'⟩ := Goes.succeeds hgreeting.goes hwrites
    rw [← ((send_deeds _).of_goes hends hl').2]
    exact deeds_prefix _ _
  · right
    have hsound := hturns.isSound (Client.connect_isSound address)
    have hgreeted : WritesSucceed (said greeted) := hwrites.part (by simp)
    have hrest : WritesSucceed (said rest) := hwrites.part (by simp)
    have hsettles : ∀ t ∈ ts, Settles t.before.1 t.line t.transcript (t.after.1, t.onward) := by
      intro t ht
      have hevents : t.events ⊆ greeted ++ ts.flatMap Turn.events ++ rest := fun e he => by
        simp only [List.mem_append, List.mem_flatMap]
        exact .inl (.inr ⟨t, ht, he⟩)
      exact (onIncoming_settles ctx (hsound.2 t ht) t.line).of_goes (hturns.runs t ht).goes
        (hwrites.part hevents)
    refine ⟨s₁, greeted, ts, b, onward, rest, rfl,
      ((send_deeds _).of_goes hgreeting.goes hgreeted).2, hturns, ?_, hsettles, ?_⟩
    · cases hunderway with
      | amid hlines => exact (List.prefix_append _ _).trans hlines
      | closing hlines => exact hlines
    · cases hunderway with
      | @amid line q next hlines honward hat =>
        obtain ⟨l', r, hends, hl'⟩ := Goes.succeeds hat.goes hrest
        exact .inl ⟨honward, line, said rest ++ l', r, hlines, List.prefix_append _ _,
          (onIncoming_settles ctx hsound.1 line).of_goes hends hl'⟩
      | closing hlines hall hclose =>
        obtain ⟨l', r, hends, hl'⟩ := Goes.succeeds hclose.goes hrest
        have hnone := (close_deeds b.1).of_goes hends
        rw [deeds_append, List.append_eq_nil_iff] at hnone
        exact .inr ⟨hall, hnone.1⟩

def impatientClient : List Line.Incoming :=
  [.line "USER anonymous", .line "PASS guest", .line "PASV", .line "LIST", .line "LIST",
    .line "NOOP"]

def Deed.code? : Deed → Option Nat
  | .writes reply => some reply.code
  | .hands _ => none

theorem one_reply_per_line_but_for_the_second_listing :
    ∃ τ p s' s₁ greeted ts b onward rest,
      Traced (serve (usualContext "/") loopback impatientClient,
        { Scene.start Tree.bare {} with lister := .fixed [] }) τ (p, s') ∧
      (deeds (said τ)).map Deed.code? =
        [some 220, some 331, some 230, some 227, some 150, none, some 200] ∧
      τ = greeted ++ ts.flatMap Turn.events ++ rest ∧
      Proceeds (usualContext "/") (.connect loopback, s₁) ts b onward ∧
      ∀ t ∈ ts, Settles t.before.1 t.line t.transcript (t.after.1, t.onward) := by
  have hreplay : (replay plainly (List.replicate 43 .session)
      (serve (usualContext "/") loopback impatientClient,
        { Scene.start Tree.bare {} with lister := .fixed [] })).any (fun r =>
          (said r.1).all (fun x => !isLost x) &&
          (deeds (said r.1)).map Deed.code? ==
            [some 220, some 331, some 230, some 227, some 150, none, some 200]) = true := by
    decide +kernel
  obtain ⟨τ, ⟨p, s'⟩, hrun, htest⟩ := traced_of_any hreplay
  simp only [Bool.and_eq_true, List.all_eq_true, Bool.not_eq_true', beq_iff_eq] at htest
  obtain ⟨hwrites, hdeeds⟩ := htest
  rcases one_reply_per_line hrun hwrites with hgreeting |
    ⟨s₁, greeted, ts, b, onward, rest, hτ, -, hturns, -, hsettles, -⟩
  · have hlength := (hgreeting.map Deed.code?).length_le
    rw [hdeeds] at hlength
    simp at hlength
  · exact ⟨τ, p, s', s₁, greeted, ts, b, onward, rest, hrun, hdeeds, hτ, hturns, hsettles⟩

end FtpServer.Session
