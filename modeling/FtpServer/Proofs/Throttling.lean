import FtpServer.Proofs.Pacing

/-!
# How fast passwords can be guessed

The clock moves by what the session pauses and by what passes meanwhile.  Behind a password that was
wrong there is a pause, and the next one is tried only behind the answer to another `USER`.
-/

namespace FtpServer

open Program Dialogue

namespace Scene

def Event.elapsed : Event → Nat
  | .asked (.pause ms) _ | .passed ms => ms
  | _ => 0

def elapsed : List Event → Nat
  | [] => 0
  | e :: τ => e.elapsed + elapsed τ

abbrev Event.guess (name password : String) (accepted : Bool) : Event :=
  .asked (.authenticate name password) accepted

variable {α : Type} {a b : Dialogue α × Scene} {s s' : Scene} {τ τ' : List Event} {e : Event}

@[simp] theorem elapsed_nil : elapsed [] = 0 := rfl

@[simp] theorem elapsed_cons (e : Event) (τ : List Event) :
    elapsed (e :: τ) = e.elapsed + elapsed τ := rfl

@[simp] theorem elapsed_append (τ τ' : List Event) : elapsed (τ ++ τ') = elapsed τ + elapsed τ' := by
  induction τ with
  | nil => simp
  | cons e τ ih => simp [ih, Nat.add_assoc]

theorem le_elapsed_of_pause {ms : Nat} (h : .asked (.pause ms) () ∈ τ) : ms ≤ elapsed τ := by
  obtain ⟨before, after, rfl⟩ := List.append_of_mem h
  have hpause : Event.elapsed (.asked (.pause ms) ()) = ms := rfl
  rw [elapsed_append, elapsed_cons, hpause]
  omega

theorem clock_of_perform {q : Request} {r : q.Answer} (h : s.perform? q = some (r, s')) :
    s'.shared.clock = s.shared.clock + (Event.asked q r).elapsed := by
  cases q with
  | file call =>
    obtain rfl : (s.performFile call).2 = s' := congrArg Prod.snd (Option.some.inj h)
    cases call <;> rfl
  | listen ip =>
    obtain ⟨-, rfl⟩ := Prod.mk.inj (Option.some.inj h)
    cases s.listenFault <;> rfl
  | joinWorker number =>
    simp only [perform?] at h
    split at h
    next => cases h; rfl
    next => cases h
  | lockControl =>
    obtain ⟨control, -, h⟩ := Option.map_eq_some_iff.1 h
    cases h
    rfl
  | _ =>
    cases h
    rfl

theorem Tells.clock (h : Tells a e b) : b.2.shared.clock = a.2.shared.clock + e.elapsed := by
  cases h with
  | session hanswer => exact clock_of_perform hanswer
  | worker number m hmove =>
    obtain ⟨w, w', -, hmove, -⟩ := workers_of_moveWorker hmove
    exact Worker.clock_of_move hmove
  | time ms => rfl

theorem Traced.clock (h : Traced a τ b) : b.2.shared.clock = a.2.shared.clock + elapsed τ := by
  induction h with
  | refl => rfl
  | tail _ htells ih =>
    rw [htells.clock, ih, elapsed_append, elapsed_cons, elapsed_nil, Nat.add_zero, Nat.add_assoc]

/-- An event of two histories is one of the first or of the second. -/
theorem split_append {E E' pre post : List Event} (h : E ++ E' = pre ++ e :: post) :
    (∃ post', E = pre ++ e :: post' ∧ post = post' ++ E') ∨
      ∃ pre', pre = E ++ pre' ∧ E' = pre' ++ e :: post := by
  rcases List.append_eq_append_iff.1 h with ⟨pre', hpre, hE'⟩ | ⟨middle, hE, hpost⟩
  · exact .inr ⟨pre', hpre, hE'⟩
  · cases middle with
    | nil => exact .inr ⟨[], by simpa using hE.symm, by simpa using hpost.symm⟩
    | cons first middle =>
      obtain ⟨rfl, rfl⟩ := List.cons.inj hpost
      exact .inl ⟨middle, hE, rfl⟩

end Scene

namespace Session

open Scene

variable {ctx : Context} {c : Client} {a b : Client × Scene} {ts : List Turn} {t : Turn}
variable {onward : Onward} {line : Line.Incoming} {lines : List Line.Incoming}
variable {r : Client × Onward} {s s' : Scene} {E E' pre post τ : List Event} {name password : String}
variable {accepted : Bool}

theorem guesses_mem_marks (h : .guess name password accepted ∈ τ) :
    .guesses accepted ∈ marks (said τ) :=
  List.mem_filterMap.2 ⟨⟨.authenticate name password, accepted⟩, mem_said.2 h, rfl⟩

theorem le_elapsed_of_waits {ms : Nat} (h : .waits ms ∈ marks (said τ)) : ms ≤ elapsed τ :=
  le_elapsed_of_pause (mem_said.1 (mem_of_waits h))

def Guessless (E : List Event) : Prop := ∀ name password accepted, .guess name password accepted ∉ E

theorem guessless_of_marks (h : ∀ accepted, .guesses accepted ∉ marks (said E)) : Guessless E :=
  fun _ _ _ hmem => h _ (guesses_mem_marks hmem)

theorem guessless_of_spared (h : ∀ x ∈ said E, x.1.SparesLogin) : Guessless E :=
  fun _ _ _ hmem => h _ (mem_said.2 hmem)

def eventMark? : Event → Option Mark
  | .asked q r => mark? ⟨q, r⟩
  | .moved _ _ | .passed _ => none

theorem marks_said (τ : List Event) : marks (said τ) = τ.filterMap eventMark? := by
  rw [marks, said, List.filterMap_filterMap]
  exact List.filterMap_congr fun e _ => by cases e <;> rfl

theorem exists_of_guesses {ms ms' : List Mark}
    (h : marks (said τ) = ms ++ .guesses accepted :: ms') : ∃ before name password after,
      τ = before ++ .guess name password accepted :: after ∧ marks (said before) = ms ∧
        marks (said after) = ms' := by
  rw [marks_said] at h
  obtain ⟨before, rest, rfl, hbefore, hrest⟩ := List.filterMap_eq_append_iff.1 h
  obtain ⟨skipped, e, after, rfl, hskipped, he, hafter⟩ := List.filterMap_eq_cons_iff.1 hrest
  cases e with
  | asked q r =>
    cases q with
    | authenticate name password =>
      obtain rfl : r = accepted := Mark.guesses.inj (Option.some.inj he)
      refine ⟨before ++ skipped, name, password, after, by simp, ?_, ?_⟩
      · rw [marks_said, List.filterMap_append, hbefore, List.filterMap_eq_nil_iff.2 hskipped,
          List.append_nil]
      · rw [marks_said, hafter]
    | pause | writeReply => cases he
    | _ => cases he
  | moved | passed => cases he

theorem Paces.of_event {l : Transcript Request.Answer} (h : Paces ctx c line (said E ++ l) r)
    (hE : E = pre ++ .guess name password accepted :: post) :
    c.stage = .awaitingPassword ∧ r.1.stage ≠ .awaitingPassword ∧ Guessless post ∧
      (accepted = false → .waits ctx.delay ∈ marks (said post ++ l)) := by
  have hsplit : marks (said E ++ l) = marks (said pre) ++ .guesses accepted ::
      marks (said post ++ l) := by
    rw [hE, said_append, List.append_assoc, marks_append]
    rfl
  obtain ⟨hawaits, hleaves, hnone, hwaits⟩ := h.of_guess hsplit
  refine ⟨hawaits, hleaves, guessless_of_marks fun accepted hmem => ?_, hwaits⟩
  rw [marks_append] at hnone
  exact hnone accepted (List.mem_append_left _ hmem)

namespace Turn

def Prompts (t : Turn) : Prop :=
  ∃ name text, t.line.command? = some (.user name) ∧ .writes ⟨331, text⟩ ∈ deeds t.transcript

theorem Runs.paces (hruns : t.Runs ctx) (hc : t.before.1.IsPlain) :
    Paces ctx t.before.1 t.line t.transcript (t.after.1, t.onward) :=
  (onIncoming_paces ctx hc t.line).of_goes hruns.goes

end Turn

/-- One of the turns prompts for a password, within these events. -/
def PromptedIn (ts : List Turn) (E : List Event) : Prop := ∃ t ∈ ts, t.Prompts ∧ t.events <:+: E

theorem PromptedIn.mono (h : PromptedIn ts E) (t : Turn) (hE : E <:+: E') :
    PromptedIn (t :: ts) E' := by
  obtain ⟨t', ht', hprompts, hwithin⟩ := h
  exact ⟨t', List.mem_cons_of_mem t ht', hprompts, hwithin.trans hE⟩

theorem PromptedIn.later (h : PromptedIn ts E) (t : Turn) (E' : List Event) :
    PromptedIn (t :: ts) (E' ++ E) := h.mono t (List.suffix_append _ _).isInfix

/-- The guesses in what comes from a client: none is made before a password is asked for, and between
two of them there is the delay and another prompt. -/
structure Spaced (ctx : Context) (c : Client) (ts : List Turn) (E : List Event) : Prop where
  prompted : ∀ pre name password accepted post, c.stage ≠ .awaitingPassword →
    E = pre ++ .guess name password accepted :: post → PromptedIn ts pre
  apart : ∀ before name password between name' password' accepted after,
    E = before ++ .guess name password false ::
      (between ++ .guess name' password' accepted :: after) →
    ctx.delay ≤ elapsed between ∧ PromptedIn ts between

theorem spaced_of_guessless (hE : Guessless E) : Spaced ctx c ts E where
  prompted := by
    rintro pre name password accepted post - rfl
    exact absurd (by simp) (hE name password accepted)
  apart := by
    rintro before name password between name' password' accepted after rfl
    exact absurd (by simp) (hE name password false)

theorem Spaced.apart_behind (h : Spaced ctx c ts E) (hE' : Guessless E') :
    ∀ before name password between name' password' accepted after,
      E' ++ E = before ++ .guess name password false ::
        (between ++ .guess name' password' accepted :: after) →
      ctx.delay ≤ elapsed between ∧ PromptedIn ts between := by
  intro before name password between name' password' accepted after hsplit
  rcases split_append hsplit with ⟨post, rfl, -⟩ | ⟨pre, -, hE⟩
  · exact absurd (by simp) (hE' name password false)
  · exact h.apart _ _ _ _ _ _ _ _ hE

theorem spaced_of_paces {l : Transcript Request.Answer} (h : Paces ctx c line (said E ++ l) r) :
    Spaced ctx c [] E where
  prompted := fun _ _ _ _ _ hnot hE => absurd (h.of_event hE).1 hnot
  apart := fun _ _ _ _ name' password' accepted _ hE =>
    absurd (by simp) ((h.of_event hE).2.2.1 name' password' accepted)

theorem Spaced.turn (h : Spaced ctx t.after.1 ts E) (hruns : t.Runs ctx)
    (hc : t.before.1.IsPlain) (hgo : ¬ Guessless E → t.onward = .goOn) :
    Spaced ctx t.before.1 (t :: ts) (t.events ++ E) := by
  have hpaces : Paces ctx t.before.1 t.line (said t.events ++ []) (t.after.1, t.onward) := by
    rw [List.append_nil]
    exact hruns.paces hc
  constructor
  · intro pre name password accepted post hnot hsplit
    rcases split_append hsplit with ⟨post', hin, -⟩ | ⟨pre', rfl, hE⟩
    · exact absurd (hpaces.of_event hin).1 hnot
    · by_cases hawaits : t.after.1.stage = .awaitingPassword
      · have hguess : ¬ Guessless E := fun hnone => hnone name password accepted (by simp [hE])
        obtain ⟨name', text, hline, hsent⟩ :=
          (hpaces.of_awaiting (hgo hguess) hawaits).resolve_left hnot
        rw [List.append_nil] at hsent
        exact ⟨t, List.mem_cons_self, ⟨name', text, hline, hsent⟩,
          (List.prefix_append _ _).isInfix⟩
      · exact (h.prompted _ _ _ _ _ hawaits hE).later t _
  · intro before name password between name' password' accepted after hsplit
    rcases split_append hsplit with ⟨post, hin, hrest⟩ | ⟨pre, rfl, hE⟩
    · obtain ⟨-, hleaves, hnone, hwaits⟩ := hpaces.of_event hin
      rcases split_append hrest.symm with ⟨post', rfl, -⟩ | ⟨pre, rfl, hE⟩
      · exact absurd (by simp) (hnone name' password' accepted)
      · have hwaits := hwaits rfl
        rw [List.append_nil] at hwaits
        rw [elapsed_append]
        exact ⟨Nat.le_add_right_of_le (le_elapsed_of_waits hwaits),
          (h.prompted _ _ _ _ _ hleaves hE).later t _⟩
    · exact (h.apart _ _ _ _ _ _ _ _ hE).imp_right fun hprompted => hprompted.mono t List.infix_rfl

/-- The guesses of any turns and of what comes after them are spaced, if a session that has stopped
makes none. -/
theorem Proceeds.spaced (h : Proceeds ctx a ts b onward) (ha : a.1.IsSound)
    (hrest : Spaced ctx b.1 [] E) (hstop : onward = .stop → Guessless E) :
    Spaced ctx a.1 ts (ts.flatMap Turn.events ++ E) := by
  induction h with
  | none a => exact hrest
  | last hruns =>
    rw [List.flatMap_singleton]
    exact hrest.turn hruns ha.plain fun hguess => absurd (hstop rfl) hguess
  | more hruns hgo _ ih =>
    rw [List.flatMap_cons, List.append_assoc]
    exact (ih (hruns.isSound ha) hrest hstop).turn hruns ha.plain fun _ => hgo

theorem spared_of_traced {α : Type} {p p' : Dialogue α} {φ : α → Prop}
    (hkeeps : p.Keeps (fun _ _ => True) Request.SparesLogin φ) (hrun : Traced (p, s) τ (p', s')) :
    ∀ x ∈ said τ, x.1.SparesLogin := by
  obtain ⟨l, r, hends, -⟩ := Goes.ends exists_answer p'
  have hspared := (hkeeps.yields.of_goes (hrun.goes.trans hends)).1
  exact fun x hx => hspared x (List.mem_append_left l hx)

theorem send_sparesLogin (reply : Reply) :
    (send reply).Keeps (fun _ _ => True) Request.SparesLogin fun _ => True := by
  refine Keeps.question trivial fun _ _ => ?_
  refine Keeps.question trivial fun _ _ => ?_
  exact Keeps.question trivial fun _ _ => trivial

theorem close_sparesLogin (c : Client) :
    (close c).Keeps (fun _ _ => True) Request.SparesLogin fun _ => True := by
  have hworks : Works (fun _ _ => True) (fun _ => True) (stopWorker c) := stopWorker_works trivial
  have hstop : (stopWorker c).Keeps (fun _ _ => True) Request.SparesLogin fun _ => True :=
    hworks.weaken (fun _ _ hr => hr) fun q hq => by cases q <;> trivial
  refine hstop.bind fun c _ => ?_
  refine Keeps.question trivial fun _ _ => ?_
  refine Keeps.question trivial fun _ _ => ?_
  refine Keeps.question trivial fun _ _ => ?_
  refine Keeps.question trivial fun _ _ => ?_
  exact Keeps.question trivial fun _ _ => .question trivial fun _ _ => trivial

/-- The clock of a session moves by its pauses and by what passes meanwhile.  It tries no password
and does not pause while it greets its client and once it has stopped; in between each line pauses
once, for the delay and before its reply, if it is a `USER` or `PASS` that is answered with 530, and
otherwise not at all.  From a password that was wrong to any that is tried after it, the delay passes
and another `USER` is answered with 331. -/
theorem guesses_throttled {address : Socket} {p : Dialogue Unit}
    (hrun : Traced (serve ctx address lines, s) τ (p, s')) :
    s'.shared.clock = s.shared.clock + elapsed τ ∧
    ((∀ x ∈ said τ, x.1.SparesLogin) ∨
      ∃ s₁ greeted ts b onward rest,
        τ = greeted ++ ts.flatMap Turn.events ++ rest ∧
        (∀ x ∈ said greeted, x.1.SparesLogin) ∧
        Proceeds ctx (.connect address, s₁) ts b onward ∧ ts.map Turn.line <+: lines ∧
        (∀ t ∈ ts, Throttles ctx.delay t.line (marks t.transcript)) ∧
        ((onward = .goOn ∧ ∃ line l, ts.map Turn.line ++ [line] <+: lines ∧ said rest <+: l ∧
            Throttles ctx.delay line (marks l)) ∨
          ((onward = .goOn → ts.map Turn.line = lines) ∧ ∀ x ∈ said rest, x.1.SparesLogin)) ∧
        ∀ before name password between name' password' accepted after,
          τ = before ++ .guess name password false ::
            (between ++ .guess name' password' accepted :: after) →
          ctx.delay ≤ elapsed between ∧ PromptedIn ts between) := by
  refine ⟨hrun.clock, ?_⟩
  rcases turns_of_serve hrun with ⟨p', hgreeting, -⟩ |
    ⟨s₁, greeted, ts, b, onward, rest, hgreeting, hturns, rfl, hunderway⟩
  · exact .inl (spared_of_traced (send_sparesLogin _) hgreeting)
  · right
    have hsound := hturns.isSound (Client.connect_isSound address)
    have hgreeted := spared_of_traced (send_sparesLogin _) hgreeting
    have hthrottles : ∀ t ∈ ts, Throttles ctx.delay t.line (marks t.transcript) := fun t ht =>
      ((hturns.runs t ht).paces (hsound.2 t ht).plain).throttles
    have hapart (hrest : Spaced ctx b.1 [] rest) (hstop : onward = .stop → Guessless rest) :=
      (hturns.spaced (Client.connect_isSound address) hrest hstop).apart_behind
        (guessless_of_spared hgreeted)
    rw [← List.append_assoc] at hapart
    cases hunderway with
    | @amid line q next hlines honward hat =>
      -- The line can still come to its end, and shows by then what it may.
      obtain ⟨l, r, hends, -⟩ := Goes.ends exists_answer (Program.ask q next)
      have hpaces := (onIncoming_paces ctx hsound.1.plain line).of_goes (hat.goes.trans hends)
      refine ⟨s₁, greeted, ts, b, onward, rest, rfl, hgreeted, hturns,
        (List.prefix_append _ _).trans hlines, hthrottles,
        .inl ⟨honward, line, _, hlines, List.prefix_append _ _, hpaces.throttles⟩,
        hapart (spaced_of_paces hpaces) fun hstop => ?_⟩
      rw [honward] at hstop
      cases hstop
    | closing hlines hall hclose =>
      have hrest := spared_of_traced (close_sparesLogin b.1) hclose
      exact ⟨s₁, greeted, ts, b, onward, rest, rfl, hgreeted, hturns, hlines, hthrottles,
        .inr ⟨hall, hrest⟩, hapart (spaced_of_guessless (guessless_of_spared hrest)) fun _ =>
          guessless_of_spared hrest⟩

def guessingClient : List Line.Incoming :=
  [.line "USER alice", .line "PASS wrong", .line "PASS right", .line "USER alice",
    .line "PASS right"]

theorem guesses_throttled_after_a_wrong_one :
    ∃ τ p s' ts before name password between name' password' after,
      Traced (serve (usualContext "/") loopback guessingClient,
        { Scene.start Tree.bare {} with authenticator := fun _ password => password == "right" })
        τ (p, s') ∧
      marks (said τ) = [.replies 220, .replies 331, .guesses false, .waits 1000, .replies 530,
        .replies 503, .replies 331, .guesses true, .replies 230] ∧
      τ = before ++ .guess name password false ::
        (between ++ .guess name' password' true :: after) ∧
      1000 ≤ elapsed between ∧ PromptedIn ts between := by
  have hreplay : (replay plainly (List.replicate 31 .session)
      (serve (usualContext "/") loopback guessingClient,
        { Scene.start Tree.bare {} with
          authenticator := fun _ password => password == "right" })).any (fun r =>
          marks (said r.1) == [.replies 220, .replies 331, .guesses false, .waits 1000,
            .replies 530, .replies 503, .replies 331, .guesses true, .replies 230]) = true := by
    decide +kernel
  obtain ⟨τ, ⟨p, s'⟩, hrun, htest⟩ := traced_of_any hreplay
  have hmarks := beq_iff_eq.1 htest
  have hsplit : marks (said τ) = [.replies 220, .replies 331] ++ .guesses false ::
      ([.waits 1000, .replies 530, .replies 503, .replies 331] ++ .guesses true ::
        [.replies 230]) := hmarks
  obtain ⟨before, name, password, rest, rfl, -, hrest⟩ := exists_of_guesses hsplit
  obtain ⟨between, name', password', after, rfl, -, -⟩ := exists_of_guesses hrest
  rcases (guesses_throttled hrun).2 with hspared | ⟨-, -, ts, -, -, -, -, -, -, -, -, -, hapart⟩
  · exact absurd (by simp) (guessless_of_spared hspared name password false)
  · obtain ⟨hdelay, hprompted⟩ := hapart _ _ _ _ _ _ _ _ rfl
    exact ⟨_, p, s', ts, before, name, password, between, name', password', after, hrun, hmarks, rfl,
      hdelay, hprompted⟩

end Session

end FtpServer
