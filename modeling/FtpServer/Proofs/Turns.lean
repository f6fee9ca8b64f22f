import FtpServer.Proofs.Authentication
import FtpServer.Proofs.Transcript

/-!
# Turns

A session deals with one line after the other.  Any run of it is its greeting, a turn for every line
that it has done with, and what it is at now: another line, or its end.
-/

namespace FtpServer.Session

open Program Dialogue Scene

structure Turn where
  line : Line.Incoming
  before : Client × Scene
  events : List Event
  after : Client × Scene
  onward : Onward

namespace Turn

def transcript (t : Turn) : Transcript Request.Answer := said t.events

def Runs (ctx : Context) (t : Turn) : Prop :=
  Traced (onIncoming ctx t.before.1 t.line, t.before.2) t.events
    (.done (t.after.1, t.onward), t.after.2)

end Turn

/-- Turns one after the other; none comes after one in which the session stops. -/
inductive Proceeds (ctx : Context) : Client × Scene → List Turn → Client × Scene → Onward → Prop
  | none (a : Client × Scene) : Proceeds ctx a [] a .goOn
  | last {t : Turn} (hruns : t.Runs ctx) (hstop : t.onward = .stop) :
      Proceeds ctx t.before [t] t.after .stop
  | more {t : Turn} {ts : List Turn} {b : Client × Scene} {onward : Onward} (hruns : t.Runs ctx)
      (hgo : t.onward = .goOn) (hrest : Proceeds ctx t.after ts b onward) :
      Proceeds ctx t.before (t :: ts) b onward

/-- What a session is at after some turns. -/
inductive Underway (ctx : Context) (lines : List Line.Incoming) (ts : List Turn)
    (b : Client × Scene) (onward : Onward) (rest : List Event) (s : Scene) : Prop
  /-- The next line. -/
  | amid {line : Line.Incoming} {q : Request} {next : q.Answer → Dialogue (Client × Onward)}
      (hlines : ts.map Turn.line ++ [line] <+: lines) (honward : onward = .goOn)
      (hrun : Traced (onIncoming ctx b.1 line, b.2) rest (.ask q next, s))
  /-- Its end: there is no further line, or it has stopped. -/
  | closing {p : Dialogue Client} (hlines : ts.map Turn.line <+: lines)
      (hall : onward = .goOn → ts.map Turn.line = lines)
      (hrun : Traced (close b.1, b.2) rest (p, s))

variable {ctx : Context} {c : Client} {s s' : Scene} {τ : List Event} {lines : List Line.Incoming}
variable {a b : Client × Scene} {ts : List Turn} {t : Turn} {onward : Onward}

/-- A run of the lines is a turn for each that is done with, and either a line that is not or the
result. -/
theorem turns_of_answer {p : Dialogue Client} (hrun : Traced (answer ctx c lines, s) τ (p, s')) :
    ∃ ts b onward rest, Proceeds ctx (c, s) ts b onward ∧ τ = ts.flatMap Turn.events ++ rest ∧
      ((∃ line q next, ts.map Turn.line ++ [line] <+: lines ∧ onward = .goOn ∧
        (∃ k, p = .ask q k) ∧ Traced (onIncoming ctx b.1 line, b.2) rest (.ask q next, s')) ∨
      (ts.map Turn.line <+: lines ∧ (onward = .goOn → ts.map Turn.line = lines) ∧ p = .done b.1 ∧
        ∀ p : Dialogue Client, Traced (p, b.2) rest (p, s'))) := by
  induction lines generalizing c s τ with
  | nil =>
    exact ⟨[], (c, s), .goOn, τ, .none _, rfl,
      .inr ⟨List.nil_prefix, fun _ => rfl, hrun.of_done, hrun.beside⟩⟩
  | cons line lines ih =>
    rcases hrun.of_bind with ⟨q, next, rfl, hfirst⟩ | ⟨⟨c', onward⟩, s₁, τ₁, τ₂, rfl, hfirst, hrest⟩
    · refine ⟨[], (c, s), .goOn, τ, .none _, rfl, .inl ⟨line, q, next, ?_, rfl, ⟨_, rfl⟩, hfirst⟩⟩
      exact List.prefix_append [line] lines
    · let t : Turn := ⟨line, (c, s), τ₁, (c', s₁), onward⟩
      have hruns : t.Runs ctx := hfirst
      cases onward with
      | stop =>
        refine ⟨[t], (c', s₁), .stop, τ₂, .last hruns rfl, by simp [t],
          .inr ⟨?_, ?_, hrest.of_done, hrest.beside⟩⟩
        · exact List.prefix_append [line] lines
        · intro h; cases h
      | goOn =>
        obtain ⟨ts, b, onward, rest, hturns, rfl, hends⟩ := ih hrest
        refine ⟨t :: ts, b, onward, rest, .more hruns rfl hturns, by simp [t], ?_⟩
        rcases hends with ⟨line', q, next, hlines, hgo, hp, hlast⟩ | ⟨hlines, hall, hp, hidle⟩
        · exact .inl ⟨line', q, next, (List.prefix_cons_inj line).2 hlines, hgo, hp, hlast⟩
        · refine .inr ⟨(List.prefix_cons_inj line).2 hlines, fun hgo => ?_, hp, hidle⟩
          rw [List.map_cons, hall hgo]

def greeting (ctx : Context) : Reply := ⟨Reply.ready, ctx.settings.greeting⟩

/-- A run of a session is still at its greeting, or a turn for each line follows it. -/
theorem turns_of_serve {address : Socket} {p : Dialogue Unit}
    (hrun : Traced (serve ctx address lines, s) τ (p, s')) :
    (∃ p, Traced (send (greeting ctx), s) τ (p, s') ∧ p ≠ .done (.ok ())) ∨
      ∃ s₁ greeted ts b onward rest,
        Traced (send (greeting ctx), s) greeted (.done (.ok ()), s₁) ∧
        Proceeds ctx (.connect address, s₁) ts b onward ∧
        τ = greeted ++ ts.flatMap Turn.events ++ rest ∧
        Underway ctx lines ts b onward rest s' := by
  rcases hrun.of_bind with ⟨q, next, -, hfirst⟩ | ⟨result, s₁, τ₁, τ₂, rfl, hfirst, hrest⟩
  · exact .inl ⟨_, hfirst, by simp⟩
  · cases result with
    | error cause =>
      exact .inl ⟨_, hfirst.append (hrest.beside _), by simp⟩
    | ok =>
      right
      rcases hrest.of_bind with ⟨q, next, -, hanswer⟩ | ⟨c, s₂, τ₃, τ₄, rfl, hanswer, hclose⟩
      · obtain ⟨ts, b, onward, rest, hturns, rfl, hends⟩ := turns_of_answer hanswer
        refine ⟨s₁, τ₁, ts, b, onward, rest, hfirst, hturns, (List.append_assoc ..).symm, ?_⟩
        rcases hends with ⟨line, q', next', hlines, hgo, -, hlast⟩ | ⟨-, -, hdone, -⟩
        · exact .amid hlines hgo hlast
        · cases hdone
      · obtain ⟨ts, b, onward, rest, hturns, rfl, hends⟩ := turns_of_answer hanswer
        refine ⟨s₁, τ₁, ts, b, onward, rest ++ τ₄, hfirst, hturns, by simp, ?_⟩
        rcases hends with ⟨line, q', next', -, -, ⟨k, hk⟩, -⟩ | ⟨hlines, hall, hdone, hidle⟩
        · cases hk
        · obtain rfl : c = b.1 := by cases hdone; rfl
          rcases hclose.of_bind with ⟨q', next', -, hfirst'⟩ | ⟨c', s₃, τ₅, τ₆, rfl, hfirst', hlast⟩
          · exact .closing hlines hall ((hidle _).append hfirst')
          · exact .closing hlines hall ((hidle _).append (hfirst'.append (hlast.beside _)))

end FtpServer.Session

namespace FtpServer

open Program Dialogue Scene

/-- The paths are plain, and only who is logged in has staged a rename. -/
structure Client.IsSound (c : Client) : Prop where
  plain : c.IsPlain
  staged : c.isLoggedIn = false → c.renameSource = none

theorem Client.connect_isSound (address : Socket) : (connect address).IsSound :=
  ⟨connect_isPlain address, fun _ => rfl⟩

namespace Session

variable {ctx : Context} {c c' : Client} {s s' : Scene} {a b : Client × Scene} {ts : List Turn}
variable {t : Turn} {onward : Onward} {o : Outcome} {command : Command}

theorem handle_unstaged (ctx : Context) (hout : c.isLoggedIn = false) (hc : c.renameSource = none)
    (command : Command) : (handle ctx c command).Keeps (fun _ _ => True) (fun _ => True)
      fun r => r.1.renameSource = none := by
  have hinternal : ∀ {step : Step},
      OnlyInternal (fun _ _ => True) (AnswersKeeping fun c => c.renameSource = none) step →
      step.Keeps (fun _ _ => True) (fun _ => True) fun r => r.1.renameSource = none :=
    fun hstep => (hstep.weaken (fun _ _ hr => hr) fun _ _ => trivial).mono fun _ hr => hr.1
  have hworks : Works (fun _ _ => True) (fun c => c.renameSource = none) (stopWorker c) :=
    stopWorker_works hc
  have hstop := hworks.weaken (fun _ _ hr => hr) fun _ _ => trivial
  unfold handle
  split
  next => exact hc
  next hgate =>
    cases command with
    | user name => exact hinternal (onUser_onlyInternal hc (fun _ => hc) name)
    | pass password => exact hinternal (onPass_onlyInternal hc (fun _ => hc) hc password)
    | syst | noop | type | unknown => exact hc
    | abor =>
      refine Keeps.question trivial fun inProgress _ => ?_
      split
      next => exact hstop.bind fun _ hc => .question trivial fun _ _ => hc
      next => exact hc
    | quit => exact hstop.bind fun _ hc => hc
    | _ => simp [hout, Command.requiresLogin] at hgate

theorem isSound_of_perform (hc : c.IsSound)
    (hrun : Steps (perform ctx c command, s) (.done (c', o), s')) : c'.IsSound := by
  refine ⟨isPlain_of_perform hc.plain hrun, fun hout' => ?_⟩
  by_cases hin : c.stage = .ready
  · have hlogs : LoginStep ctx.settings c ⟨command, o, s.authenticator⟩ c' :=
      loginStep_of_perform hc.plain hrun
    simp [Client.isLoggedIn, (hlogs.stays hin).1] at hout'
  · have hout : c.isLoggedIn = false := by simpa [Client.isLoggedIn] using hin
    have hkeeps := hrun.keeps (I := fun _ => True)
      (Keeps.question trivial fun _ _ => handle_unstaged ctx hout (hc.staged hout) command) trivial
      (fun _ _ _ _ _ _ _ => ⟨trivial, trivial⟩) (fun _ _ _ _ _ _ => trivial) fun _ _ _ => trivial
    exact hkeeps.1

theorem Turn.Runs.client (hruns : t.Runs ctx) : t.after.1 = t.before.1 ∨
    ∃ command o s₁, Steps (perform ctx t.before.1 command, t.before.2) (.done (t.after.1, o), s₁) := by
  have hsends {p : Dialogue Onward}
      (hrun : Traced (p >>= fun onward => .done (t.before.1, onward), t.before.2) t.events
        (.done (t.after.1, t.onward), t.after.2)) : t.after.1 = t.before.1 := by
    have hyields : (p >>= fun onward => .done (t.before.1, onward)).Yields
        fun _ r => r.1 = t.before.1 := (Yields.any p).bind fun _ _ _ => rfl
    exact hyields.of_goes hrun.goes
  unfold Turn.Runs onIncoming at hruns
  split at hruns
  next => exact .inl (hsends (p := note _ >>= fun _ => done .stop) hruns)
  next => exact .inl (hsends (p := note _ >>= fun _ => sendOrStop tooLong) hruns)
  next text =>
    split at hruns
    next command _ =>
      right
      rw [onCommand_eq] at hruns
      rcases hruns.of_bind with ⟨q, next, hdone, -⟩ | ⟨⟨c', o⟩, s₁, τ₁, τ₂, -, hperform, hrest⟩
      · cases hdone
      · have hyields : (deliver c' command o >>= fun onward => .done (c', onward)).Yields
            fun _ r => r.1 = c' := (Yields.any _).bind fun _ _ _ => rfl
        obtain rfl : t.after.1 = c' := hyields.of_goes hrest.goes
        exact ⟨command, o, s₁, hperform.steps⟩
    next e _ => exact .inl (hsends (p := note _ >>= fun _ => sendOrStop (unrecognized e)) hruns)

theorem Turn.Runs.isSound (hruns : t.Runs ctx) (h : t.before.1.IsSound) : t.after.1.IsSound := by
  rcases hruns.client with hclient | ⟨command, o, s₁, hperform⟩
  · rwa [hclient]
  · exact isSound_of_perform h hperform

/-- What each turn keeps of the client holds wherever a turn begins, and in the end. -/
theorem Proceeds.keeps {I : Client → Prop}
    (hI : ∀ t : Turn, t.Runs ctx → I t.before.1 → I t.after.1)
    (h : Proceeds ctx a ts b onward) (ha : I a.1) : I b.1 ∧ ∀ t ∈ ts, I t.before.1 := by
  induction h with
  | none a => exact ⟨ha, by simp⟩
  | last hruns hstop => exact ⟨hI _ hruns ha, by simpa using ha⟩
  | more hruns hgo hrest ih =>
    obtain ⟨hb, hts⟩ := ih (hI _ hruns ha)
    exact ⟨hb, List.forall_mem_cons.2 ⟨ha, hts⟩⟩

theorem Proceeds.isSound (h : Proceeds ctx a ts b onward) (ha : a.1.IsSound) :
    b.1.IsSound ∧ ∀ t ∈ ts, t.before.1.IsSound :=
  h.keeps (fun _ hruns => hruns.isSound) ha

theorem Proceeds.runs (h : Proceeds ctx a ts b onward) : ∀ t ∈ ts, t.Runs ctx := by
  induction h with
  | none a => simp
  | last hruns hstop => simpa using hruns
  | more hruns hgo hrest ih => exact List.forall_mem_cons.2 ⟨hruns, ih⟩

/-- The turns of some lines while nobody moves but the session, as long as it goes on. -/
def takeTurns (ctx : Context) : Client × Scene → List Line.Incoming →
    Option (List Turn × (Client × Scene))
  | a, [] => some ([], a)
  | a, line :: rest =>
    match recite (onIncoming ctx a.1 line) a.2 with
    | some (τ, ((c, .goOn), s)) =>
      (takeTurns ctx (c, s) rest).map fun (ts, b) => (⟨line, a, τ, (c, s), .goOn⟩ :: ts, b)
    | _ => none

theorem proceeds_of_takeTurns {lines : List Line.Incoming}
    (h : takeTurns ctx a lines = some (ts, b)) : Proceeds ctx a ts b .goOn := by
  induction lines generalizing a ts with
  | nil =>
    obtain ⟨rfl, rfl⟩ := Prod.mk.inj (Option.some.inj h)
    exact .none _
  | cons line rest ih =>
    simp only [takeTurns] at h
    split at h
    next τ c s hrecite =>
      obtain ⟨⟨ts', b'⟩, hrest, heq⟩ := Option.map_eq_some_iff.1 h
      obtain ⟨rfl, rfl⟩ := Prod.mk.inj heq
      exact .more (t := ⟨line, a, τ, (c, s), .goOn⟩) (traced_of_recite hrecite) rfl (ih hrest)
    next => cases h

end Session

end FtpServer
