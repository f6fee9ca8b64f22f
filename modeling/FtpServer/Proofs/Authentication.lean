import FtpServer.Proofs.BeforeLogin
import FtpServer.Proofs.Frame
import FtpServer.Proofs.Login
import FtpServer.Proofs.Replay

/-!
# Authentication

A history is a sequence of exchanges between a client and a session, with the steps that workers and
time take in between.  An identity is held exactly after a `PASS` that was answered by a welcome, and
stands for the name that was last prompted for; before it nothing can be reached, and after it
nothing takes the identity away.
-/

namespace FtpServer

open Program Dialogue

def Scene.judging (s : Scene) (verdict : String → String → Bool) : Scene :=
  { s with authenticator := verdict }

namespace Session

/-- Commands are handled, and their outcomes delivered, one after the other.  Which passwords are
right may change from one to the next. -/
inductive History (ctx : Context) (a : Client × Scene) : List Exchange → Client × Scene → Prop
  | start : History ctx a [] a
  | next {h : List Exchange} {e : Exchange} {c c' : Client} {s s₁ s₂ : Scene} {onward : Onward}
      (hbefore : History ctx a h (c, s))
      (hperform : Scene.Steps (perform ctx c e.command, s.judging e.verdict)
        (.done (c', e.outcome), s₁))
      (hdeliver : Scene.Steps (deliver c' e.command e.outcome, s₁) (.done onward, s₂)) :
      History ctx a (h ++ [e]) (c', s₂)

/-- The password for a name is awaited: the name was prompted for, and nothing has moved the login
since. -/
def Awaits (settings : Settings) (h : List Exchange) (username : Option String) : Prop :=
  ∃ name before asked between, h = before ++ [asked] ++ between ∧ asked.Prompts name ∧
    (∀ e ∈ between, e.Passes) ∧ Account.checkUser settings name = .ok () ∧
    username = Client.usernameFor name

/-- An identity was admitted: a name was prompted for, nothing moved the login until a password was
accepted, and the two earned the identity. -/
def Admits (settings : Settings) (h : List Exchange) (identity : String) : Prop :=
  ∃ name password before asked between accepted after,
    h = before ++ [asked] ++ between ++ [accepted] ++ after ∧ asked.Prompts name ∧
    (∀ e ∈ between, e.Passes) ∧ accepted.Accepts password ∧
    Earned settings accepted.verdict name password identity

def StageEarned (settings : Settings) (h : List Exchange) (c : Client) : Prop :=
  match c.stage with
  | .connected => ∀ e ∈ h, ∀ password, ¬ e.Accepts password
  | .awaitingPassword =>
    (∀ e ∈ h, ∀ password, ¬ e.Accepts password) ∧ Awaits settings h c.username
  | .ready => ∃ identity, c.username = some identity ∧ Admits settings h identity

variable {ctx : Context} {settings : Settings} {h : List Exchange} {e : Exchange} {c c' : Client}
variable {s s' : Scene} {verdict : String → String → Bool}

theorem Awaits.snoc {username : Option String} (hawaits : Awaits settings h username)
    (he : e.Passes) : Awaits settings (h ++ [e]) username := by
  obtain ⟨name, before, asked, between, rfl, hasked, hbetween, hcheck, husername⟩ := hawaits
  refine ⟨name, before, asked, between ++ [e], by simp, hasked, fun x hx => ?_, hcheck, husername⟩
  rcases List.mem_append.1 hx with hold | hnew
  · exact hbetween x hold
  · exact List.mem_singleton.1 hnew ▸ he

theorem Admits.snoc {identity : String} (hadmits : Admits settings h identity) (e : Exchange) :
    Admits settings (h ++ [e]) identity := by
  obtain ⟨name, password, before, asked, between, accepted, after, rfl, hrest⟩ := hadmits
  exact ⟨name, password, before, asked, between, accepted, after ++ [e], by simp, hrest⟩

theorem anonymous_allowed (hcheck : Account.checkUser settings Account.anonymous = .ok ()) :
    settings.allowAnonymous = true := (Account.checkUser_eq_ok_iff.1 hcheck).2 rfl

/-- The name that is awaited and the password that is accepted for it earn the identity. -/
theorem Awaits.admits {password identity : String} (hawaits : Awaits settings h c.username)
    (he : e.Accepts password) (hshows : c.Shows settings e.verdict password identity) :
    Admits settings (h ++ [e]) identity := by
  obtain ⟨name, before, asked, between, rfl, hasked, hbetween, hcheck, husername⟩ := hawaits
  refine ⟨name, password, before, asked, between, e, [], by simp, hasked, hbetween, he, ?_⟩
  unfold Client.Shows at hshows
  rw [husername, Client.usernameFor] at hshows
  by_cases hname : name = Account.anonymous
  · rw [if_pos hname] at hshows
    subst hname
    exact earned_anonymous (anonymous_allowed hcheck) hshows
  · rw [if_neg hname] at hshows
    obtain ⟨haccepted, rfl⟩ := hshows
    exact .named hname haccepted

theorem no_accepts_snoc (hh : ∀ e ∈ h, ∀ password, ¬ e.Accepts password)
    (he : ∀ password, ¬ e.Accepts password) : ∀ x ∈ h ++ [e], ∀ password, ¬ x.Accepts password := by
  intro x hx
  rcases List.mem_append.1 hx with hold | hnew
  · exact hh x hold
  · exact List.mem_singleton.1 hnew ▸ he

theorem stageEarned_connect (settings : Settings) (address : Socket) :
    StageEarned settings [] (.connect address) := by
  simp [StageEarned, Client.connect]

theorem StageEarned.no_accepts (hearned : StageEarned settings h c) (hstage : c.stage ≠ .ready) :
    ∀ e ∈ h, ∀ password, ¬ e.Accepts password := by
  unfold StageEarned at hearned
  cases hc : c.stage with
  | connected => rw [hc] at hearned; exact hearned
  | awaitingPassword => rw [hc] at hearned; exact hearned.1
  | ready => exact absurd hc hstage

theorem StageEarned.awaits (hearned : StageEarned settings h c)
    (hstage : c.stage = .awaitingPassword) :
    Awaits settings h c.username := by
  unfold StageEarned at hearned
  rw [hstage] at hearned
  exact hearned.2

theorem StageEarned.step (hearned : StageEarned settings h c) (hstep : LoginStep settings c e c') :
    StageEarned settings (h ++ [e]) c' := by
  cases hstep with
  | @prompts name hstage he hcheck hc' =>
    subst hc'
    refine ⟨no_accepts_snoc (hearned.no_accepts hstage) fun password haccepts => ?_, ?_⟩
    · have hcommand := he.command_eq.symm.trans haccepts.command_eq
      cases hcommand
    · exact ⟨name, h, e, [], by simp, he, by simp, hcheck, rfl⟩
  | @accepts password identity hstage he hshows hc' =>
    subst hc'
    exact ⟨identity, rfl, (hearned.awaits hstage).admits he hshows⟩
  | resets hstage he hrefused hc' =>
    subst hc'
    have hnot : c.stage ≠ .ready := by simp [hstage]
    exact no_accepts_snoc (hearned.no_accepts hnot) hrefused
  | passes he hstage husername =>
    have hrefused : ∀ password, ¬ e.Accepts password :=
      fun password haccepts => he.2 haccepts.settles
    unfold StageEarned at hearned ⊢
    rw [hstage, husername]
    cases hc : c.stage with
    | connected =>
      rw [hc] at hearned
      exact no_accepts_snoc hearned hrefused
    | awaitingPassword =>
      rw [hc] at hearned
      exact ⟨no_accepts_snoc hearned.1 hrefused, hearned.2.snoc he⟩
    | ready =>
      rw [hc] at hearned
      obtain ⟨identity, hidentity, hadmits⟩ := hearned
      exact ⟨identity, hidentity, hadmits.snoc e⟩

/-- What a run of a command comes to moves the login as its outcome says. -/
theorem loginStep_of_perform {o : Outcome} {command : Command} (hc : c.IsPlain)
    (hrun : Scene.Steps (perform ctx c command, s.judging verdict) (.done (c', o), s')) :
    LoginStep ctx.settings c ⟨command, o, verdict⟩ c' := by
  have hjudges :
    UnderVerdict verdict (MovesLogin ctx.settings verdict c command) (perform ctx c command) :=
    Keeps.question trivial fun _ _ => handle_underVerdict ctx hc command
  have hkeeps := hrun.keeps (I := fun t => t.authenticator = verdict) hjudges rfl
    (fun q r t t' _ ht hanswer => ?_)
    (fun t t' number m ht hmove => (Scene.authenticator_of_moveWorker hmove).trans ht)
      (fun t ms ht => ht)
  · exact hkeeps.1
  · refine ⟨?_, (Scene.frame_of_perform hanswer).1.trans ht⟩
    cases q with
    | authenticate name password =>
      obtain ⟨rfl, -⟩ := Prod.mk.inj (Option.some.inj hanswer)
      exact ht ▸ rfl
    | _ => trivial

theorem isPlain_of_perform {o : Outcome} {command : Command} (hc : c.IsPlain)
    (hrun : Scene.Steps (perform ctx c command, s) (.done (c', o), s')) : c'.IsPlain := by
  have hconfines : Confines (fun _ _ => True) ctx.root (LeavesWith Client.IsPlain)
      (perform ctx c command) := Keeps.question trivial fun _ _ => handle_confines hc command
  have hkeeps := hrun.keeps (I := fun _ => True) hconfines trivial
    (fun q r _ _ _ _ _ => ⟨by cases q <;> trivial, trivial⟩) (fun _ _ _ _ _ _ => trivial)
    fun _ _ _ => trivial
  exact hkeeps.1

/-- A run of a program that idles does nothing to a scene without a worker. -/
theorem idle_of_steps {α : Type} {p : Dialogue α} {a : α} {post : α → Prop} {s₀ : Scene}
    (hp : Idles post p) (hs : Scene.IsIdle s₀ s) (hrun : Scene.Steps (p, s) (.done a, s')) :
    post a ∧ Scene.IsIdle s₀ s' :=
  hrun.keeps hp hs (fun _ _ _ _ hq ht hanswer => ht.perform hq hanswer)
    (fun _ _ _ _ ht hmove => ht.move hmove) fun _ ms ht => ht.pass ms

variable {a : Client × Scene} {b : Client × Scene}

theorem History.isPlain (hrun : History ctx a h b) (ha : a.1.IsPlain) : b.1.IsPlain := by
  induction hrun with
  | start => exact ha
  | next _ hperform _ ih => exact isPlain_of_perform ih hperform

theorem History.stageEarned (hrun : History ctx a h b) (ha : a.1.IsPlain)
    (hearned : StageEarned ctx.settings [] a.1) : StageEarned ctx.settings h b.1 := by
  induction hrun with
  | start => exact hearned
  | next hbefore hperform _ ih =>
    exact ih.step (loginStep_of_perform (hbefore.isPlain ha) hperform)

theorem History.ready (hrun : History ctx a h b) (ha : a.1.IsPlain) (hready : a.1.stage = .ready) :
    b.1.stage = .ready ∧ b.1.username = a.1.username := by
  induction hrun with
  | start => exact ⟨hready, rfl⟩
  | next hbefore hperform _ ih =>
    obtain ⟨hstage, husername⟩ := ih
    obtain ⟨hstage', husername'⟩ :=
      (loginStep_of_perform (hbefore.isPlain ha) hperform).stays hstage
    exact ⟨hstage', husername'.trans husername⟩

/-- Until the login nothing has happened, and what needs one was refused. -/
theorem History.idle {s₀ : Scene} {address : Socket}
    (hrun : History ctx (.connect address, s₀) h b) (hs₀ : Scene.IsIdle s₀ s₀)
    (hnone : ∀ e ∈ h, ∀ password, ¬ e.Accepts password) :
    b.1.IsFresh ∧ Scene.IsIdle s₀ b.2 ∧
      ∀ e ∈ h, e.command.requiresLogin = true → e.code? = some 530 := by
  induction hrun with
  | start => exact ⟨Client.connect_isFresh address, hs₀, by simp⟩
  | @next h e c c' s s₁ s₂ onward hbefore hperform hdeliver ih =>
    obtain ⟨hfresh, hidle, hrefused⟩ := ih fun x hx => hnone x (List.mem_append_left _ hx)
    have hearned : StageEarned ctx.settings h c :=
      hbefore.stageEarned (Client.connect_isPlain address) (stageEarned_connect _ address)
    have hstage : c.stage ≠ .ready := by
      intro hready
      unfold StageEarned at hearned
      rw [hready] at hearned
      obtain ⟨identity, -, name, password, before, asked, between, accepted, after, rfl, -, -,
        haccepts, -⟩ := hearned
      exact hnone accepted (by simp) password haccepts
    have hidles : Idles _ (perform ctx c e.command) :=
      Keeps.question trivial fun _ _ => handle_idles ctx hfresh hstage e.command
    have hjudged : Scene.IsIdle s₀ (s.judging e.verdict) :=
      ⟨hidle.slot, hidle.tree, hidle.handle, hidle.workers, hidle.held⟩
    obtain ⟨⟨⟨hfresh', htransfer⟩, hcode⟩, hidle₁⟩ := idle_of_steps hidles hjudged hperform
    obtain ⟨-, hidle₂⟩ :=
      idle_of_steps (OnlyControl.idles (deliver_onlyControl e.command htransfer)) hidle₁ hdeliver
    refine ⟨hfresh', hidle₂, fun x hx => ?_⟩
    rcases List.mem_append.1 hx with hold | hnew
    · exact hrefused x hold
    · obtain rfl := List.mem_singleton.1 hnew
      exact hcode

theorem History.split {before after : List Exchange} (hrun : History ctx a h b)
    (hh : h = before ++ after) : ∃ m, History ctx a before m ∧ History ctx m after b := by
  induction hrun generalizing after with
  | start =>
    obtain ⟨rfl, rfl⟩ := List.append_eq_nil_iff.1 hh.symm
    exact ⟨a, .start, .start⟩
  | next hbefore hperform hdeliver ih =>
    rcases List.eq_nil_or_concat after with rfl | ⟨init, last, rfl⟩
    · rw [List.append_nil] at hh
      subst hh
      exact ⟨_, hbefore.next hperform hdeliver, .start⟩
    · rw [List.concat_eq_append, ← List.append_assoc] at hh
      obtain ⟨hinit, hlast⟩ := List.append_inj' hh rfl
      obtain rfl := (List.cons.inj hlast).1
      obtain ⟨m, hfirst, hrest⟩ := ih hinit
      rw [List.concat_eq_append]
      exact ⟨m, hfirst, hrest.next hperform hdeliver⟩

/-- A session is logged in exactly after a `PASS` that was accepted, under the identity that the
last name prompted for and that password earned.  Before it, whatever needs a login is refused and
nothing is reached; after it, nothing takes the identity away. -/
theorem authentication_sound {ctx : Context} {address : Socket} {s₀ s : Scene} {c : Client}
    {h : List Exchange}
    (hs₀ : s₀.shared.slot = .fresh ∧ s₀.workers = [] ∧ s₀.held = none)
    (hrun : History ctx (.connect address, s₀) h (c, s)) :
    (c.stage = .ready ↔ ∃ e ∈ h, ∃ password, e.Accepts password) ∧
    (c.stage = .ready → ∃ identity, c.username = some identity ∧ Admits ctx.settings h identity) ∧
    (∀ before after, h = before ++ after → (∀ e ∈ before, ∀ password, ¬ e.Accepts password) →
      (∀ e ∈ before, e.command.requiresLogin = true → e.code? = some 530) ∧
      ∃ c₁ s₁, History ctx (.connect address, s₀) before (c₁, s₁) ∧
        History ctx (c₁, s₁) after (c, s) ∧
        s₁.shared.tree = s₀.shared.tree ∧ s₁.shared.slot = .fresh ∧ c₁.directory = Path.root ∧
        c₁.renameSource = none ∧ c₁.dataMode = .none) ∧
    (c.stage = .ready → ∀ h' c' s', History ctx (c, s) h' (c', s') →
      c'.stage = .ready ∧ c'.username = c.username) := by
  obtain ⟨hslot, hworkers, hheld⟩ := hs₀
  have hidle : Scene.IsIdle s₀ s₀ := ⟨rfl, rfl, by rw [hslot]; rfl, hworkers, hheld⟩
  have hplain := Client.connect_isPlain address
  have hearned : StageEarned ctx.settings h c :=
    hrun.stageEarned hplain (stageEarned_connect _ address)
  have hadmits : c.stage = .ready →
      ∃ identity, c.username = some identity ∧ Admits ctx.settings h identity := by
    intro hready
    unfold StageEarned at hearned
    rw [hready] at hearned
    exact hearned
  refine ⟨⟨fun hready => ?_, fun haccepted => ?_⟩, hadmits, fun before after hh hnone => ?_,
    fun hready h' c' s' hrest => hrest.ready (hrun.isPlain hplain) hready⟩
  · obtain ⟨identity, -, name, password, before, asked, between, accepted, after, rfl, -, -,
      haccepts, -⟩ := hadmits hready
    exact ⟨accepted, by simp, password, haccepts⟩
  · obtain ⟨e, he, password, haccepts⟩ := haccepted
    by_cases hready : c.stage = .ready
    · exact hready
    · exact absurd haccepts (hearned.no_accepts hready e he password)
  · obtain ⟨⟨c₁, s₁⟩, hfirst, hrest⟩ := hrun.split hh
    obtain ⟨hfresh, hidle₁, hrefused⟩ := hfirst.idle hidle hnone
    exact ⟨hrefused, c₁, s₁, hfirst, hrest, hidle₁.tree, hidle₁.slot.trans hslot,
      hfresh.directory, hfresh.renameSource, hfresh.dataMode⟩

theorem History.append {h' : List Exchange} {m : Client × Scene} (hfirst : History ctx a h m)
    (hrest : History ctx m h' b) : History ctx a (h ++ h') b := by
  induction hrest with
  | start =>
    rw [List.append_nil]
    exact hfirst
  | next _ hperform hdeliver ih =>
    rw [← List.append_assoc]
    exact ih.next hperform hdeliver

def converse (ctx : Context) (verdict : String → String → Bool) (c : Client) (s : Scene) :
    List Command → Option (List Exchange × (Client × Scene))
  | [] => some ([], (c, s))
  | command :: rest =>
    match Scene.alone (perform ctx c command) (s.judging verdict) with
    | some ((c', o), s₁) =>
      match Scene.alone (deliver c' command o) s₁ with
      | some (_, s₂) =>
        (converse ctx verdict c' s₂ rest).map fun (h, b) => (⟨command, o, verdict⟩ :: h, b)
      | none => none
    | none => none

theorem history_of_converse {commands : List Command}
    (hconverse : converse ctx verdict c s commands = some (h, b)) : History ctx (c, s) h b := by
  induction commands generalizing c s h with
  | nil =>
    obtain ⟨rfl, rfl⟩ := Prod.mk.inj (Option.some.inj hconverse)
    exact .start
  | cons command rest ih =>
    simp only [converse] at hconverse
    split at hconverse
    next c' o s₁ hperform =>
      split at hconverse
      next onward s₂ hdeliver =>
        obtain ⟨⟨h', b'⟩, hrest, heq⟩ := Option.map_eq_some_iff.1 hconverse
        obtain ⟨rfl, rfl⟩ := Prod.mk.inj heq
        let e : Exchange := ⟨command, o, verdict⟩
        have hone : History ctx (c, s) ([] ++ [e]) (c', s₂) :=
          .next .start (Scene.steps_of_alone hperform) (Scene.steps_of_alone hdeliver)
        exact hone.append (ih hrest)
      next => cases hconverse
    next => cases hconverse

/-- A directory is refused, a name is tried and given up for another, and the login succeeds. -/
theorem authentication_sound_after_a_change_of_mind :
    ∃ h c s, History (Scene.usualContext "/srv")
        (.connect Scene.loopback, Scene.start Tree.bare {}) h (c, s) ∧
      h.map Exchange.code? = [some 530, some 331, some 331, some 230, some 257] ∧
      c.username = some "anonymous/guest" ∧
      ∃ identity, c.username = some identity ∧ Admits {} h identity := by
  have hconverse : (converse (Scene.usualContext "/srv") (fun _ _ => false)
      (.connect Scene.loopback) (Scene.start Tree.bare {})
      [.mkd "pub", .user "alice", .user "anonymous", .pass "guest", .pwd]).any (fun r =>
        r.1.map Exchange.code? == [some 530, some 331, some 331, some 230, some 257] &&
          r.2.1.username == some "anonymous/guest" && r.2.1.isLoggedIn) = true := by
    decide +kernel
  obtain ⟨⟨h, c, s⟩, hsome, htest⟩ := (Option.any_eq_true ..).1 hconverse
  simp only [Bool.and_eq_true, beq_iff_eq] at htest
  obtain ⟨⟨hcodes, husername⟩, hin⟩ := htest
  have hrun := history_of_converse hsome
  have hready : c.stage = .ready := of_decide_eq_true hin
  have hsound := authentication_sound ⟨rfl, rfl, rfl⟩ hrun
  exact ⟨h, c, s, hrun, hcodes, husername, hsound.2.1 hready⟩

end Session

end FtpServer
