import FtpServer.Proofs.Accounts
import FtpServer.Proofs.Confinement

/-!
# What a command does to the login

An exchange is a command with what came of it, and with what the authenticator said meanwhile.  Only
`USER` and `PASS` move a login on, and their replies tell how.
-/

namespace FtpServer

open Program Dialogue

/-- A command, its outcome, and which passwords were right when it was handled. -/
structure Exchange where
  command : Command
  outcome : Outcome
  verdict : String → String → Bool

namespace Exchange

variable {e : Exchange}

def code? (e : Exchange) : Option Nat := e.outcome.reply.map Reply.code

structure Prompts (e : Exchange) (name : String) : Prop where
  command_eq : e.command = .user name
  code_eq : e.code? = some 331

structure Accepts (e : Exchange) (password : String) : Prop where
  command_eq : e.command = .pass password
  code_eq : e.code? = some 230

/-- A `PASS` that ended the login, one way or the other. -/
structure Settles (e : Exchange) : Prop where
  command_eq : ∃ password, e.command = .pass password
  code_eq : e.code? = some 230 ∨ e.code? = some 501 ∨ e.code? = some 530

theorem Accepts.settles {password : String} (h : e.Accepts password) : e.Settles :=
  ⟨⟨password, h.command_eq⟩, .inl h.code_eq⟩

/-- Nothing but `USER` and `PASS` moves a login on. -/
def Passes (e : Exchange) : Prop :=
  (∀ name, ¬ e.Prompts name) ∧ ¬ e.Settles

theorem passes_of_not_login (h : e.command.isLogin = false) : e.Passes := by
  refine ⟨fun name hname => ?_, fun hsettles => ?_⟩
  · rw [hname.command_eq] at h
    cases h
  · obtain ⟨password, hpass⟩ := hsettles.command_eq
    rw [hpass] at h
    cases h

end Exchange

/-- The identity that a name and a password earn. -/
inductive Earned (settings : Settings) (verdict : String → String → Bool) :
    (name password identity : String) → Prop
  | anonymous {password : String} (hallowed : settings.allowAnonymous = true)
      (hlength : password.utf8ByteSize ≤ settings.maxPasswordLength.toNat)
      (hclean : ∀ c ∈ password.toList, c ≠ '\r' ∧ c ≠ '\n' ∧ c ≠ '\x00') :
      Earned settings verdict "anonymous" password ("anonymous/" ++ password)
  | named {name password : String} (hname : name ≠ "anonymous")
      (haccepted : verdict name password = true) : Earned settings verdict name password name

def Client.usernameFor (name : String) : Option String :=
  if name = Account.anonymous then none else some name

theorem earned_anonymous {settings : Settings} {verdict : String → String → Bool}
    {password identity : String} (hallowed : settings.allowAnonymous = true)
    (h : Account.anonymousIdentity settings password = .ok identity) :
    Earned settings verdict "anonymous" password identity := by
  obtain ⟨hadmits, rfl⟩ := Account.anonymousIdentity_eq_ok_iff.1 h
  exact .anonymous hallowed hadmits.short hadmits.clean

/-- What stands behind an identity: a password of the right form, or one that was judged right. -/
def Client.Shows (settings : Settings) (verdict : String → String → Bool) (c : Client)
    (password identity : String) : Prop :=
  match c.username with
  | none => Account.anonymousIdentity settings password = .ok identity
  | some name => verdict name password = true ∧ identity = name

/-- How an exchange moves the login of a client. -/
inductive LoginStep (settings : Settings) (c : Client) (e : Exchange) (c' : Client) : Prop
  | prompts {name : String} (hstage : c.stage ≠ .ready) (he : e.Prompts name)
      (hcheck : Account.checkUser settings name = .ok ())
      (hc' : c' = c.beginLogin (Client.usernameFor name))
  | accepts {password identity : String} (hstage : c.stage = .awaitingPassword)
      (he : e.Accepts password) (hshows : c.Shows settings e.verdict password identity)
      (hc' : c' = c.completeLogin identity)
  | resets (hstage : c.stage = .awaitingPassword) (he : e.Settles)
      (hrefused : ∀ password, ¬ e.Accepts password) (hc' : c' = c.resetLogin)
  | passes (he : e.Passes) (hstage : c'.stage = c.stage) (husername : c'.username = c.username)

theorem LoginStep.stays {settings : Settings} {c c' : Client} {e : Exchange}
    (hstep : LoginStep settings c e c') (hready : c.stage = .ready) :
    c'.stage = .ready ∧ c'.username = c.username := by
  cases hstep with
  | prompts hnot => exact absurd hready hnot
  | accepts hawaiting | resets hawaiting =>
    rw [hready] at hawaiting
    cases hawaiting
  | passes _ hstage husername => exact ⟨hstage.trans hready, husername⟩

namespace Session

variable {ctx : Context} {c : Client} {verdict : String → String → Bool}

def judged (verdict : String → String → Bool) : (q : Request) → q.Answer → Prop
  | .authenticate name password, r => r = verdict name password
  | _, _ => True

abbrev MovesLogin (settings : Settings) (verdict : String → String → Bool) (c : Client)
    (command : Command) (r : Client × Outcome) : Prop :=
  LoginStep settings c ⟨command, r.2, verdict⟩ r.1

abbrev UnderVerdict (verdict : String → String → Bool) {α : Type} (post : α → Prop) (p : Dialogue α) :
    Prop :=
  p.Keeps (judged verdict) (fun _ => True) post

theorem OnlyControl.underVerdict {α : Type} {post : α → Prop} {p : Dialogue α}
    (h : OnlyControl (judged verdict) post p) : UnderVerdict verdict post p :=
  h.weaken (fun _ _ hr => hr) fun _ _ => trivial

theorem checkUser_code {settings : Settings} {name : String} {e : LoginError}
    (h : Account.checkUser settings name = .error e) : e.code = 501 ∨ e.code = 530 := by
  unfold Account.checkUser at h
  split at h
  next => exact .inl (Except.error.inj h ▸ rfl)
  next =>
    split at h
    next => exact .inr (Except.error.inj h ▸ rfl)
    next => cases h

theorem onUser_underVerdict (ctx : Context) (c : Client) (name : String) :
    UnderVerdict verdict (MovesLogin ctx.settings verdict c (.user name)) (onUser ctx c name) := by
  have hrefused : ∀ e : LoginError, e.code ≠ 331 →
      MovesLogin ctx.settings verdict c (.user name) (c, .failure e.code e.replyText) := by
    intro e he
    refine .passes ⟨fun other hprompts => he ?_, fun hsettles => ?_⟩ rfl rfl
    · exact Option.some.inj hprompts.code_eq
    · obtain ⟨password, hpass⟩ := hsettles.command_eq
      cases hpass
  unfold onUser
  split
  next =>
    exact OnlyControl.underVerdict <| OnlyInternal.onlyControl <| refuseLogin_onlyInternal
      (hrefused _ (by decide))
  next hnotReady =>
    have hstage : c.stage ≠ .ready := by simpa [Client.isLoggedIn] using hnotReady
    split
    next e hcheck =>
      refine OnlyControl.underVerdict <| OnlyInternal.onlyControl <| refuseLogin_onlyInternal
        (hrefused e ?_)
      rcases checkUser_code hcheck with hcode | hcode <;> rw [hcode] <;> decide
    next hcheck =>
      split
      next hname =>
        refine .prompts hstage ⟨rfl, rfl⟩ hcheck ?_
        rw [Client.usernameFor, if_pos hname]
      next hname =>
        refine .prompts hstage ⟨rfl, rfl⟩ hcheck ?_
        rw [Client.usernameFor, if_neg hname]

theorem anonymousIdentity_code {settings : Settings} {password : String} {e : LoginError}
    (h : Account.anonymousIdentity settings password = .error e) : e.code = 501 ∨ e.code = 530 := by
  obtain rfl | rfl := Account.anonymousIdentity_error h
  · exact .inr rfl
  · exact .inl rfl

/-- An identity is shown, or its refusal is told with one of two codes. -/
theorem identify_underVerdict (ctx : Context) (c : Client) (password : String) :
    UnderVerdict verdict (fun r => (∀ identity, r = .ok identity →
        c.Shows ctx.settings verdict password identity) ∧
      ∀ e, r = .error e → e.code = 501 ∨ e.code = 530) (identify ctx c password) := by
  unfold identify Client.Shows
  cases c.username with
  | none => exact ⟨fun _ h => h, fun _ h => anonymousIdentity_code h⟩
  | some name =>
    refine Keeps.question trivial fun (accepted : Bool) haccepted => ?_
    cases accepted with
    | true =>
      refine ⟨fun identity h => ⟨haccepted.symm, (Except.ok.inj h).symm⟩, fun e h => ?_⟩
      cases h
    | false =>
      refine ⟨fun identity h => ?_, fun e h => .inr (Except.error.inj h ▸ rfl)⟩
      cases h

theorem onPass_underVerdict (ctx : Context) (c : Client) (password : String) :
    UnderVerdict verdict (MovesLogin ctx.settings verdict c (.pass password))
    (onPass ctx c password) := by
  unfold onPass
  split
  next =>
    refine OnlyControl.underVerdict <| OnlyInternal.onlyControl <| refuseLogin_onlyInternal
      (.passes ⟨fun name hprompts => ?_, fun hsettles => ?_⟩ rfl rfl)
    · cases hprompts.command_eq
    · rcases hsettles.code_eq with hcode | hcode | hcode <;> cases hcode
  next hstage =>
    have hawaiting : c.stage = .awaitingPassword := Decidable.not_not.1 hstage
    refine (identify_underVerdict ctx c password).bind fun result hresult => ?_
    obtain ⟨hshows, hcodes⟩ := hresult
    split
    next identity =>
      exact Keeps.question trivial fun _ _ => .accepts hawaiting ⟨rfl, rfl⟩ (hshows identity rfl) rfl
    next e =>
      have hcode := hcodes e rfl
      refine OnlyControl.underVerdict <| OnlyInternal.onlyControl <| refuseLogin_onlyInternal
        (.resets hawaiting ⟨⟨password, rfl⟩, .inr ?_⟩ (fun other haccepts => ?_) rfl)
      · exact hcode.imp (congrArg some) (congrArg some)
      · have hwelcome : e.code = 230 := Option.some.inj haccepts.code_eq
        omega

/-- The client has plain paths, and its login is where it was. -/
structure SameLogin (c c' : Client) : Prop where
  isPlain : c'.IsPlain
  stage : c'.stage = c.stage
  username : c'.username = c.username

theorem holds_sameLogin (c : Client) : Client.Holds (SameLogin c) where
  isPlain h := h.isPlain
  enter h hp := ⟨h.isPlain.enter hp, h.stage, h.username⟩
  stageRename h hp := ⟨h.isPlain.stageRename hp, h.stage, h.username⟩
  dropRename h := ⟨h.isPlain.dropRename, h.stage, h.username⟩
  withMode mode h := ⟨h.isPlain.withMode mode, h.stage, h.username⟩

/-- Whatever the command, its outcome tells what became of the login. -/
theorem handle_underVerdict (ctx : Context) (hc : c.IsPlain) (command : Command) :
    UnderVerdict verdict (MovesLogin ctx.settings verdict c command) (handle ctx c command) := by
  unfold handle
  split
  next hgate =>
    refine .passes (Exchange.passes_of_not_login ?_) rfl rfl
    cases command with
    | user name | pass password => cases hgate
    | _ => rfl
  next =>
    cases hlogin : command.isLogin with
    | false =>
      have hsame : SameLogin c c := ⟨hc, rfl, rfl⟩
      have hdispatch : Confines (fun _ _ => True) ctx.root (LeavesWith (SameLogin c))
          (dispatch ctx c command) := dispatch_confines (holds_sameLogin c) hsame hlogin
      refine (hdispatch.weaken (fun q r _ => ?_) fun _ _ => trivial).mono fun r hr => ?_
      · cases q <;> trivial
      · exact .passes (Exchange.passes_of_not_login hlogin) hr.stage hr.username
    | true =>
      cases command with
      | user name => exact onUser_underVerdict ctx c name
      | pass password => exact onPass_underVerdict ctx c password
      | _ => cases hlogin

end Session

end FtpServer
