import FtpServer.Proofs.Throttling

/-!
# Limits of credentials

Every name that a session keeps, and every name that passwords are tried for, is within the limits
that the settings make for names.  So is the password of every guest within those for passwords; of
a named user any password is tried, and logs in if it is accepted.
-/

namespace FtpServer

open Program Dialogue Outcome Scene Text

inductive Client.IsVetted (settings : Settings) (c : Client) : Prop
  | nobody (hstage : c.stage = .connected) (husername : c.username = none)
  | guestAwaited (hstage : c.stage = .awaitingPassword) (husername : c.username = none)
  | nameAwaited {name : String} (hstage : c.stage = .awaitingPassword)
      (husername : c.username = some name) (hname : settings.AdmitsName name)
      (hnot : name ≠ "anonymous")
  | guest {password : String} (hstage : c.stage = .ready)
      (husername : c.username = some ("anonymous/" ++ password))
      (hpassword : settings.AdmitsPassword password)
  | named {name : String} (hstage : c.stage = .ready) (husername : c.username = some name)
      (hname : settings.AdmitsName name) (hnot : name ≠ "anonymous")

namespace Client

variable {settings : Settings} {c c' : Client} {name : String}

theorem connect_isVetted (settings : Settings) (address : Socket) :
    (connect address).IsVetted settings := .nobody rfl rfl

theorem IsVetted.of_same (h : c.IsVetted settings) (hstage : c'.stage = c.stage)
    (husername : c'.username = c.username) : c'.IsVetted settings := by
  cases h with
  | nobody hs hu => exact .nobody (hstage.trans hs) (husername.trans hu)
  | guestAwaited hs hu => exact .guestAwaited (hstage.trans hs) (husername.trans hu)
  | nameAwaited hs hu hname hnot =>
    exact .nameAwaited (hstage.trans hs) (husername.trans hu) hname hnot
  | guest hs hu hpassword => exact .guest (hstage.trans hs) (husername.trans hu) hpassword
  | named hs hu hname hnot => exact .named (hstage.trans hs) (husername.trans hu) hname hnot

theorem IsVetted.awaited (h : c.IsVetted settings) (hstage : c.stage = .awaitingPassword)
    (husername : c.username = some name) : settings.AdmitsName name ∧ name ≠ "anonymous" := by
  cases h with
  | nobody hs =>
    rw [hstage] at hs
    cases hs
  | guestAwaited _ hu =>
    rw [husername] at hu
    cases hu
  | nameAwaited _ hu hname hnot =>
    obtain rfl := Option.some.inj (husername.symm.trans hu)
    exact ⟨hname, hnot⟩
  | guest hs | named hs =>
    rw [hstage] at hs
    cases hs

end Client

namespace Session

variable {ctx : Context} {c c' : Client} {l l' : Transcript Request.Answer} {o : Outcome}
variable {line : Line.Incoming} {command : Command} {onward : Onward} {r : Client × Outcome}
variable {name password : String} {accepted : Bool}

/-- What a command does about names and passwords. -/
inductive Vets (ctx : Context) (c : Client) :
    Command → Transcript Request.Answer → Client × Outcome → Prop
  | elsewhere {command : Command} {l : Transcript Request.Answer} {r : Client × Outcome}
      (hlogin : command.isLogin = false) (hl : ∀ x ∈ l, x.1.SparesLogin)
      (hsame : SameLogin c r.1) : Vets ctx c command l r
  | prompts {name : String} {username : Option String} (text : String)
      (hvetted : (c.beginLogin username).IsVetted ctx.settings) :
      Vets ctx c (.user name) [] (c.beginLogin username, .success 331 text)
  | refuses {command : Command} {l : Transcript Request.Answer} {code : Nat} (text : String)
      (hl : Refusal ctx code l) (hcode : code ≠ 230)
      (hnot : ∀ password, command = .pass password → c.stage ≠ .awaitingPassword) :
      Vets ctx c command l (c, .failure code text)
  | welcomes {password : String} (record : Record) (text : String)
      (hawaits : c.stage = .awaitingPassword) (hguest : c.username = none)
      (hadmits : ctx.settings.AdmitsPassword password) :
      Vets ctx c (.pass password) [⟨.note record, ()⟩]
        (c.completeLogin ("anonymous/" ++ password), .success 230 text)
  | declines {password : String} {l : Transcript Request.Answer} {code : Nat} (text : String)
      (hawaits : c.stage = .awaitingPassword) (hguest : c.username = none)
      (hnot : ¬ ctx.settings.AdmitsPassword password) (hl : Refusal ctx code l)
      (hcode : code ≠ 230) : Vets ctx c (.pass password) l (c.resetLogin, .failure code text)
  | accepts {name password : String} (record : Record) (text : String)
      (hawaits : c.stage = .awaitingPassword) (hname : c.username = some name) :
      Vets ctx c (.pass password) [⟨.authenticate name password, true⟩, ⟨.note record, ()⟩]
        (c.completeLogin name, .success 230 text)
  | rejects {name password : String} {l : Transcript Request.Answer} {code : Nat} (text : String)
      (hawaits : c.stage = .awaitingPassword) (hname : c.username = some name)
      (hl : Refusal ctx code l) (hcode : code ≠ 230) :
      Vets ctx c (.pass password) (⟨.authenticate name password, false⟩ :: l)
        (c.resetLogin, .failure code text)

theorem loginError_code_ne (e : LoginError) : e.code ≠ 230 := by
  cases e <;> simp [LoginError.code]

theorem refuseLogin_vets (e : LoginError)
    (hnot : ∀ password, command = .pass password → c.stage ≠ .awaitingPassword) :
    (refuseLogin ctx c e).Yields (Vets ctx c command) := by
  refine (refuseLogin_refusal ctx c e).mono fun l r h => ?_
  obtain ⟨hl, rfl⟩ := h
  exact .refuses _ hl (loginError_code_ne e) hnot

theorem onUser_vets (ctx : Context) (c : Client) (name : String) :
    (onUser ctx c name).Yields (Vets ctx c (.user name)) := by
  have hnot : ∀ password, Command.user name = .pass password → c.stage ≠ .awaitingPassword :=
    fun _ h => by cases h
  unfold onUser
  split
  next => exact refuseLogin_vets _ hnot
  next =>
    split
    next e _ => exact refuseLogin_vets e hnot
    next hcheck =>
      split
      next => exact .prompts _ (.guestAwaited rfl rfl)
      next hname =>
        have hadmits := (Account.checkUser_eq_ok_iff.1 hcheck).1
        exact .prompts _ (.nameAwaited rfl rfl hadmits hname)

theorem onPass_vets (ctx : Context) (c : Client) (password : String) :
    (onPass ctx c password).Yields (Vets ctx c (.pass password)) := by
  unfold onPass
  split
  next hstage => exact refuseLogin_vets _ fun _ _ => hstage
  next hstage =>
    have hawaits : c.stage = .awaitingPassword := Decidable.not_not.1 hstage
    unfold identify
    cases husername : c.username with
    | none =>
      cases hidentity : Account.anonymousIdentity ctx.settings password with
      | ok identity =>
        obtain ⟨hadmits, rfl⟩ := Account.anonymousIdentity_eq_ok_iff.1 hidentity
        exact Yields.question fun _ => .welcomes _ _ hawaits husername hadmits
      | error e =>
        have hnot : ¬ ctx.settings.AdmitsPassword password := fun hadmits => by
          rw [Account.anonymousIdentity_eq_ok_iff.2 ⟨hadmits, rfl⟩] at hidentity
          cases hidentity
        simp only [pure_eq, done_bind]
        refine (refuseLogin_refusal ctx c.resetLogin e).mono fun l r h => ?_
        obtain ⟨hl, rfl⟩ := h
        exact .declines _ hawaits husername hnot hl (loginError_code_ne e)
    | some name =>
      refine Yields.question fun (accepted : Bool) => ?_
      cases accepted with
      | true => exact Yields.question fun _ => .accepts _ _ hawaits husername
      | false =>
        refine (refuseLogin_refusal ctx c.resetLogin (.loginIncorrect name)).mono fun l r h => ?_
        obtain ⟨hl, rfl⟩ := h
        exact .rejects _ hawaits husername hl (loginError_code_ne _)

theorem handle_vets (ctx : Context) (hc : c.IsPlain) (command : Command) :
    (handle ctx c command).Yields (Vets ctx c command) := by
  refine handle_yields hc (fun l r => .elsewhere) (fun name h => ?_) fun password h => ?_
  · exact h ▸ onUser_vets ctx c name
  · exact h ▸ onPass_vets ctx c password

theorem not_guess_of_spared (h : ∀ x ∈ l, x.1.SparesLogin) :
    ⟨.authenticate name password, accepted⟩ ∉ l := fun hmem => h _ hmem

theorem Refusal.not_guess {code : Nat} (h : Refusal ctx code l) :
    ⟨.authenticate name password, accepted⟩ ∉ l := by
  intro hmem
  have hasked : Request.authenticate name password ∈ l.map Sigma.fst := List.mem_map_of_mem hmem
  cases h <;> simp at hasked

theorem Refusal.not_replies {code code' : Nat} (h : Refusal ctx code l) :
    .replies code' ∉ marks l := by
  cases h <;> simp [marks, mark?]

namespace Vets

theorem vetted (h : Vets ctx c command l r) (hc : c.IsVetted ctx.settings) :
    r.1.IsVetted ctx.settings := by
  cases h with
  | elsewhere _ _ hsame => exact hc.of_same hsame.stage hsame.username
  | prompts _ hvetted => exact hvetted
  | refuses => exact hc
  | welcomes _ _ _ _ hadmits => exact .guest rfl rfl hadmits
  | declines | rejects => exact .nobody rfl rfl
  | accepts _ _ hawaits hname =>
    obtain ⟨hadmits, hnot⟩ := hc.awaited hawaits hname
    exact .named rfl rfl hadmits hnot

theorem of_guess (h : Vets ctx c command l r) (hmem : ⟨.authenticate name password, accepted⟩ ∈ l) :
    command = .pass password ∧ c.stage = .awaitingPassword ∧ c.username = some name := by
  cases h with
  | elsewhere _ hl => exact absurd hmem (not_guess_of_spared hl)
  | prompts => exact absurd hmem List.not_mem_nil
  | welcomes => cases List.mem_singleton.1 hmem
  | refuses _ hl | declines _ _ _ _ hl => exact absurd hmem hl.not_guess
  | accepts _ _ hawaits hname =>
    rcases List.mem_cons.1 hmem with heq | hmem
    · cases heq
      exact ⟨rfl, hawaits, hname⟩
    · cases List.mem_singleton.1 hmem
  | rejects _ hawaits hname hl =>
    rcases List.mem_cons.1 hmem with heq | hmem
    · cases heq
      exact ⟨rfl, hawaits, hname⟩
    · exact absurd hmem hl.not_guess

theorem not_replies (h : Vets ctx c (.pass password) l r) (code : Nat) : .replies code ∉ marks l := by
  cases h with
  | elsewhere hlogin => cases hlogin
  | refuses _ hl | declines _ _ _ _ hl => exact hl.not_replies
  | welcomes | accepts => simp [marks, mark?]
  | @rejects _ _ l _ _ _ _ hl =>
    have hnot : .replies code ∉ marks l := hl.not_replies
    simpa [marks, mark?] using hnot

theorem of_welcome (h : Vets ctx c (.pass password) l (c', o))
    (hcode : o.reply.map Reply.code = some 230) : c.stage = .awaitingPassword ∧
      (c.username = none → ctx.settings.AdmitsPassword password) := by
  cases h with
  | elsewhere hlogin => cases hlogin
  | refuses _ _ hnot | declines _ _ _ _ _ hnot | rejects _ _ _ _ hnot =>
    exact absurd (Option.some.inj hcode) hnot
  | welcomes _ _ hawaits _ hadmits => exact ⟨hawaits, fun _ => hadmits⟩
  | accepts _ _ hawaits hname =>
    refine ⟨hawaits, fun hnone => ?_⟩
    rw [hname] at hnone
    cases hnone

/-- Whatever the password of a named user is, it is tried, and all depends on the answer. -/
theorem of_named (h : Vets ctx c (.pass password) l (c', o)) (hawaits : c.stage = .awaitingPassword)
    (hname : c.username = some name) : ∃ accepted, ⟨.authenticate name password, accepted⟩ ∈ l ∧
      (o.reply.map Reply.code = some 230 ↔ accepted = true) := by
  cases h with
  | elsewhere hlogin => cases hlogin
  | refuses _ _ _ hnot => exact absurd hawaits (hnot _ rfl)
  | welcomes _ _ _ hguest | declines _ _ hguest =>
    rw [hname] at hguest
    cases hguest
  | accepts _ _ _ hname' =>
    obtain rfl := Option.some.inj (hname.symm.trans hname')
    exact ⟨true, List.mem_cons_self, fun _ => rfl, fun _ => rfl⟩
  | rejects _ _ hname' _ hcode =>
    obtain rfl := Option.some.inj (hname.symm.trans hname')
    exact ⟨false, List.mem_cons_self, fun h => absurd (Option.some.inj h) hcode, fun h => by cases h⟩

theorem of_guest (h : Vets ctx c (.pass password) l (c', o)) (hawaits : c.stage = .awaitingPassword)
    (hguest : c.username = none) :
    o.reply.map Reply.code = some 230 ↔ ctx.settings.AdmitsPassword password := by
  cases h with
  | elsewhere hlogin => cases hlogin
  | refuses _ _ _ hnot => exact absurd hawaits (hnot _ rfl)
  | welcomes _ _ _ _ hadmits => exact ⟨fun _ => hadmits, fun _ => rfl⟩
  | declines _ _ _ hnot _ hcode =>
    exact ⟨fun h => absurd (Option.some.inj h) hcode, fun hadmits => absurd hadmits hnot⟩
  | accepts _ _ _ hname | rejects _ _ hname =>
    rw [hguest] at hname
    cases hname

end Vets

/-- A line is no command, or it is handled and replied to. -/
inductive VetsLine (ctx : Context) (c : Client) (line : Line.Incoming) :
    Transcript Request.Answer → Client × Onward → Prop
  | spared {l : Transcript Request.Answer} {onward : Onward} (hline : line.command? = none)
      (hl : ∀ x ∈ l, x.1.SparesLogin) : VetsLine ctx c line l (c, onward)
  | handled {command : Command} {l l' : Transcript Request.Answer} {c' : Client} {o : Outcome}
      {onward : Onward} (hline : line.command? = some command) (hvets : Vets ctx c command l (c', o))
      (hdelivered : Delivered c' command o l' onward) :
      VetsLine ctx c line (⟨.note (.executed c.address command), ()⟩ :: l ++ l') (c', onward)

theorem Delivered.spares (h : Delivered c command o l onward) : ∀ x ∈ l, x.1.SparesLogin := by
  have hhanding : ∀ x ∈ handing c command o, x.1.SparesLogin := by
    unfold handing concluding
    split <;> split <;> simp [Request.SparesLogin]
  cases h with
  | silent => exact hhanding
  | sent => simpa [Request.SparesLogin] using hhanding
  | failed => simp [Request.SparesLogin]

theorem onIncoming_vets (ctx : Context) (hc : c.IsPlain) (line : Line.Incoming) :
    (onIncoming ctx c line).Yields (VetsLine ctx c line) := by
  unfold onIncoming
  split
  next => exact Yields.question fun _ => .spared rfl (by simp [Request.SparesLogin])
  next =>
    exact remark_yields (fun _ => .spared rfl (by simp [remarking, Request.SparesLogin]))
      (.spared rfl (by simp [remarking, Request.SparesLogin]))
  next text =>
    split
    next command hparse =>
      have hperform : (perform ctx c command).Yields fun l r => ∃ l₀,
          l = ⟨.note (.executed c.address command), ()⟩ :: l₀ ∧ Vets ctx c command l₀ r :=
        Yields.question fun _ => (handle_vets ctx hc command).mono fun l r h => ⟨l, rfl, h⟩
      refine onCommand_yields hperform fun l l' c' o onward hl hdelivered => ?_
      obtain ⟨l₀, rfl, hvets⟩ := hl
      exact .handled (by rw [Line.Incoming.command?, hparse]; rfl) hvets hdelivered
    next e hparse =>
      have hnone : (Line.Incoming.line text).command? = none := by
        rw [Line.Incoming.command?, hparse]
        rfl
      exact remark_yields (fun _ => .spared hnone (by simp [remarking, Request.SparesLogin]))
        (.spared hnone (by simp [remarking, Request.SparesLogin]))

namespace VetsLine

variable {r : Client × Onward}

theorem vetted (h : VetsLine ctx c line l r) (hc : c.IsVetted ctx.settings) :
    r.1.IsVetted ctx.settings := by
  cases h with
  | spared => exact hc
  | handled _ hvets => exact hvets.vetted hc

theorem of_guess (h : VetsLine ctx c line l r)
    (hmem : ⟨.authenticate name password, accepted⟩ ∈ l) :
    line.command? = some (.pass password) ∧ c.stage = .awaitingPassword ∧ c.username = some name := by
  cases h with
  | spared _ hl => exact absurd hmem (not_guess_of_spared hl)
  | handled hline hvets hdelivered =>
    rcases List.mem_append.1 hmem with hmem | hmem
    · rcases List.mem_cons.1 hmem with heq | hmem
      · cases heq
      · obtain ⟨rfl, hrest⟩ := hvets.of_guess hmem
        exact ⟨hline, hrest⟩
    · exact absurd hmem (not_guess_of_spared hdelivered.spares)

theorem of_pass (h : VetsLine ctx c line l r) (hline : line.command? = some (.pass password)) :
    ∃ l₀ o, Vets ctx c (.pass password) l₀ (r.1, o) ∧ l₀ ⊆ l ∧
      ∀ code, .replies code ∈ marks l ↔ o.reply.map Reply.code = some code := by
  cases h with
  | spared hnone =>
    rw [hline] at hnone
    cases hnone
  | @handled command l₀ l' c' o onward hline' hvets hdelivered =>
    obtain rfl := Option.some.inj (hline.symm.trans hline')
    refine ⟨l₀, o, hvets, fun x hx => by simp [hx], fun code => ?_⟩
    have hmarks : marks (⟨.note (.executed c.address (.pass password)), ()⟩ :: l₀ ++ l') =
        marks l₀ ++ (o.reply.map fun reply => Mark.replies reply.code).toList := by
      rw [marks_append, hdelivered.marks]
      rfl
    rw [hmarks, List.mem_append, or_iff_right (hvets.not_replies code)]
    cases o.reply <;> simp [eq_comm]

end VetsLine

variable {s s' : Scene} {ts : List Turn} {τ : List Event} {p : Dialogue (Client × Onward)}

theorem Turn.Runs.isVetted {t : Turn} (hruns : t.Runs ctx) (hsound : t.before.1.IsSound)
    (h : t.before.1.IsVetted ctx.settings) : t.after.1.IsVetted ctx.settings :=
  ((onIncoming_vets ctx hsound.plain t.line).of_goes hruns.goes).vetted h

theorem Proceeds.isVetted {address : Socket} {s₀ : Scene} {onward : Onward}
    (h : Proceeds ctx (.connect address, s₀) ts (c, s) onward) :
    c.IsSound ∧ c.IsVetted ctx.settings :=
  (h.keeps (I := fun c => c.IsSound ∧ c.IsVetted ctx.settings)
    (fun _ hruns hc => ⟨hruns.isSound hc.1, hruns.isVetted hc.1 hc.2⟩)
    ⟨Client.connect_isSound address, Client.connect_isVetted _ address⟩).1

/-- A session goes through any turns and deals with one more line.  Every name that it keeps, that it
tries a password for or that a client is known by is within the limits, and so is the password of
every guest: a guest is welcomed for its password if and only if it is within them.  But the password
of a named user is tried whatever it is, and the user is welcomed if and only if it is accepted. -/
theorem names_and_guests_within_limits {address : Socket} {s₀ : Scene}
    (hreach : Proceeds ctx (.connect address, s₀) ts (c, s) .goOn)
    (hrun : Traced (onIncoming ctx c line, s) τ (p, s')) :
    c.IsVetted ctx.settings ∧
    (∀ name password accepted, .guess name password accepted ∈ τ →
      line.command? = some (.pass password) ∧ c.stage = .awaitingPassword ∧
        c.username = some name ∧ ctx.settings.AdmitsName name ∧ name ≠ "anonymous") ∧
    (∀ password, line.command? = some (.pass password) → .replies 230 ∈ marks (said τ) →
      c.stage = .awaitingPassword ∧
        (c.username = none → ctx.settings.AdmitsPassword password)) ∧
    ∀ c' onward, p = .done (c', onward) → c'.IsVetted ctx.settings ∧
      ∀ password, line.command? = some (.pass password) → c.stage = .awaitingPassword →
        (c.username = none →
          (.replies 230 ∈ marks (said τ) ↔ ctx.settings.AdmitsPassword password)) ∧
        ∀ name, c.username = some name → ∃ accepted, .guess name password accepted ∈ τ ∧
          (.replies 230 ∈ marks (said τ) ↔ accepted = true) := by
  obtain ⟨hsound, hvetted⟩ := hreach.isVetted
  have hvets := onIncoming_vets ctx hsound.plain line
  -- A run that is under way is the beginning of one that ends.
  obtain ⟨l, r, hends, -⟩ := Goes.ends exists_answer p
  have hline := hvets.of_goes (hrun.goes.trans hends)
  refine ⟨hvetted, fun name password accepted hguess => ?_, fun password hpass hwelcome => ?_,
    fun c' onward hdone => ?_⟩
  · obtain ⟨hpass, hawaits, hname⟩ := hline.of_guess (List.mem_append_left l (mem_said.2 hguess))
    exact ⟨hpass, hawaits, hname, hvetted.awaited hawaits hname⟩
  · obtain ⟨l₀, o, hhandled, -, hcode⟩ := hline.of_pass hpass
    refine hhandled.of_welcome ((hcode 230).1 ?_)
    rw [marks_append]
    exact List.mem_append_left _ hwelcome
  · subst hdone
    have hline := hvets.of_goes hrun.goes
    refine ⟨hline.vetted hvetted, fun password hpass hawaits => ?_⟩
    obtain ⟨l₀, o, hhandled, hsub, hcode⟩ := hline.of_pass hpass
    refine ⟨fun hguest => (hcode 230).trans (hhandled.of_guest hawaits hguest), fun name hname => ?_⟩
    obtain ⟨accepted, hmem, hwelcome⟩ := hhandled.of_named hawaits hname
    exact ⟨accepted, mem_said.1 (hsub hmem), (hcode 230).trans hwelcome⟩

/-- One user, whose password is longer than passwords may be. -/
def strictSettings : Settings := { maxPasswordLength := 4, users := [("alice", "abcde")] }

def strictContext : Context := ⟨strictSettings, "/", loopback⟩

def strictScene : Scene :=
  { Scene.start Tree.bare {} with
    authenticator := Account.Credentials.accept strictSettings.users }

theorem not_admitsPassword_abcde : ¬ strictSettings.AdmitsPassword "abcde" :=
  fun h => absurd h.short (by decide +kernel)

/-- A guest with the password of the user is turned away. -/
theorem names_and_guests_within_limits_with_a_long_password :
    ∃ ts c s τ c' s',
      Proceeds strictContext (.connect loopback, strictScene) ts (c, s) .goOn ∧
      Traced (onIncoming strictContext c (.line "PASS abcde"), s) τ (.done (c', .goOn), s') ∧
      c.stage = .awaitingPassword ∧ c.username = none ∧ .replies 230 ∉ marks (said τ) ∧
      c'.IsVetted strictSettings := by
  have hplay : (takeTurns strictContext (.connect loopback, strictScene)
      [.line "USER anonymous"]).any (fun (_, c, s) =>
        (recite (onIncoming strictContext c (.line "PASS abcde")) s).any fun (_, (_, onward), _) =>
          c.stage == .awaitingPassword && c.username == none && onward == .goOn) = true := by
    decide +kernel
  obtain ⟨⟨ts, c, s⟩, hturns, hplay⟩ := (Option.any_eq_true ..).1 hplay
  obtain ⟨⟨τ, ⟨c', onward⟩, s'⟩, hrecite, htest⟩ := (Option.any_eq_true ..).1 hplay
  simp only [Bool.and_eq_true, beq_iff_eq] at htest
  obtain ⟨⟨hawaits, hguest⟩, rfl⟩ := htest
  have hreach := proceeds_of_takeTurns hturns
  have hrun := traced_of_recite hrecite
  obtain ⟨-, -, -, hends⟩ := names_and_guests_within_limits hreach hrun
  obtain ⟨hvetted, hpass⟩ := hends c' .goOn rfl
  have hwelcome := (hpass "abcde" (by decide +kernel) hawaits).1 hguest
  exact ⟨ts, c, s, τ, c', s', hreach, hrun, hawaits, hguest, mt hwelcome.1 not_admitsPassword_abcde,
    hvetted⟩

/-- The user logs in with it. -/
theorem long_password_of_user_accepted :
    strictSettings.check = .ok () ∧ ¬ strictSettings.AdmitsPassword "abcde" ∧ ∃ ts c s τ c' s',
      Proceeds strictContext (.connect loopback, strictScene) ts (c, s) .goOn ∧
      Traced (onIncoming strictContext c (.line "PASS abcde"), s) τ (.done (c', .goOn), s') ∧
      .guess "alice" "abcde" true ∈ τ ∧ .replies 230 ∈ marks (said τ) ∧ c'.stage = .ready := by
  refine ⟨rfl, not_admitsPassword_abcde, ?_⟩
  have hplay : (takeTurns strictContext (.connect loopback, strictScene)
      [.line "USER alice"]).any (fun (_, c, s) =>
        (recite (onIncoming strictContext c (.line "PASS abcde")) s).any
          fun (τ, (c', onward), _) =>
            c.username == some "alice" && marks (said τ) == [.guesses true, .replies 230] &&
              c'.stage == .ready && onward == .goOn) = true := by
    decide +kernel
  obtain ⟨⟨ts, c, s⟩, hturns, hplay⟩ := (Option.any_eq_true ..).1 hplay
  obtain ⟨⟨τ, ⟨c', onward⟩, s'⟩, hrecite, htest⟩ := (Option.any_eq_true ..).1 hplay
  simp only [Bool.and_eq_true, beq_iff_eq] at htest
  obtain ⟨⟨⟨halice, hmarks⟩, hready⟩, rfl⟩ := htest
  have hreach := proceeds_of_takeTurns hturns
  have hrun := traced_of_recite hrecite
  obtain ⟨before, name, password, after, rfl, -, -⟩ :=
    exists_of_guesses (show marks (said τ) = [] ++ .guesses true :: [.replies 230] from hmarks)
  have hvets := (onIncoming_vets strictContext hreach.isVetted.1.plain _).of_goes hrun.goes
  have hguess : .guess name password true ∈ before ++ .guess name password true :: after := by simp
  obtain ⟨hline, -, hname⟩ := hvets.of_guess (mem_said.2 hguess)
  have hcommand : (Line.Incoming.line "PASS abcde").command? = some (.pass "abcde") := by
    decide +kernel
  obtain rfl := Command.pass.inj (Option.some.inj (hcommand.symm.trans hline))
  obtain rfl := Option.some.inj (halice.symm.trans hname)
  exact ⟨ts, c, s, _, c', s', hreach, hrun, hguess, by rw [hmarks]; simp, hready⟩

end Session

end FtpServer
