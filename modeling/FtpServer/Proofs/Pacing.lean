import FtpServer.Proofs.StagedRenames

/-!
# What a line spends

Only `USER` and `PASS` ask about passwords or pause.  A refusal with 530 comes after one pause, and
nothing else does; a password is asked about only where one is awaited, and whatever is said to it,
none is awaited afterwards.
-/

namespace FtpServer

open Program Dialogue Outcome

def Request.SparesLogin : Request → Prop
  | .authenticate _ _ | .pause _ => False
  | _ => True

def Line.Incoming.IsLogin (line : Line.Incoming) : Prop :=
  ∃ command, line.command? = some command ∧ command.isLogin = true

namespace Session

def Context.delay (ctx : Context) : Nat := ctx.settings.authFailureDelayMs.toNat

/-- What counts where passwords are guessed. -/
inductive Mark
  | guesses (accepted : Bool)
  | waits (ms : Nat)
  | replies (code : Nat)
  deriving DecidableEq, Repr

def mark? : (q : Request) × q.Answer → Option Mark
  | ⟨.authenticate _ _, accepted⟩ => some (.guesses accepted)
  | ⟨.pause ms, _⟩ => some (.waits ms)
  | ⟨.writeReply reply, _⟩ => some (.replies reply.code)
  | _ => none

def marks (l : Transcript Request.Answer) : List Mark := l.filterMap mark?

variable {ctx : Context} {c c' : Client} {l l' : Transcript Request.Answer} {o : Outcome}
variable {line : Line.Incoming} {command : Command} {onward : Onward} {r : Client × Onward}

@[simp] theorem marks_nil : marks [] = [] := rfl

@[simp] theorem marks_append (l l' : Transcript Request.Answer) :
    marks (l ++ l') = marks l ++ marks l' := List.filterMap_append

theorem marks_spared (h : ∀ x ∈ l, x.1.SparesLogin) : ∀ m ∈ marks l, ∃ code, m = .replies code := by
  intro m hm
  obtain ⟨⟨q, r⟩, hmem, hmark⟩ := List.mem_filterMap.1 hm
  have hq : q.SparesLogin := h _ hmem
  cases q with
  | authenticate | pause => cases hq
  | writeReply reply => exact ⟨reply.code, (Option.some.inj hmark).symm⟩
  | _ => cases hmark

theorem mem_of_waits {ms : Nat} (h : .waits ms ∈ marks l) : ⟨.pause ms, ()⟩ ∈ l := by
  obtain ⟨⟨q, r⟩, hmem, hmark⟩ := List.mem_filterMap.1 h
  cases q with
  | pause ms' =>
    cases hmark
    exact hmem
  | authenticate | writeReply => cases hmark
  | _ => cases hmark

/-- A refusal is noted, and 530 comes after a pause. -/
inductive Refusal (ctx : Context) (code : Nat) : Transcript Request.Answer → Prop
  | held (record : Record) (hcode : code = 530) :
      Refusal ctx code [⟨.note record, ()⟩, ⟨.pause ctx.delay, ()⟩]
  | prompt (record : Record) (hcode : code ≠ 530) : Refusal ctx code [⟨.note record, ()⟩]

/-- What a command asks about passwords and time, and what becomes of the login. -/
inductive Tries (ctx : Context) (c : Client) :
    Command → Transcript Request.Answer → Client × Outcome → Prop
  | elsewhere {command : Command} {l : Transcript Request.Answer} {r : Client × Outcome}
      (hlogin : command.isLogin = false) (hl : ∀ x ∈ l, x.1.SparesLogin)
      (hstage : r.1.stage = c.stage) : Tries ctx c command l r
  | prompts (name text : String) (username : Option String) :
      Tries ctx c (.user name) [] (c.beginLogin username, .success 331 text)
  | refuses {command : Command} {l : Transcript Request.Answer} {code : Nat} (text : String)
      (hlogin : command.isLogin = true) (hl : Refusal ctx code l) :
      Tries ctx c command l (c, .failure code text)
  | admits {password : String} {guess : Transcript Request.Answer} (record : Record)
      (identity text : String) (hawaits : c.stage = .awaitingPassword)
      (hguess : guess = [] ∨ ∃ name, guess = [⟨.authenticate name password, true⟩]) :
      Tries ctx c (.pass password) (guess ++ [⟨.note record, ()⟩])
        (c.completeLogin identity, .success 230 text)
  | resets {password : String} {guess l : Transcript Request.Answer} {code : Nat} (text : String)
      (hawaits : c.stage = .awaitingPassword)
      (hguess : guess = [] ∨ (∃ name, guess = [⟨.authenticate name password, false⟩]) ∧ code = 530)
      (hl : Refusal ctx code l) :
      Tries ctx c (.pass password) (guess ++ l) (c.resetLogin, .failure code text)

theorem refuseLogin_refusal (ctx : Context) (c : Client) (e : LoginError) :
    (refuseLogin ctx c e).Yields fun l r =>
      Refusal ctx e.code l ∧ r = (c, .failure e.code e.replyText) := by
  refine Yields.question fun _ => ?_
  dsimp only
  split
  next hcode => exact Yields.question fun _ => ⟨.held _ hcode, rfl⟩
  next hcode => exact ⟨.prompt _ hcode, rfl⟩

theorem refuseLogin_tries (ctx : Context) (c : Client) (hlogin : command.isLogin = true)
    (e : LoginError) : (refuseLogin ctx c e).Yields (Tries ctx c command) := by
  refine (refuseLogin_refusal ctx c e).mono fun l r h => ?_
  obtain ⟨hl, rfl⟩ := h
  exact .refuses _ hlogin hl

theorem onUser_tries (ctx : Context) (c : Client) (name : String) :
    (onUser ctx c name).Yields (Tries ctx c (.user name)) := by
  unfold onUser
  split
  next => exact refuseLogin_tries ctx c rfl _
  next =>
    split
    next e _ => exact refuseLogin_tries ctx c rfl e
    next =>
      split
      next => exact .prompts name _ none
      next => exact .prompts name _ (some name)

theorem identify_guess (ctx : Context) (c : Client) (password : String) :
    (identify ctx c password).Yields fun l result => l = [] ∨ ∃ name,
      l = [⟨.authenticate name password, true⟩] ∧ result = .ok name ∨
      l = [⟨.authenticate name password, false⟩] ∧ result = .error (.loginIncorrect name) := by
  unfold identify
  cases c.username with
  | none => exact .inl rfl
  | some name =>
    refine Yields.question fun (accepted : Bool) => ?_
    cases accepted with
    | true => exact .inr ⟨name, .inl ⟨rfl, rfl⟩⟩
    | false => exact .inr ⟨name, .inr ⟨rfl, rfl⟩⟩

theorem onPass_tries (ctx : Context) (c : Client) (password : String) :
    (onPass ctx c password).Yields (Tries ctx c (.pass password)) := by
  unfold onPass
  split
  next => exact refuseLogin_tries ctx c rfl _
  next hstage =>
    have hawaits : c.stage = .awaitingPassword := Decidable.not_not.1 hstage
    refine (identify_guess ctx c password).bind fun guess result hguess => ?_
    cases result with
    | ok identity =>
      refine Yields.question fun _ => ?_
      refine .admits _ identity _ hawaits (hguess.imp_right fun ⟨name, h⟩ => ?_)
      rcases h with ⟨hl, -⟩ | ⟨-, herror⟩
      · exact ⟨name, hl⟩
      · cases herror
    | error e =>
      refine (refuseLogin_refusal ctx c.resetLogin e).mono fun l r h => ?_
      obtain ⟨hl, rfl⟩ := h
      refine .resets _ hawaits (hguess.imp_right fun ⟨name, h⟩ => ?_) hl
      rcases h with ⟨-, hok⟩ | ⟨hasked, herror⟩
      · cases hok
      · cases herror
        exact ⟨⟨name, hasked⟩, rfl⟩

/-- `USER` and `PASS` have rules of their own, and no other command has to do with the login. -/
theorem handle_yields {post : Transcript Request.Answer → Client × Outcome → Prop} (hc : c.IsPlain)
    (helsewhere : ∀ l r, command.isLogin = false → (∀ x ∈ l, x.1.SparesLogin) →
      SameLogin c r.1 → post l r)
    (huser : ∀ name, command = .user name → (onUser ctx c name).Yields post)
    (hpass : ∀ password, command = .pass password → (onPass ctx c password).Yields post) :
    (handle ctx c command).Yields post := by
  unfold handle
  split
  next hgate =>
    refine helsewhere [] _ ?_ (by simp) ⟨hc, rfl, rfl⟩
    cases command with
    | user | pass => simp [Command.requiresLogin] at hgate
    | _ => rfl
  next =>
    cases hlogin : command.isLogin with
    | false =>
      have hkeeps : (dispatch ctx c command).Keeps (Request.allowing fun _ _ => True)
          Request.SparesLogin (LeavesWith (SameLogin c)) :=
        dispatch_keeps (holds_sameLogin c) ⟨hc, rfl, rfl⟩
          (fun q hq => by cases q <;> trivial) (fun q hq => by cases q <;> trivial) hlogin
      refine (hkeeps.weaken (fun q _ _ => by cases q <;> trivial) fun _ hq => hq).yields.mono
        fun l r hl => helsewhere l r hlogin hl.1 hl.2
    | true =>
      cases command with
      | user name => exact huser name rfl
      | pass password => exact hpass password rfl
      | _ => cases hlogin

theorem handle_tries (ctx : Context) (hc : c.IsPlain) (command : Command) :
    (handle ctx c command).Yields (Tries ctx c command) := by
  refine handle_yields hc (fun l r hlogin hl hsame => .elsewhere hlogin hl hsame.stage)
    (fun name h => ?_) fun password h => ?_
  · exact h ▸ onUser_tries ctx c name
  · exact h ▸ onPass_tries ctx c password

inductive Paces (ctx : Context) (c : Client) (line : Line.Incoming) :
    Transcript Request.Answer → Client × Onward → Prop
  | other {l : Transcript Request.Answer} {r : Client × Onward}
      (hmarks : ∀ m ∈ marks l, ∃ code, m = .replies code)
      (hcode : line.IsLogin → .replies 530 ∉ marks l) (hstage : r.1.stage = c.stage) :
      Paces ctx c line l r
  | prompted {l : Transcript Request.Answer} {r : Client × Onward} {name : String}
      (hline : line.command? = some (.user name)) (hmarks : marks l = [.replies 331])
      (hsent : r.2 = .goOn → ∃ text, .writes ⟨331, text⟩ ∈ deeds l) : Paces ctx c line l r
  | denied {l : Transcript Request.Answer} {r : Client × Onward} (hline : line.IsLogin)
      (hmarks : marks l = [.waits ctx.delay, .replies 530]) (hstage : r.1.stage = c.stage) :
      Paces ctx c line l r
  /-- The password was accepted, or cannot be one. -/
  | settled {l : Transcript Request.Answer} {r : Client × Onward} {guess : List Mark} {code : Nat}
      (hguess : guess = [] ∨ guess = [.guesses true]) (hcode : code ≠ 530)
      (hmarks : marks l = guess ++ [.replies code]) (hawaits : c.stage = .awaitingPassword)
      (hleaves : r.1.stage ≠ .awaitingPassword) : Paces ctx c line l r
  | rejected {l : Transcript Request.Answer} {r : Client × Onward} {guess : List Mark}
      (hline : line.IsLogin) (hguess : guess = [] ∨ guess = [.guesses false])
      (hmarks : marks l = guess ++ [.waits ctx.delay, .replies 530])
      (hawaits : c.stage = .awaitingPassword) (hleaves : r.1.stage ≠ .awaitingPassword) :
      Paces ctx c line l r

theorem marks_handing (c : Client) (command : Command) (o : Outcome) :
    marks (handing c command o) = [] := by
  unfold handing concluding
  split <;> split <;> rfl

theorem Delivered.marks (h : Delivered c command o l onward) :
    marks l = (o.reply.map fun reply => Mark.replies reply.code).toList := by
  cases h with
  | silent hreply => rw [hreply, marks_handing]; rfl
  | sent hreply =>
    rw [hreply]
    exact congrArg (Mark.replies _ :: ·) (marks_handing c command o)
  | failed cause record hreply => rw [hreply]; rfl

theorem Tries.paces (htries : Tries ctx c command l (c', o))
    (hline : line.command? = some command) {l₁ : Transcript Request.Answer}
    (hmarks : marks l₁ = marks l) (hdelivered : Delivered c' command o l' onward) :
    Paces ctx c line (l₁ ++ l') (c', onward) := by
  have hall : marks (l₁ ++ l') =
      marks l ++ (o.reply.map fun reply => Mark.replies reply.code).toList := by
    rw [marks_append, hmarks, hdelivered.marks]
  have hlogs (hlogin : command.isLogin = true) : line.IsLogin := ⟨command, hline, hlogin⟩
  cases htries with
  | elsewhere hlogin hl hstage =>
    refine .other (fun m hm => ?_) (fun ⟨command', hline', hlogin'⟩ => ?_) hstage
    · rw [hall, List.mem_append, Option.mem_toList] at hm
      rcases hm with hm | hm
      · exact marks_spared hl m hm
      · obtain ⟨reply, -, rfl⟩ := Option.map_eq_some_iff.1 hm
        exact ⟨reply.code, rfl⟩
    · obtain rfl := Option.some.inj (hline.symm.trans hline')
      simp [hlogin] at hlogin'
  | prompts name text =>
    refine .prompted hline hall fun hgo => ⟨text, ?_⟩
    rw [deeds_append, hdelivered.deeds.2 hgo]
    exact List.mem_append_right _ (writes_mem_heralds.2 rfl)
  | refuses text hlogin hl =>
    cases hl with
    | held record hcode =>
      subst hcode
      exact .denied (hlogs hlogin) hall rfl
    | prompt record hcode =>
      have hall : marks (l₁ ++ l') = [.replies _] := hall
      exact .other (by simp [hall]) (fun _ => by simpa [hall] using Ne.symm hcode) rfl
  | admits record identity text hawaits hguess =>
    have hcode : Reply.loginSuccess ≠ 530 := by decide
    have hleaves : (c.completeLogin identity).stage ≠ .awaitingPassword := by
      simp [Client.completeLogin]
    rcases hguess with rfl | ⟨name, rfl⟩
    · exact .settled (.inl rfl) hcode hall hawaits hleaves
    · exact .settled (.inr rfl) hcode hall hawaits hleaves
  | resets text hawaits hguess hl =>
    have hleaves : c.resetLogin.stage ≠ .awaitingPassword := by simp [Client.resetLogin]
    rcases hguess with rfl | ⟨⟨name, rfl⟩, rfl⟩
    · cases hl with
      | held record hcode =>
        subst hcode
        exact .rejected (hlogs rfl) (.inl rfl) hall hawaits hleaves
      | prompt record hcode => exact .settled (.inl rfl) hcode hall hawaits hleaves
    · cases hl with
      | held record => exact .rejected (hlogs rfl) (.inr rfl) hall hawaits hleaves
      | prompt record hcode => exact absurd rfl hcode

theorem onCommand_paces (ctx : Context) (hc : c.IsPlain) (hline : line.command? = some command) :
    (onCommand ctx c command).Yields (Paces ctx c line) := by
  have hperform : (perform ctx c command).Yields fun l r =>
      ∃ l₀, marks l = marks l₀ ∧ Tries ctx c command l₀ r :=
    Yields.question fun _ => (handle_tries ctx hc command).mono fun l r h => ⟨l, rfl, h⟩
  refine onCommand_yields hperform fun l l' c' o onward hl hdelivered => ?_
  obtain ⟨l₀, hmarks, htries⟩ := hl
  exact htries.paces hline hmarks hdelivered

theorem remark_paces (record : Record) (reply : Reply) (hline : line.command? = none) :
    (do note record; return (c, ← sendOrStop reply) : Dialogue (Client × Onward)).Yields
      (Paces ctx c line) := by
  have hnot : ¬ line.IsLogin := by
    rintro ⟨command, hcommand, -⟩
    rw [hline] at hcommand
    cases hcommand
  have hother (result : Except OsError Unit) (onward : Onward) :
      Paces ctx c line (remarking record reply result) (c, onward) :=
    .other (by simp [remarking, marks, mark?]) (fun h => absurd h hnot) rfl
  exact remark_yields (fun _ => hother _ _) (hother _ _)

theorem onIncoming_paces (ctx : Context) (hc : c.IsPlain) (line : Line.Incoming) :
    (onIncoming ctx c line).Yields (Paces ctx c line) := by
  unfold onIncoming
  split
  next =>
    refine Yields.question fun _ => ?_
    exact .other (by simp [marks, mark?]) (by simp [marks, mark?]) rfl
  next => exact remark_paces _ _ rfl
  next text =>
    split
    next command hparse =>
      exact onCommand_paces ctx hc (by rw [Line.Incoming.command?, hparse]; rfl)
    next e hparse => exact remark_paces _ _ (by rw [Line.Incoming.command?, hparse]; rfl)

/-- A `USER` or `PASS` is answered with 530 right behind one pause, and nothing else pauses. -/
inductive Throttles (delay : Nat) (line : Line.Incoming) : List Mark → Prop
  | held {guess : List Mark} (hline : line.IsLogin) (hguess : guess = [] ∨ guess = [.guesses false]) :
      Throttles delay line (guess ++ [.waits delay, .replies 530])
  | prompt {ms : List Mark} (hwaits : ∀ n, .waits n ∉ ms) (hcode : line.IsLogin → .replies 530 ∉ ms) :
      Throttles delay line ms

namespace Paces

theorem throttles (h : Paces ctx c line l r) : Throttles ctx.delay line (marks l) := by
  cases h with
  | other hmarks hcode =>
    refine .prompt (fun n hn => ?_) hcode
    obtain ⟨code, hcode⟩ := hmarks _ hn
    cases hcode
  | prompted hline hmarks =>
    rw [hmarks]
    exact .prompt (by simp) (by simp)
  | denied hline hmarks =>
    rw [hmarks]
    exact .held hline (.inl rfl)
  | settled hguess hcode hmarks =>
    rw [hmarks]
    rcases hguess with rfl | rfl <;>
      exact .prompt (by simp) fun _ => by simpa using Ne.symm hcode
  | rejected hline hguess hmarks =>
    rw [hmarks]
    exact .held hline hguess

/-- A password is tried where one is awaited, and only one: afterwards none is awaited, and there is
a pause if it was wrong. -/
theorem of_guess (h : Paces ctx c line l r) {before after : List Mark} {accepted : Bool}
    (hsplit : marks l = before ++ .guesses accepted :: after) :
    c.stage = .awaitingPassword ∧ r.1.stage ≠ .awaitingPassword ∧ (∀ a, .guesses a ∉ after) ∧
      (accepted = false → .waits ctx.delay ∈ after) := by
  have hmem : .guesses accepted ∈ marks l := by simp [hsplit]
  -- Only the first mark can be the guess.
  have hfirst {m : Mark} {ms : List Mark} (hmarks : marks l = m :: ms)
      (hms : ∀ a, .guesses a ∉ ms) : m = .guesses accepted ∧ after = ms := by
    rw [hmarks] at hsplit
    cases before with
    | nil =>
      obtain ⟨rfl, rfl⟩ := List.cons.inj hsplit
      exact ⟨rfl, rfl⟩
    | cons first before =>
      obtain ⟨-, rfl⟩ := List.cons.inj hsplit
      exact absurd (by simp) (hms accepted)
  cases h with
  | other hmarks =>
    obtain ⟨code, hcode⟩ := hmarks _ hmem
    cases hcode
  | prompted hline hmarks | denied hline hmarks => simp [hmarks] at hmem
  | settled hguess hcode hmarks hawaits hleaves =>
    rcases hguess with rfl | rfl
    · simp [hmarks] at hmem
    · obtain ⟨haccepted, rfl⟩ := hfirst hmarks (by simp)
      cases haccepted
      exact ⟨hawaits, hleaves, by simp, fun h => by cases h⟩
  | rejected hline hguess hmarks hawaits hleaves =>
    rcases hguess with rfl | rfl
    · simp [hmarks] at hmem
    · obtain ⟨-, rfl⟩ := hfirst hmarks (by simp)
      exact ⟨hawaits, hleaves, by simp, fun _ => List.mem_cons_self⟩

theorem of_awaiting (h : Paces ctx c line l r) (hgo : r.2 = .goOn)
    (hawaits : r.1.stage = .awaitingPassword) : c.stage = .awaitingPassword ∨
      ∃ name text, line.command? = some (.user name) ∧ .writes ⟨331, text⟩ ∈ deeds l := by
  cases h with
  | other _ _ hstage | denied _ _ hstage => exact .inl (hstage.symm.trans hawaits)
  | prompted hline _ hsent =>
    obtain ⟨text, hsent⟩ := hsent hgo
    exact .inr ⟨_, text, hline, hsent⟩
  | settled _ _ _ _ hleaves | rejected _ _ _ _ hleaves => exact absurd hawaits hleaves

end Paces

end Session

end FtpServer
