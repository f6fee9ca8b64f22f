import FtpServer.Proofs.OneLine
import FtpServer.Proofs.OneReply

/-!
# Replies of one line

Replies repeat names, passwords, verbs and paths that clients have sent.  All of them were looked at
before, and hold neither carriage returns nor line feeds; so a reply is one line, and ends where its
frame does.  Only the name of a `USER` that is refused for its form is repeated as it stands, with
the carriage returns that it was refused for.
-/

namespace FtpServer

open Program Dialogue Scene Text Outcome

section Names

variable {settings : Settings} {name text : String} {c c' : Client}

theorem IsClean.isOneLine (h : IsClean text) : IsOneLine text :=
  isOneLine_of_forall fun c hc => ⟨(h c hc).1, (h c hc).2.1⟩

theorem Account.isOneLine_of_checkUser (h : checkUser settings name = .ok ()) : IsOneLine name :=
  (checkUser_eq_ok_iff.1 h).1.clean.isOneLine

theorem Account.checkUser_of_mem (h : '\r' ∈ name.toList) :
    checkUser settings name = .error (.invalidUsername name) := by
  have hform : isAcceptable name settings.maxUsernameLength = false := by
    rw [Bool.eq_false_iff]
    intro hacceptable
    exact (isAcceptable_iff.1 hacceptable).2.isOneLine.1 h
  rw [checkUser, hform]
  simp

theorem Account.isOneLine_of_anonymousIdentity {password identity : String}
    (h : anonymousIdentity settings password = .ok identity) : IsOneLine identity := by
  obtain ⟨hadmits, rfl⟩ := anonymousIdentity_eq_ok_iff.1 h
  exact (isOneLine_append _ _).2 ⟨by decide, hadmits.clean.isOneLine⟩

theorem LoginError.isOneLine_replyText {e : LoginError} (hname : ∀ name, e ≠ .invalidUsername name)
    (hwhat : ∀ what, e = .malformedInput what → IsOneLine what) : IsOneLine e.replyText := by
  cases e with
  | invalidUsername name => exact absurd rfl (hname name)
  | malformedInput what => exact isOneLine_between (by decide) (hwhat what rfl)
  | _ =>
    simp only [replyText]
    decide

theorem StorageError.isOneLine_replyText (e : StorageError) : IsOneLine e.replyText := by
  cases e <;> simp only [replyText] <;> decide

def Client.IsLegible (c : Client) : Prop := ∀ name, c.username = some name → IsOneLine name

theorem LoginStep.isLegible {e : Exchange} (hstep : LoginStep settings c e c') (h : c.IsLegible) :
    c'.IsLegible := by
  cases hstep with
  | @prompts name hstage he hcheck hc' =>
    subst hc'
    intro name' hname'
    have hname : Client.usernameFor name = some name' := hname'
    unfold Client.usernameFor at hname
    split at hname
    next => cases hname
    next =>
      obtain rfl := Option.some.inj hname
      exact Account.isOneLine_of_checkUser hcheck
  | @accepts password identity hstage he hshows hc' =>
    subst hc'
    intro name' hname'
    obtain rfl : identity = name' := Option.some.inj hname'
    unfold Client.Shows at hshows
    split at hshows
    next => exact Account.isOneLine_of_anonymousIdentity hshows
    next name husername =>
      obtain ⟨-, rfl⟩ := hshows
      exact h identity husername
  | resets hstage he hrefused hc' =>
    subst hc'
    intro name hname
    cases hname
  | passes he hstage husername =>
    intro name hname
    exact h name (husername.symm.trans hname)

end Names

namespace Session

variable {ctx : Context} {c c' : Client} {s s' : Scene} {t : Turn} {ts : List Turn} {α ε : Type}

theorem Turn.Runs.isLegible (hruns : t.Runs ctx) (hplain : t.before.1.IsPlain)
    (h : t.before.1.IsLegible) : t.after.1.IsLegible := by
  rcases hruns.client with hclient | ⟨command, o, s₁, hperform⟩
  · rwa [hclient]
  · have hlogs : LoginStep ctx.settings t.before.1 ⟨command, o, t.before.2.authenticator⟩ t.after.1 :=
      loginStep_of_perform hplain hperform
    exact hlogs.isLegible h

def InOneLine (o : Outcome) : Prop := ∀ reply, o.reply = some reply → IsOneLine reply.text

theorem inOneLine_success {text : String} (h : IsOneLine text) (code : Nat) :
    InOneLine (success code text) := fun _ hreply => Option.some.inj hreply ▸ h

theorem inOneLine_failure {text : String} (h : IsOneLine text) (code : Nat) :
    InOneLine (failure code text) := fun _ hreply => Option.some.inj hreply ▸ h

theorem inOneLine_close {text : String} (h : IsOneLine text) (code : Nat) :
    InOneLine (Outcome.close code text) := fun _ hreply => Option.some.inj hreply ▸ h

theorem inOneLine_begin {text : String} (h : IsOneLine text) (transfer : Transfer) :
    InOneLine (begin text transfer) := fun _ hreply => Option.some.inj hreply ▸ h

theorem inOneLine_ignored : InOneLine ignored := fun _ hreply => by cases hreply

abbrev Replies (step : Step) : Prop := step.Yields fun _ r => InOneLine r.2

theorem replies_of_files {p : Files (Except ε α)} {next : Except ε α → Step}
    (hok : ∀ a, Replies (next (.ok a))) (herror : ∀ e, Replies (next (.error e))) :
    Replies (ofFiles p >>= next) := by
  refine (Yields.any _).bind fun _ result _ => ?_
  cases result with
  | ok a => exact hok a
  | error e => exact herror e

theorem refuseLogin_replies {e : LoginError} (h : IsOneLine e.replyText) :
    Replies (refuseLogin ctx c e) := by
  refine Yields.question fun _ => ?_
  dsimp only
  split
  next => exact Yields.question fun _ => inOneLine_failure h _
  next => exact inOneLine_failure h _

theorem onUser_replies {name : String} (hname : c.isLoggedIn = true ∨ IsOneLine name) :
    Replies (onUser ctx c name) := by
  unfold onUser
  split
  next => exact refuseLogin_replies (by decide)
  next hout =>
    have hline : IsOneLine name := hname.resolve_left hout
    split
    next e hcheck =>
      apply refuseLogin_replies
      unfold Account.checkUser at hcheck
      split at hcheck
      next =>
        obtain rfl := Except.error.inj hcheck
        exact isOneLine_between (by decide) hline
      next =>
        split at hcheck
        next =>
          obtain rfl := Except.error.inj hcheck
          decide
        next => cases hcheck
    next =>
      split
      next => exact inOneLine_success (by decide) _
      next =>
        exact inOneLine_success (isOneLine_between (by decide) hline) _

theorem onUser_repeats {name : String} (hout : c.isLoggedIn = false) (hname : '\r' ∈ name.toList) :
    (onUser ctx c name).Yields fun _ r => ∀ reply, r.2.reply = some reply →
      reply.text = "Invalid username: " ++ name ++ "." := by
  have hnot : ¬ c.isLoggedIn = true := by simp [hout]
  rw [onUser, if_neg hnot, Account.checkUser_of_mem hname]
  refine Yields.question fun _ => ?_
  exact fun reply hreply => Option.some.inj hreply ▸ rfl

theorem identify_legible (hc : c.IsLegible) (password : String) :
    (identify ctx c password).Yields fun _ r => (∀ identity, r = .ok identity → IsOneLine identity) ∧
      ∀ e, r = .error e → IsOneLine e.replyText := by
  unfold identify
  split
  next =>
    refine ⟨fun identity h => Account.isOneLine_of_anonymousIdentity h, fun e h => ?_⟩
    obtain rfl | rfl := Account.anonymousIdentity_error h <;> decide
  next name husername =>
    refine Yields.question fun accepted => ?_
    split
    next =>
      refine ⟨fun identity h => ?_, fun e h => ?_⟩
      · exact Except.ok.inj h ▸ hc name husername
      · cases h
    next =>
      refine ⟨fun identity h => ?_, fun e h => ?_⟩
      · cases h
      · obtain rfl := Except.error.inj h
        exact LoginError.isOneLine_replyText (by simp) (by simp)

theorem onPass_replies (hc : c.IsLegible) (password : String) : Replies (onPass ctx c password) := by
  unfold onPass
  split
  next => exact refuseLogin_replies (by decide)
  next =>
    refine (identify_legible hc password).bind fun _ result hresult => ?_
    split
    next identity =>
      refine Yields.question fun _ => ?_
      exact inOneLine_success (isOneLine_between (by decide) (hresult.1 identity rfl)) _
    next e => exact refuseLogin_replies (hresult.2 e rfl)

theorem refuseStorage_replies (c : Client) (verb : String) (e : StorageError) (code : Nat) :
    Replies (refuseStorage c verb e code) :=
  Yields.question fun _ => inOneLine_failure e.isOneLine_replyText _

theorem refuse_replies (c : Client) (verb : String) (e : StorageError) :
    Replies (refuse c verb e) := refuseStorage_replies c verb e _

theorem refuseCreation_replies (c : Client) (verb : String) (e : StorageError) :
    Replies (refuseCreation c verb e) := refuseStorage_replies c verb e _

theorem onCwd_replies (hc : c.directory.IsPlain) (argument : String) :
    Replies (onCwd ctx c argument) := by
  have henter : (ofFiles (Storage.enter ctx.root c.directory argument)).Yields
      fun _ r => ∀ p, r = .ok p → p.IsPlain := by
    rw [yields_ofFiles]
    have hkeeps : (Storage.enter ctx.root c.directory argument).Keeps (fun _ _ => True) _ _ :=
      Storage.enter_keeps hc argument
    exact hkeeps.yields.mono fun _ _ h => h.2
  refine henter.bind fun _ result hresult => ?_
  split
  next path =>
    have hpath := (hresult path rfl).isOneLine
    refine Yields.question fun _ => ?_
    exact inOneLine_success (isOneLine_between (by decide) hpath) _
  next => exact Yields.question fun _ => inOneLine_failure (by decide) _

theorem onPwd_inOneLine (hc : c.directory.IsPlain) : InOneLine (onPwd c) := by
  exact inOneLine_success (isOneLine_between (by decide) hc.isOneLine) _

theorem onMkd_replies (hc : c.directory.IsPlain) (argument : String) :
    Replies (onMkd ctx c argument) := by
  unfold onMkd
  split
  next => exact refuseCreation_replies _ _ _
  next path hresolve =>
    have hpath := (hc.resolve hresolve).isOneLine
    refine replies_of_files (fun _ => Yields.question fun _ => ?_) (refuseCreation_replies _ _)
    exact inOneLine_success (isOneLine_between (by decide) hpath) _

theorem onRmd_replies (argument : String) : Replies (onRmd ctx c argument) := by
  unfold onRmd
  split
  next => exact refuse_replies _ _ _
  next =>
    refine replies_of_files (fun _ => Yields.question fun _ => ?_) (refuse_replies _ _)
    exact inOneLine_success (by decide) _

theorem onDele_replies (argument : String) : Replies (onDele ctx c argument) := by
  unfold onDele
  split
  next => exact refuse_replies _ _ _
  next =>
    refine replies_of_files (fun _ => Yields.question fun _ => ?_) (refuse_replies _ _)
    exact inOneLine_success (by decide) _

theorem onRnfr_replies (argument : String) : Replies (onRnfr ctx c argument) := by
  refine (Yields.any (unstage c)).bind fun _ c _ => ?_
  split
  next => exact refuse_replies _ _ _
  next =>
    split
    next => exact refuse_replies _ _ _
    next =>
      refine (Yields.any _).bind fun _ found _ => ?_
      split
      next => exact inOneLine_success (by decide) _
      next => exact refuse_replies _ _ _

theorem onRnto_replies (argument : String) : Replies (onRnto ctx c argument) := by
  unfold onRnto
  split
  next => exact inOneLine_failure (by decide) _
  next =>
    dsimp only
    split
    next => exact refuseCreation_replies _ _ _
    next =>
      refine replies_of_files (fun _ => Yields.question fun _ => ?_) (refuseCreation_replies _ _)
      exact inOneLine_success (by decide) _

theorem onType_inOneLine (kind : String) : InOneLine (onType kind) := by
  unfold onType
  split
  next => exact inOneLine_success (by decide) _
  next => exact inOneLine_failure (by decide) _

theorem onPort_replies (argument : String) : Replies (onPort c argument) := by
  refine gate_yields (fun _ _ _ => inOneLine_failure (by decide) _) fun _ _ _ => ?_
  split
  next =>
    refine Yields.question fun _ => ?_
    refine (Yields.any _).bind fun _ _ _ => ?_
    exact inOneLine_success (by decide) _
  next => exact Yields.question fun _ => inOneLine_failure (by decide) _

theorem onPasv_replies : Replies (onPasv ctx c) := by
  refine gate_yields (fun _ _ _ => inOneLine_failure (by decide) _) fun _ _ _ => ?_
  refine (Yields.any _).bind fun _ _ _ => ?_
  refine (Yields.any _).bind fun _ result _ => ?_
  cases result with
  | ok address =>
    have haddress := HostPort.isOneLine_encode address
    refine Yields.question fun _ => ?_
    refine (Yields.any _).bind fun _ _ _ => ?_
    exact inOneLine_success (isOneLine_between (by decide) haddress) _
  | error e => exact Yields.question fun _ => inOneLine_close (by decide) _

theorem onAbor_replies : Replies (onAbor c) := by
  refine Yields.question fun inProgress => ?_
  split
  next =>
    refine (Yields.any _).bind fun _ _ _ => ?_
    refine Yields.question fun _ => ?_
    exact inOneLine_success (by decide) _
  next => exact inOneLine_success (by decide) _

theorem onQuit_replies : Replies (onQuit c) :=
  (Yields.any _).bind fun _ _ _ => inOneLine_close (by decide) _

theorem withData_replies (hc : c.IsPlain) {opener : Client → Step}
    (hopener : ∀ c : Client, c.IsPlain → Replies (opener c)) : Replies (withData c opener) := by
  refine gate_yields (fun _ _ _ => Yields.question fun _ => inOneLine_ignored) fun _ c' hreaped => ?_
  split
  next => exact inOneLine_failure (by decide) _
  next => exact hopener c' (hreaped.isPlain hc)

theorem beginList_replies (argument : String) (c : Client) : Replies (beginList ctx argument c) := by
  unfold beginList
  split
  next => exact refuse_replies _ _ _
  next =>
    refine replies_of_files (fun _ => ?_) (refuse_replies _ _)
    exact inOneLine_begin (by decide) _

theorem beginRetr_replies (hc : c.IsPlain) (argument : String) :
    Replies (beginRetr ctx argument c) := by
  unfold beginRetr
  split
  next => exact refuse_replies _ _ _
  next path hresolve =>
    have hpath := (hc.directory.resolve hresolve).isOneLine
    refine replies_of_files (fun _ => Yields.question fun _ => ?_) (refuse_replies _ _)
    exact inOneLine_begin (isOneLine_between (by decide) hpath) _

theorem beginStor_replies (hc : c.IsPlain) (argument : String) :
    Replies (beginStor ctx argument c) := by
  unfold beginStor
  split
  next => exact refuseCreation_replies _ _ _
  next path hresolve =>
    have hpath := (hc.directory.resolve hresolve).isOneLine
    refine replies_of_files (fun _ => Yields.question fun _ => ?_) (refuseCreation_replies _ _)
    exact inOneLine_begin (isOneLine_between (by decide) hpath) _

/-- Every command comes to a reply of one line, but for a name that is refused for its form. -/
theorem dispatch_replies (hc : c.IsPlain) (hlegible : c.IsLegible) {command : Command}
    (huser : ∀ name, command = .user name → c.isLoggedIn = true ∨ IsOneLine name)
    (hunknown : ∀ verb, command = .unknown verb → IsOneLine verb) :
    Replies (dispatch ctx c command) := by
  cases command with
  | user name => exact onUser_replies (huser name rfl)
  | pass password => exact onPass_replies hlegible password
  | syst => exact inOneLine_success (by decide) _
  | type kind => exact onType_inOneLine kind
  | noop => exact inOneLine_success (by decide) _
  | port argument => exact onPort_replies argument
  | pasv => exact onPasv_replies
  | cwd argument => exact onCwd_replies hc.directory argument
  | cdup => exact onCwd_replies hc.directory ".."
  | pwd => exact onPwd_inOneLine hc.directory
  | mkd argument => exact onMkd_replies hc.directory argument
  | rmd argument => exact onRmd_replies argument
  | dele argument => exact onDele_replies argument
  | rnfr argument => exact onRnfr_replies argument
  | rnto argument => exact onRnto_replies argument
  | list argument => exact withData_replies hc fun c _ => beginList_replies argument c
  | retr argument => exact withData_replies hc fun _ hc => beginRetr_replies hc argument
  | stor argument => exact withData_replies hc fun _ hc => beginStor_replies hc argument
  | abor => exact onAbor_replies
  | quit => exact onQuit_replies
  | unknown verb =>
    have hverb := hunknown verb rfl
    exact inOneLine_success (isOneLine_between (by decide) hverb) _

/-- While nobody is logged in, the line names somebody with a carriage return in the name. -/
def NamesWithReturn (c : Client) (line : Line.Incoming) : Prop :=
  ∃ text name, line = .line text ∧ Command.parse text = .ok (.user name) ∧
    c.isLoggedIn = false ∧ '\r' ∈ name.toList

/-- No line feed, no carriage return at the end, and one before it just where the line has it. -/
structure Quotes (c : Client) (line : Line.Incoming) (reply : Reply) : Prop where
  feed : '\n' ∉ reply.text.toList
  last : reply.text.toList.getLast? ≠ some '\r'
  returns : '\r' ∈ reply.text.toList ↔ NamesWithReturn c line

variable {line : Line.Incoming} {reply : Reply} {text : String} {command : Command}

theorem quotes_of_isOneLine (h : IsOneLine reply.text) (hnot : ¬ NamesWithReturn c line) :
    Quotes c line reply where
  feed := h.2
  last hlast := h.1 (List.mem_of_getLast? hlast)
  returns := iff_of_false h.1 hnot

theorem handle_quotes (hc : c.IsPlain) (hlegible : c.IsLegible) (hfeed : '\n' ∉ text.toList)
    (hparse : Command.parse text = .ok command) :
    (handle ctx c command).Yields fun _ r => ∀ reply, r.2.reply = some reply →
      Quotes c (.line text) reply := by
  by_cases hnames : NamesWithReturn c (.line text)
  · have hnames' := hnames
    obtain ⟨text', name, htext, hparse', hout, hreturn⟩ := hnames'
    obtain rfl := Line.Incoming.line.inj htext
    obtain rfl := Except.ok.inj (hparse.symm.trans hparse')
    have hname : '\n' ∉ name.toList := fun hmem =>
      hfeed (Command.mem_of_parse hparse rfl _ hmem)
    refine (onUser_repeats hout hreturn).mono fun _ r hr reply hreply => ?_
    have htext := hr reply hreply
    refine ⟨?_, ?_, ?_⟩
    · simp [htext, hname]
    · rw [htext, String.toList_append, List.getLast?_append_of_ne_nil _ (by decide)]
      decide
    · exact iff_of_true (by simp [htext, hreturn]) hnames
  · have hline : (handle ctx c command).Yields fun _ r => InOneLine r.2 := by
      unfold handle
      split
      next => exact inOneLine_failure (by decide) _
      next =>
        refine dispatch_replies hc hlegible (fun name hcommand => ?_) fun verb hcommand => ?_
        · subst hcommand
          by_cases hin : c.isLoggedIn = true
          · exact .inl hin
          · right
            refine ⟨fun hreturn => ?_, fun hmem => hfeed (Command.mem_of_parse hparse rfl _ hmem)⟩
            exact hnames ⟨text, name, rfl, hparse, by simpa using hin, hreturn⟩
        · subst hcommand
          exact Command.isOneLine_of_parse hparse
    exact hline.mono fun _ r hr reply hreply => quotes_of_isOneLine (hr reply hreply) hnames

abbrev Writes (c : Client) (line : Line.Incoming) (l : Transcript Request.Answer) : Prop :=
  ∀ reply result, ⟨.writeReply reply, result⟩ ∈ l → Quotes c line reply

theorem onCommand_writes (hc : c.IsPlain) (hlegible : c.IsLegible) (hfeed : '\n' ∉ text.toList)
    (hparse : Command.parse text = .ok command) :
    (onCommand ctx c command).Yields fun l _ => Writes c (.line text) l := by
  have hquotes : (perform ctx c command).Yields fun _ r => ∀ reply, r.2.reply = some reply →
      Quotes c (.line text) reply :=
    Yields.question fun _ => handle_quotes hc hlegible hfeed hparse
  refine onCommand_yields (hquotes.and (perform_precedesReply ctx hc command).yields)
    fun l l' c' o onward hl hdelivered reply result hmem => ?_
  obtain ⟨hquotes, hinner, -⟩ := hl
  rcases List.mem_append.1 hmem with hmem | hmem
  · cases (hinner _ hmem).1
  · exact hquotes reply (hdelivered.reply hmem)

theorem remark_writes (record : Record) (hreply : IsOneLine reply.text)
    (hnot : ¬ NamesWithReturn c line) :
    (do note record; return (c, ← sendOrStop reply) : Dialogue (Client × Onward)).Yields
      fun l _ => Writes c line l := by
  have hwrites (result : Except OsError Unit) : Writes c line (remarking record reply result) := by
    intro reply' result' hmem
    simp only [remarking, List.mem_cons, List.not_mem_nil, or_false] at hmem
    rcases hmem with heq | heq | heq | heq <;> cases heq
    exact quotes_of_isOneLine hreply hnot
  exact remark_yields (fun _ => hwrites _) (hwrites _)

theorem onIncoming_writes (hc : c.IsPlain) (hlegible : c.IsLegible)
    (hfeed : ∀ text, line = .line text → '\n' ∉ text.toList) :
    (onIncoming ctx c line).Yields fun l _ => Writes c line l := by
  unfold onIncoming
  split
  next =>
    refine Yields.question fun _ reply result hmem => ?_
    cases List.mem_singleton.1 hmem
  next =>
    refine remark_writes _ (by decide) ?_
    rintro ⟨text, name, htext, -⟩
    cases htext
  next text =>
    split
    next command hparse => exact onCommand_writes hc hlegible (hfeed text rfl) hparse
    next e hparse =>
      have hreply : IsOneLine "Syntax error, command unrecognized." := by decide
      refine remark_writes _ hreply ?_
      rintro ⟨text', name, htext, hparse', -⟩
      obtain rfl := Line.Incoming.line.inj htext
      rw [hparse] at hparse'
      cases hparse'

/-- Every reply to a line that was read ends in its only line feed, behind a carriage return.  That
is its only carriage return too, unless the line names somebody with a carriage return in the name
while nobody is logged in: the reply then repeats the name. -/
theorem replies_one_line_unless_named {address : Socket} {s₀ : Scene} {limit : UInt64}
    {ds rest : List Line.Delivery} {τ : List Event} {p : Dialogue (Client × Onward)}
    {result : Except OsError Unit}
    (hreach : Proceeds ctx (.connect address, s₀) ts (c, s) .goOn)
    (hread : Line.read limit ds = some (line, rest))
    (hrun : Traced (onIncoming ctx c line, s) τ (p, s'))
    (hreply : .asked (.writeReply reply) result ∈ τ) :
    ∃ body, encode reply.frame = body ++ [Line.carriageReturn, Line.lineFeed] ∧
      Line.lineFeed ∉ body ∧
      (Line.carriageReturn ∈ body ↔ NamesWithReturn c line) := by
  have hstart : (Client.connect address).IsSound ∧ (Client.connect address).IsLegible :=
    ⟨Client.connect_isSound address, fun _ h => by cases h⟩
  obtain ⟨hsound, hlegible⟩ := (hreach.keeps (I := fun c => c.IsSound ∧ c.IsLegible)
    (fun t hruns h => ⟨hruns.isSound h.1, hruns.isLegible h.1.plain h.2⟩) hstart).1
  have hwrites : (onIncoming ctx c line).Yields fun l _ => Writes c line l :=
    onIncoming_writes hsound.plain hlegible fun _ htext => Line.not_mem_read (htext ▸ hread)
  -- A run that is under way is the beginning of one that ends.
  obtain ⟨l, r, hends, -⟩ := Goes.ends exists_answer p
  have hmem : ⟨.writeReply reply, result⟩ ∈ said τ ++ l :=
    List.mem_append_left l (mem_said.2 hreply)
  have hquotes := hwrites.of_goes (hrun.goes.trans hends) reply result hmem
  obtain ⟨body, hframe, hfeed, hreturn⟩ := Reply.encode_frame_line hquotes.feed hquotes.last
  exact ⟨body, hframe, hfeed, hreturn.trans hquotes.returns⟩

theorem writes_of_recite
    (h : (recite (onIncoming ctx c line) s).any (fun r => deeds (said r.1) == [.writes reply]) = true) :
    ∃ τ p s', Traced (onIncoming ctx c line, s) τ (p, s') ∧ .asked (.writeReply reply) (.ok ()) ∈ τ := by
  obtain ⟨⟨τ, r, s'⟩, hrecite, hdeeds⟩ := (Option.any_eq_true ..).1 h
  have hmem : .writes reply ∈ deeds (said τ) := by
    rw [beq_iff_eq] at hdeeds
    simp [hdeeds]
  exact ⟨τ, _, s', traced_of_recite hrecite, mem_said.1 (mem_of_writes hmem)⟩

def brokenName : List Line.Delivery := [.bytes (encode "USER a\rb\r\n")]

theorem read_brokenName : Line.read 1023 brokenName = some (.line "USER a\rb", []) := by
  decide +kernel

/-- Whoever is logged in already is told no more than that. -/
theorem replies_one_line_unless_named_to_a_guest :
    ∃ ts c s τ p s' body,
      Proceeds (usualContext "/") (.connect loopback, Scene.start Tree.bare {}) ts (c, s) .goOn ∧
      Traced (onIncoming (usualContext "/") c (.line "USER a\rb"), s) τ (p, s') ∧
      .asked (.writeReply ⟨503, "Already logged in."⟩) (.ok ()) ∈ τ ∧
      encode (Reply.frame ⟨503, "Already logged in."⟩) =
        body ++ [Line.carriageReturn, Line.lineFeed] ∧
      Line.carriageReturn ∉ body ∧ Line.lineFeed ∉ body := by
  have hplay : (takeTurns (usualContext "/") (.connect loopback, Scene.start Tree.bare {})
      [.line "USER anonymous", .line "PASS guest"]).any (fun (_, c, s) =>
        c.isLoggedIn && (recite (onIncoming (usualContext "/") c (.line "USER a\rb")) s).any
          fun r => deeds (said r.1) == [.writes ⟨503, "Already logged in."⟩]) = true := by
    decide +kernel
  obtain ⟨⟨ts, c, s⟩, hturns, htest⟩ := (Option.any_eq_true ..).1 hplay
  simp only [Bool.and_eq_true] at htest
  obtain ⟨hin, hwrites⟩ := htest
  have hreach := proceeds_of_takeTurns hturns
  obtain ⟨τ, p, s', hrun, hreply⟩ := writes_of_recite hwrites
  obtain ⟨body, hframe, hfeed, hreturn⟩ :=
    replies_one_line_unless_named hreach read_brokenName hrun hreply
  have hnot : ¬ NamesWithReturn c (.line "USER a\rb") := by
    rintro ⟨text, name, -, -, hout, -⟩
    rw [hin] at hout
    cases hout
  exact ⟨ts, c, s, τ, p, s', body, hreach, hrun, hreply, hframe, mt hreturn.1 hnot, hfeed⟩

/-- Whoever is not logged in is sent the carriage return back. -/
theorem name_repeated_with_its_return :
    ∃ τ p s',
      Proceeds (usualContext "/") (.connect loopback, Scene.start Tree.bare {}) []
        (.connect loopback, Scene.start Tree.bare {}) .goOn ∧
      Traced (onIncoming (usualContext "/") (.connect loopback) (.line "USER a\rb"),
        Scene.start Tree.bare {}) τ (p, s') ∧
      .asked (.writeReply ⟨501, "Invalid username: a\rb."⟩) (.ok ()) ∈ τ ∧
      (encode (Reply.frame ⟨501, "Invalid username: a\rb."⟩)).count Line.carriageReturn = 2 := by
  have hplay : (recite (onIncoming (usualContext "/") (.connect loopback)
      (.line "USER a\rb")) (Scene.start Tree.bare {})).any
        (fun r => deeds (said r.1) == [.writes ⟨501, "Invalid username: a\rb."⟩]) = true := by
    decide +kernel
  obtain ⟨τ, p, s', hrun, hreply⟩ := writes_of_recite hplay
  exact ⟨τ, p, s', .none _, hrun, hreply, by decide +kernel⟩

end Session

end FtpServer
