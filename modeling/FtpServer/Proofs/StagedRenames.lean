import FtpServer.Proofs.Refusals
import FtpServer.Proofs.Since
import FtpServer.Proofs.WorkingDirectory

/-!
# Staged renames

An `RNFR` that is answered with 250 stages its path, as it is resolved at that time, and only the
next `RNTO` can use it.  Every `RNFR` and every `RNTO` drops what was staged before, however it
goes; no other command does.
-/

namespace FtpServer

open Program Dialogue Outcome

def FileCall.SparesNames : FileCall → Prop
  | .rename _ _ => False
  | _ => True

def Request.SparesNames : Request → Prop
  | .file call => call.SparesNames
  | _ => True

theorem Request.SparesDirectories.sparesNames {q : Request} (h : q.SparesDirectories) :
    q.SparesNames := by
  cases q with
  | file call => cases call <;> trivial
  | _ => trivial

def Command.renames : Command → Bool
  | .rnfr _ | .rnto _ => true
  | _ => false

def Line.Incoming.command? : Line.Incoming → Option Command
  | .line text => (Command.parse text).toOption
  | .tooLong _ | .endOfStream => none

namespace Session

open Scene

variable {ctx : Context} {c c' : Client} {α : Type} {l l' : Transcript Request.Answer}
variable {root : String} {source : Path} {command : Command} {o : Outcome}

def call? (x : (q : Request) × q.Answer) : Option FileCall :=
  match x.1 with
  | .file call => some call
  | _ => none

def calls (l : Transcript Request.Answer) : List FileCall := l.filterMap call?

@[simp] theorem calls_nil : calls [] = [] := rfl

@[simp] theorem calls_append (l l' : Transcript Request.Answer) :
    calls (l ++ l') = calls l ++ calls l' := List.filterMap_append

theorem calls_files (l : Transcript FileCall.Answer) :
    calls (l.map fun x => ⟨.file x.1, x.2⟩) = l.map Sigma.fst := by
  induction l with
  | nil => rfl
  | cons x l ih => exact congrArg (x.1 :: ·) ih

theorem mem_calls {call : FileCall} : call ∈ calls l ↔ ∃ r, ⟨.file call, r⟩ ∈ l := by
  rw [calls, List.mem_filterMap]
  constructor
  · rintro ⟨⟨q, r⟩, hmem, hcall⟩
    cases q with
    | file call' => cases hcall; exact ⟨r, hmem⟩
    | _ => cases hcall
  · exact fun ⟨r, hmem⟩ => ⟨_, hmem, rfl⟩

theorem sparesNames_calls (h : ∀ x ∈ l, x.1.SparesNames) : ∀ call ∈ calls l, call.SparesNames := by
  intro call hmem
  obtain ⟨r, hmem⟩ := mem_calls.1 hmem
  exact h _ hmem

/-- The renaming of a staged path to a target, where neither is the root. -/
def dueRename (root : String) (source : Path) : Option Path → List FileCall
  | none => []
  | some target =>
    if source.isRoot || target.isRoot then []
    else [.rename (source.place root) (target.place root)]

theorem rename_calls (root : String) (source target : Path) :
    (ofFiles (Storage.rename root source target)).Yields fun l _ =>
      calls l = dueRename root source (some target) := by
  refine (yields_ofFiles _).2 ?_
  simp only [calls_files, dueRename]
  unfold Storage.rename
  split
  next => exact rfl
  next => exact Yields.question fun _ => rfl

/-- What a command calls on the host, and what it comes to, as far as renaming goes. -/
inductive Renames (root : String) (c : Client) : Command → List FileCall → Client × Outcome → Prop
  | elsewhere {command : Command} {called : List FileCall} {r : Client × Outcome}
      (hcommand : command.renames = false) (hcalled : ∀ call ∈ called, call.SparesNames)
      (hkept : r.1.renameSource = c.renameSource) : Renames root c command called r
  | barred {command : Command} (hcommand : command.renames = true) (hout : c.isLoggedIn = false) :
      Renames root c command [] (c, loginFirst)
  | staged {argument : String} {source : Path} {called : List FileCall} (text : String)
      (hsource : c.directory.resolve argument = some source)
      (hcalled : ∀ call ∈ called, call.SparesNames) :
      Renames root c (.rnfr argument) called
        (c.dropRename.stageRename source, .success Reply.fileActionOk text)
  | unstaged {argument : String} {called : List FileCall} {code : Nat} (text : String)
      (hcode : IsRefusalCode code) (hcalled : ∀ call ∈ called, call.SparesNames) :
      Renames root c (.rnfr argument) called (c.dropRename, .failure code text)
  | unprepared {argument : String} (hnone : c.renameSource = none) :
      Renames root c (.rnto argument) [] (c, .failure Reply.badSequence "RNFR required first.")
  | used {argument : String} {source : Path} {r : Client × Outcome} (hin : c.isLoggedIn = true)
      (hstaged : c.renameSource = some source) (hdropped : r.1.renameSource = none) :
      Renames root c (.rnto argument) (dueRename root source (c.directory.resolve argument)) r

section Elsewhere

/-- The step gives nothing another name, and what `c` has staged stays so. -/
abbrev KeepsStaged (c : Client) (step : Step) : Prop :=
  step.Keeps (fun _ _ => True) Request.SparesNames fun r => r.1.renameSource = c.renameSource

def KeepsRenameSource (c c' : Client) : Prop := c'.IsPlain ∧ c'.renameSource = c.renameSource

theorem KeepsRenameSource.withMode (h : KeepsRenameSource c c') (mode : DataMode) :
    KeepsRenameSource c (c'.withMode mode) :=
  ⟨h.1.withMode mode, h.2⟩

variable {step : Step}

theorem keepsStaged_of_onlyInternal
    (h : OnlyInternal (fun _ _ => True) (AnswersKeeping (KeepsRenameSource c)) step) :
    KeepsStaged c step :=
  (h.weaken (fun _ _ hr => hr) fun q hq => by cases q <;> trivial).mono fun _ hr => hr.1.2

theorem Works.sparesNames {post : α → Prop} {p : Dialogue α} (h : Works (fun _ _ => True) post p) :
    p.Keeps (fun _ _ => True) Request.SparesNames post :=
  h.weaken (fun _ _ hr => hr) fun q hq => by cases q <;> trivial

theorem keepsStaged_of_works (h : Works (fun _ _ => True) (fun r => KeepsRenameSource c r.1) step) :
    KeepsStaged c step := (Works.sparesNames h).mono fun _ hr => hr.2

theorem keepsStaged_of_onlyFileCalls {root : String} {post : Client × Outcome → Prop}
    (h : OnlyFileCalls (fun _ _ => True) root post step)
    (hspares : step.Asks Request.SparesDirectories)
    (hpost : ∀ r, post r → r.1.renameSource = c.renameSource) : KeepsStaged c step :=
  ((h.and_asks hspares).weaken (fun q _ _ => by cases q <;> trivial) fun _ hq =>
    hq.2.sparesNames).mono hpost

theorem refuseStorage_keepsStaged (verb : String) (e : StorageError) (code : Nat) :
    KeepsStaged c (refuseStorage c verb e code) := Keeps.question trivial fun _ _ => rfl

theorem holds_sparesNames (p : Place) (test : Kind → Bool) :
    (Files.holds p test).Keeps (fun _ _ => True) FileCall.SparesNames fun _ => True :=
  Keeps.question trivial fun r _ => by cases r <;> trivial

theorem onCwd_keepsStaged (ctx : Context) (c : Client) (argument : String) :
    KeepsStaged c (onCwd ctx c argument) := by
  have hlooks : (Storage.enter ctx.root c.directory argument).Keeps (fun _ _ => True)
      FileCall.SparesNames fun _ => True := by
    unfold Storage.enter
    split
    next => trivial
    next =>
      refine (holds_sparesNames _ _).bind fun found _ => ?_
      split <;> trivial
  refine ((keeps_ofFiles _).2 hlooks).bind fun result _ => ?_
  cases result with
  | ok path => exact Keeps.question trivial fun _ _ => rfl
  | error e => exact Keeps.question trivial fun _ _ => rfl

theorem onRmd_keepsStaged (ctx : Context) (c : Client) (argument : String) :
    KeepsStaged c (onRmd ctx c argument) := by
  unfold onRmd Storage.removeDirectory
  split
  next => exact refuseStorage_keepsStaged _ _ _
  next =>
    split
    next => exact refuseStorage_keepsStaged _ _ _
    next =>
      refine Keeps.question trivial fun (result : Except OsError Unit) _ => ?_
      cases result with
      | ok => exact Keeps.question trivial fun _ _ => rfl
      | error e => exact refuseStorage_keepsStaged _ _ _

theorem withData_keepsStaged (hc : c.IsPlain) {root : String} {opener : Client → Step}
    (hopens : Opens (fun _ _ => True) root opener)
    (hspares : ∀ c, (opener c).Asks Request.SparesDirectories) :
    KeepsStaged c (withData c opener) := by
  have hstages : KeepsRenameSource c c := ⟨hc, rfl⟩
  have hreaps : Works (fun _ _ => True) (KeepsRenameSource c) (reapWorker c) :=
    reapWorker_works hstages (hstages.withMode .none)
  refine (Works.sparesNames hreaps).bind fun c' hc' => ?_
  refine Keeps.question trivial fun inProgress _ => ?_
  split
  next => exact Keeps.question trivial fun _ _ => hc'.2
  next =>
    split
    next => exact hc'.2
    next => exact keepsStaged_of_onlyFileCalls (hopens c' hc'.1) (hspares c') fun r hr => hr.1 ▸ hc'.2

theorem dispatch_keepsStaged (ctx : Context) (hc : c.IsPlain) (hcommand : command.renames = false) :
    KeepsStaged c (dispatch ctx c command) := by
  have hstages : KeepsRenameSource c c := ⟨hc, rfl⟩
  have hmode : ∀ {c'} mode, KeepsRenameSource c c' → KeepsRenameSource c (c'.withMode mode) :=
    fun mode h => h.withMode mode
  cases command with
  | user name =>
    exact keepsStaged_of_onlyInternal
      (onUser_onlyInternal hstages (fun name => ⟨hc.beginLogin name, rfl⟩) name)
  | pass password =>
    exact keepsStaged_of_onlyInternal (onPass_onlyInternal hstages
      (fun identity => ⟨hc.completeLogin identity, rfl⟩) ⟨hc.resetLogin, rfl⟩ password)
  | port argument =>
    exact keepsStaged_of_works ((onPort_works hmode hstages argument).mono fun _ hr => hr.1)
  | pasv => exact keepsStaged_of_works ((onPasv_works hmode hstages ctx).mono fun _ hr => hr.1)
  | abor => exact keepsStaged_of_works (onAbor_works hmode hstages)
  | quit => exact keepsStaged_of_works (onQuit_works hmode hstages)
  | cwd argument => exact onCwd_keepsStaged ctx c argument
  | cdup => exact onCwd_keepsStaged ctx c ".."
  | mkd argument =>
    exact keepsStaged_of_onlyFileCalls
      (onMkd_onlyFileCalls hc (Φ := KeepsRenameSource c) hstages argument)
      (onMkd_spares ctx c argument) fun _ hr => hr.1.2
  | rmd argument => exact onRmd_keepsStaged ctx c argument
  | dele argument =>
    exact keepsStaged_of_onlyFileCalls
      (onDele_onlyFileCalls hc (Φ := KeepsRenameSource c) hstages argument)
      (onDele_spares ctx c argument) fun _ hr => hr.1.2
  | rnfr | rnto => cases hcommand
  | list argument =>
    exact withData_keepsStaged hc (beginList_opens ctx argument) (beginList_spares ctx argument)
  | retr argument =>
    exact withData_keepsStaged hc (beginRetr_opens ctx argument) (beginRetr_spares ctx argument)
  | stor argument =>
    exact withData_keepsStaged hc (beginStor_opens ctx argument) (beginStor_spares ctx argument)
  | syst | noop | pwd | type | unknown => exact rfl

end Elsewhere

theorem refuseStorage_calls (verb : String) (e : StorageError) (code : Nat) :
    (refuseStorage c verb e code).Yields fun l r =>
      calls l = [] ∧ r = (c, .failure code e.replyText) := Yields.question fun _ => ⟨rfl, rfl⟩

theorem unstage_calls (c : Client) :
    (unstage c).Yields fun l c' => calls l = [] ∧ c' = c.dropRename := by
  unfold unstage
  split
  next => exact Yields.question fun _ => ⟨rfl, rfl⟩
  next => exact ⟨rfl, rfl⟩

theorem renames_after {step : Step} {l : Transcript Request.Answer} (hl : calls l = [])
    (h : step.Yields fun l' r => Renames root c command (calls l') r) :
    step.Yields fun l' r => Renames root c command (calls (l ++ l')) r :=
  h.mono fun l' r h => by rwa [calls_append, hl]

theorem onRnfr_renames (ctx : Context) (c : Client) (argument : String) :
    (onRnfr ctx c argument).Yields fun l r => Renames ctx.root c (.rnfr argument) (calls l) r := by
  have hrefused : ∀ {l : Transcript Request.Answer} (e : StorageError),
      (∀ call ∈ calls l, call.SparesNames) → (refuse c.dropRename "RNFR" e).Yields fun l' r =>
        Renames ctx.root c (.rnfr argument) (calls (l ++ l')) r := by
    intro l e hl
    refine (refuseStorage_calls "RNFR" e e.code).mono fun l' r hr => ?_
    obtain ⟨hl', rfl⟩ := hr
    rw [calls_append, hl', List.append_nil]
    exact .unstaged _ (by simp [IsRefusalCode, StorageError.code]) hl
  refine (unstage_calls c).bind fun l₀ _ hl₀ => ?_
  obtain ⟨hl₀, rfl⟩ := hl₀
  refine renames_after hl₀ ?_
  split
  next => exact hrefused (l := []) _ (by simp)
  next path hpath =>
    split
    next => exact hrefused (l := []) _ (by simp)
    next =>
      have hlooks : (ofFiles (Files.holds (path.place ctx.root) Storage.isAnything)).Yields
          fun l _ => ∀ call ∈ calls l, call.SparesNames :=
        ((keeps_ofFiles _).2 (holds_sparesNames _ _)).yields.mono fun l _ hl =>
          sparesNames_calls hl.1
      refine hlooks.bind fun l found hl => ?_
      split
      next =>
        show Renames ctx.root c (.rnfr argument) (calls (l ++ [])) _
        rw [List.append_nil]
        exact .staged _ hpath hl
      next => exact hrefused _ hl

theorem onRnto_renames (ctx : Context) (hin : c.isLoggedIn = true) (argument : String) :
    (onRnto ctx c argument).Yields fun l r => Renames ctx.root c (.rnto argument) (calls l) r := by
  unfold onRnto
  split
  next hnone => exact .unprepared hnone
  next source hsource =>
    have hused {l : Transcript Request.Answer} {r : Client × Outcome}
        (hl : calls l = dueRename ctx.root source (c.directory.resolve argument))
        (hr : r.1.renameSource = none) : Renames ctx.root c (.rnto argument) (calls l) r := by
      rw [hl]
      exact .used hin hsource hr
    dsimp only
    split
    next hnone =>
      refine (refuseStorage_calls "RNTO" _ _).mono fun l r hr => ?_
      obtain ⟨hl, rfl⟩ := hr
      have hnone : c.directory.resolve argument = none := hnone
      exact hused (by rw [hl, hnone]; rfl) rfl
    next target htarget =>
      have htarget : c.directory.resolve argument = some target := htarget
      refine (rename_calls ctx.root source target).bind fun l result hl => ?_
      rw [← htarget] at hl
      cases result with
      | ok =>
        refine Yields.question fun _ => hused ?_ rfl
        rw [calls_append, hl]
        exact List.append_nil _
      | error e =>
        refine (refuseStorage_calls "RNTO" _ _).mono fun l' r hr => ?_
        obtain ⟨hl', rfl⟩ := hr
        exact hused (by rw [calls_append, hl', List.append_nil, hl]) rfl

theorem handle_renames (ctx : Context) (hc : c.IsPlain) (command : Command) :
    (handle ctx c command).Yields fun l r => Renames ctx.root c command (calls l) r := by
  cases hcommand : command.renames with
  | false =>
    have hkeeps : KeepsStaged c (handle ctx c command) := by
      unfold handle
      split
      next => exact rfl
      next => exact dispatch_keepsStaged ctx hc hcommand
    exact hkeeps.yields.mono fun l r hr => .elsewhere hcommand (sparesNames_calls hr.1) hr.2
  | true =>
    unfold handle
    split
    next hgate =>
      have hout : command.requiresLogin = true ∧ c.isLoggedIn = false := by simpa using hgate
      exact .barred hcommand hout.2
    next hgate =>
      cases command with
      | rnfr argument => exact onRnfr_renames ctx c argument
      | rnto argument =>
        have hin : c.isLoggedIn = true := by simpa [Command.requiresLogin] using hgate
        exact onRnto_renames ctx hin argument
      | _ => cases hcommand

theorem perform_renames (ctx : Context) (hc : c.IsPlain) (command : Command) :
    (perform ctx c command).Yields fun l r => Renames ctx.root c command (calls l) r :=
  Yields.question fun _ => handle_renames ctx hc command

/-- What is staged after a command was staged by it, or was staged before and left alone. -/
theorem Renames.renameSource {called : List FileCall} {r : Client × Outcome}
    (h : Renames root c command called r) (hout : c.isLoggedIn = false → c.renameSource = none)
    (source : Path) : r.1.renameSource = some source ↔
      (∃ argument text, command = .rnfr argument ∧ r.2.reply = some ⟨250, text⟩ ∧
        c.directory.resolve argument = some source) ∨
      c.renameSource = some source ∧ command.renames = false := by
  cases h with
  | elsewhere hcommand _ hkept =>
    have hnot (argument : String) : command ≠ .rnfr argument := by
      rintro rfl
      cases hcommand
    simp [hkept, hcommand, hnot]
  | barred hcommand hlogin =>
    simp [hout hlogin, hcommand, loginFirst, Outcome.failure]
  | staged text hsource =>
    simp [hsource, Client.stageRename, Command.renames, Outcome.success]
  | @unstaged _ _ code text hcode =>
    have hne : code ≠ 250 := by
      rintro rfl
      exact absurd hcode (by decide)
    simp [Client.dropRename, Command.renames, Outcome.failure, hne]
  | unprepared hnone => simp [hnone, Command.renames]
  | used _ _ hdropped => simp [hdropped, Command.renames]

/-- What others see of an outcome when nothing fails. -/
def heralds (o : Outcome) : List Deed :=
  (o.reply.map .writes).toList ++ (o.transfer.map .hands).toList

theorem Delivered.deeds {onward : Onward} (h : Delivered c command o l onward) :
    Session.deeds l <+: heralds o ∧ (onward = .goOn → Session.deeds l = heralds o) := by
  have hall {l : Transcript Request.Answer} (hl : Session.deeds l = heralds o) :
      Session.deeds l <+: heralds o ∧ (onward = .goOn → Session.deeds l = heralds o) :=
    ⟨hl ▸ List.prefix_rfl, fun _ => hl⟩
  cases h with
  | silent hreply => exact hall (by simp [heralds, hreply, deeds_handing])
  | sent hreply => exact hall (by rw [heralds, hreply, ← deeds_handing c command]; rfl)
  | failed => exact ⟨List.nil_prefix, fun h => by cases h⟩

theorem Delivered.calls {onward : Onward} (h : Delivered c command o l onward) :
    Session.calls l = [] := by
  have hhanding : Session.calls (handing c command o) = [] := by
    unfold handing concluding
    split <;> split <;> rfl
  cases h with
  | silent => exact hhanding
  | sent => exact hhanding
  | failed => rfl

/-- What a line has to do with renaming. -/
inductive Treats (root : String) (c : Client) (line : Line.Incoming) :
    Transcript Request.Answer → Client × Onward → Prop
  | remarked {l : Transcript Request.Answer} {onward : Onward} (hline : line.command? = none)
      (hcalls : calls l = []) : Treats root c line l (c, onward)
  | performed {l : Transcript Request.Answer} {command : Command} {c' : Client} {o : Outcome}
      {onward : Onward} (hline : line.command? = some command)
      (hrenames : Renames root c command (calls l) (c', o)) (hdeeds : deeds l <+: heralds o)
      (hall : onward = .goOn → deeds l = heralds o) : Treats root c line l (c', onward)

theorem onCommand_treats (ctx : Context) (hc : c.IsPlain) {line : Line.Incoming}
    (hline : line.command? = some command) :
    (onCommand ctx c command).Yields (Treats ctx.root c line) := by
  have hinner := (perform_precedesReply ctx hc command).yields
  refine onCommand_yields ((perform_renames ctx hc command).and hinner)
    fun l l' c' o onward hl hdelivered => ?_
  obtain ⟨hrenames, hinner, -⟩ := hl
  have htold : deeds (l ++ l') = deeds l' := by
    rw [deeds_append, deeds_inner hinner, List.nil_append]
  have hcalled : calls (l ++ l') = calls l := by
    rw [calls_append, hdelivered.calls, List.append_nil]
  obtain ⟨hdeeds, hall⟩ := hdelivered.deeds
  exact .performed hline (hcalled ▸ hrenames) (htold ▸ hdeeds) (htold ▸ hall)

theorem remark_treats {line : Line.Incoming} (record : Record) (reply : Reply)
    (hline : line.command? = none) :
    (do note record; return (c, ← sendOrStop reply) : Dialogue (Client × Onward)).Yields
      (Treats root c line) :=
  remark_yields (fun _ => .remarked hline rfl) (.remarked hline rfl)

theorem onIncoming_treats (ctx : Context) (hc : c.IsPlain) (line : Line.Incoming) :
    (onIncoming ctx c line).Yields (Treats ctx.root c line) := by
  unfold onIncoming
  split
  next => exact Yields.question fun _ => .remarked rfl rfl
  next => exact remark_treats _ _ rfl
  next text =>
    split
    next command hparse =>
      exact onCommand_treats ctx hc (by rw [Line.Incoming.command?, hparse]; rfl)
    next e hparse => exact remark_treats _ _ (by rw [Line.Incoming.command?, hparse]; rfl)

def unprepared : Deed := .writes ⟨503, "RNFR required first."⟩

namespace Treats

variable {line : Line.Incoming} {r : Client × Onward} {argument : String}

theorem of_rename (h : Treats root c line l r) {a b : Place} (hmem : .rename a b ∈ calls l) :
    ∃ argument source target, line.command? = some (.rnto argument) ∧ c.isLoggedIn = true ∧
      c.renameSource = some source ∧ c.directory.resolve argument = some target ∧
      source.isRoot = false ∧ target.isRoot = false ∧
      calls l = [.rename (source.place root) (target.place root)] := by
  cases h with
  | remarked _ hcalls => simp [hcalls] at hmem
  | performed hline hrenames =>
    generalize hcalled : calls l = called at hrenames hmem
    cases hrenames with
    | elsewhere _ hcalled | staged _ _ hcalled | unstaged _ _ hcalled => exact (hcalled _ hmem).elim
    | barred | unprepared => cases hmem
    | @used argument source _ hin hstaged =>
      cases htarget : c.directory.resolve argument with
      | none => simp [htarget, dueRename] at hmem
      | some target =>
        by_cases hroot : source.isRoot = true ∨ target.isRoot = true
        · simp [htarget, dueRename, hroot] at hmem
        · obtain ⟨hsource, htargetRoot⟩ : source.isRoot = false ∧ target.isRoot = false := by
            simpa using hroot
          exact ⟨argument, source, target, hline, hin, hstaged, htarget, hsource, htargetRoot,
            by simp [dueRename, hsource, htargetRoot]⟩

theorem of_unprepared (h : Treats root c line l r) (hline : line.command? = some (.rnto argument))
    (hin : c.isLoggedIn = true) (hnone : c.renameSource = none) :
    calls l = [] ∧ deeds l <+: [unprepared] ∧ (r.2 = .goOn → deeds l = [unprepared]) := by
  cases h with
  | remarked hnot => simp [hnot] at hline
  | performed hcommand hrenames hdeeds hall =>
    obtain rfl := Option.some.inj (hcommand.symm.trans hline)
    generalize calls l = called at hrenames
    cases hrenames with
    | elsewhere hcommand => cases hcommand
    | barred _ hout => simp [hin] at hout
    | unprepared => exact ⟨rfl, hdeeds, hall⟩
    | used _ hstaged => simp [hnone] at hstaged

theorem of_staged (h : Treats root c line l r) (hline : line.command? = some (.rnto argument))
    (hin : c.isLoggedIn = true) (hstaged : c.renameSource = some source) :
    calls l = dueRename root source (c.directory.resolve argument) ∧ r.1.renameSource = none := by
  cases h with
  | remarked hnot => simp [hnot] at hline
  | performed hcommand hrenames =>
    obtain rfl := Option.some.inj (hcommand.symm.trans hline)
    generalize calls l = called at hrenames
    cases hrenames with
    | elsewhere hcommand => cases hcommand
    | barred _ hout => simp [hin] at hout
    | unprepared hnone => simp [hnone] at hstaged
    | used _ hstaged' hdropped =>
      obtain rfl := Option.some.inj (hstaged.symm.trans hstaged')
      exact ⟨rfl, hdropped⟩

end Treats

theorem writes_mem_heralds {reply : Reply} : .writes reply ∈ heralds o ↔ o.reply = some reply := by
  simp [heralds]

namespace Turn

/-- An `RNFR` that is answered with 250, and the path that it named from the working directory of
that time. -/
def Stages (t : Turn) (source : Path) : Prop :=
  ∃ argument text, t.line.command? = some (.rnfr argument) ∧
    .writes ⟨250, text⟩ ∈ deeds t.transcript ∧ t.before.1.directory.resolve argument = some source

def Restages (t : Turn) : Prop := ∃ command, t.line.command? = some command ∧ command.renames = true

def IsRnto (t : Turn) : Prop := ∃ argument, t.line.command? = some (.rnto argument)

variable {t : Turn}

theorem IsRnto.restages (h : t.IsRnto) : t.Restages := by
  obtain ⟨argument, hline⟩ := h
  exact ⟨_, hline, rfl⟩

theorem IsRnto.not_stages (h : t.IsRnto) (source : Path) : ¬ t.Stages source := by
  rintro ⟨argument, text, hline, -⟩
  obtain ⟨argument', hline'⟩ := h
  cases hline.symm.trans hline'

/-- What is staged after a turn was staged by it, or was staged before and left alone. -/
theorem Runs.renameSource (hruns : t.Runs ctx) (hgo : t.onward = .goOn) (hc : t.before.1.IsSound)
    (source : Path) : t.after.1.renameSource = some source ↔
      t.Stages source ∨ t.before.1.renameSource = some source ∧ ¬ t.Restages := by
  have htreats : Treats ctx.root t.before.1 t.line t.transcript (t.after.1, t.onward) :=
    (onIncoming_treats ctx hc.plain t.line).of_goes hruns.goes
  generalize hr : (t.after.1, t.onward) = r at htreats
  cases htreats with
  | remarked hline =>
    obtain ⟨hclient, -⟩ := Prod.mk.inj hr
    simp [hclient, Stages, Restages, hline]
  | performed hline hrenames _ hall =>
    obtain ⟨rfl, rfl⟩ := Prod.mk.inj hr
    simp [hrenames.renameSource hc.staged source, Stages, Restages, hline, hall hgo,
      writes_mem_heralds]

end Turn

/-- The last `RNFR` or `RNTO` of the turns is an `RNFR` that staged this path. -/
def Staged (ts : List Turn) (source : Path) : Prop := Since (·.Stages source) Turn.Restages ts

@[simp] theorem not_staged_nil : ¬ Staged [] source := not_since_nil

theorem staged_snoc {ts : List Turn} {t : Turn} :
    Staged (ts ++ [t]) source ↔ t.Stages source ∨ Staged ts source ∧ ¬ t.Restages := since_snoc

theorem Staged.after {before after : List Turn} {t : Turn}
    (h : Staged (before ++ t :: after) source) (ht : t.IsRnto) : Staged after source :=
  Since.after h (ht.not_stages source) ht.restages

theorem Proceeds.staged {a b : Client × Scene} {ts past : List Turn} {onward : Onward}
    (h : Proceeds ctx a ts b onward) (hgo : onward = .goOn) (ha : a.1.IsSound)
    (hpast : ∀ source, a.1.renameSource = some source ↔ Staged past source) (source : Path) :
    b.1.renameSource = some source ↔ Staged (past ++ ts) source := by
  induction h generalizing past with
  | none a => simpa using hpast source
  | last => cases hgo
  | @more t ts b onward hruns hgo' hrest ih =>
    rw [List.append_cons]
    refine ih hgo (hruns.isSound ha) fun source => ?_
    rw [hruns.renameSource hgo' ha, staged_snoc, hpast]

theorem Proceeds.staged_of_connect {address : Socket} {s₀ s : Scene} {ts : List Turn}
    (h : Proceeds ctx (.connect address, s₀) ts (c, s) .goOn) (source : Path) :
    c.renameSource = some source ↔ Staged ts source := by
  have hnone (source : Path) : (Client.connect address).renameSource = some source ↔
      Staged [] source := by simp [Client.connect]
  exact h.staged rfl (Client.connect_isSound address) hnone source

section Runs

variable {line : Line.Incoming} {s s' : Scene} {τ : List Event} {p : Dialogue (Client × Onward)}

theorem prefix_calls_append (l l' : Transcript Request.Answer) : calls l <+: calls (l ++ l') := by
  rw [calls_append]
  exact List.prefix_append _ _

/-- A session that calls nothing on the host leaves the tree to the workers. -/
theorem eachAnswer_of_no_calls {a : Dialogue α × Scene} (h : calls (said τ) = []) :
    EachAnswer a τ fun s s' => s'.shared.tree = s.shared.tree := by
  intro τ₁ q r τ₂ b s' hτ _ hanswer
  refine (frame_of_perform hanswer).2 fun call hq => ?_
  subst hq
  have hmem : call ∈ calls (said τ) := mem_calls.2 ⟨r, mem_said.2 (by rw [hτ]; simp)⟩
  simp [h] at hmem

/-- Only `RNTO` renames: what the last `RNFR` staged, to what its own argument names from the
working directory, and neither is ever the root.  An earlier `RNTO` cannot have used the same path,
for the `RNFR` came after it.  Where the last `RNFR` or `RNTO` before it staged nothing, an `RNTO`
is answered with 503 and calls nothing on the host.  Otherwise, once it has come to its end, it has
asked for that rename alone, unless its argument is no path or the root is concerned, and nothing is
staged any more. -/
theorem renames_what_was_staged {address : Socket} {s₀ : Scene} {ts : List Turn}
    (hreach : Proceeds ctx (.connect address, s₀) ts (c, s) .goOn)
    (hrun : Traced (onIncoming ctx c line, s) τ (p, s')) :
    (∀ a b, .rename a b ∈ calls (said τ) → ∃ argument source target,
      line.command? = some (.rnto argument) ∧ c.isLoggedIn = true ∧
      Staged ts source ∧ c.directory.resolve argument = some target ∧
      source.isRoot = false ∧ target.isRoot = false ∧
      calls (said τ) = [.rename (source.place ctx.root) (target.place ctx.root)] ∧
      ∀ before t after, ts = before ++ t :: after → t.IsRnto → Staged after source) ∧
    (∀ argument, line.command? = some (.rnto argument) → c.isLoggedIn = true →
      (∀ source, ¬ Staged ts source) →
      calls (said τ) = [] ∧
      EachAnswer (onIncoming ctx c line, s) τ (fun s s' => s'.shared.tree = s.shared.tree) ∧
      deeds (said τ) <+: [unprepared] ∧
      ∀ c', p = .done (c', .goOn) → deeds (said τ) = [unprepared]) ∧
    (∀ argument source c' onward, line.command? = some (.rnto argument) → Staged ts source →
      p = .done (c', onward) →
      calls (said τ) = dueRename ctx.root source (c.directory.resolve argument) ∧
      c'.renameSource = none) := by
  have hsound := (hreach.isSound (Client.connect_isSound address)).1
  have hstaged := hreach.staged_of_connect
  have htreats {l : Transcript Request.Answer} {r : Client × Onward}
      (h : (onIncoming ctx c line).Goes l (.done r)) : Treats ctx.root c line l r :=
    (onIncoming_treats ctx hsound.plain line).of_goes h
  -- What has begun can end, and what it shows by then begins with what it shows now.
  obtain ⟨l, r, hends, -⟩ := Goes.ends exists_answer p
  have hends := htreats (hrun.goes.trans hends)
  refine ⟨fun a b hmem => ?_, fun argument hline hin hnot => ?_,
    fun argument source c' onward hline hsource hdone => ?_⟩
  · obtain ⟨argument, source, target, hline, hin, hsource, htarget, hne, hne', hcalls⟩ :=
      hends.of_rename ((prefix_calls_append _ l).subset hmem)
    have hsource := (hstaged source).1 hsource
    refine ⟨argument, source, target, hline, hin, hsource, htarget, hne, hne', ?_, ?_⟩
    · rcases List.prefix_cons_iff.1 (hcalls ▸ prefix_calls_append (said τ) l) with
        hnil | ⟨rest, hall, hrest⟩
      · simp [hnil] at hmem
      · rw [hall, List.prefix_nil.1 hrest]
    · rintro before t after rfl hrnto
      exact hsource.after hrnto
  · have hnone : c.renameSource = none :=
      Option.eq_none_iff_forall_ne_some.2 fun source hsource =>
        hnot source ((hstaged source).1 hsource)
    obtain ⟨hcalls, hdeeds, -⟩ := hends.of_unprepared hline hin hnone
    have hcalls : calls (said τ) = [] := List.prefix_nil.1 (hcalls ▸ prefix_calls_append _ l)
    have hbegun := deeds_prefix (said τ) l
    refine ⟨hcalls, eachAnswer_of_no_calls hcalls, hbegun.trans hdeeds, ?_⟩
    rintro c' rfl
    exact ((htreats hrun.goes).of_unprepared hline hin hnone).2.2 rfl
  · subst hdone
    have hsource := (hstaged source).2 hsource
    have hin : c.isLoggedIn = true := by
      cases hlogin : c.isLoggedIn with
      | true => rfl
      | false =>
        rw [hsound.staged hlogin] at hsource
        cases hsource
    exact (htreats hrun.goes).of_staged hline hin hsource

def movingClient : List Line.Incoming :=
  [.line "USER anonymous", .line "PASS guest", .line "MKD old", .line "MKD in", .line "RNFR old",
    .line "CWD in", .line "DELE none"]

/-- The source is named from the directory of the `RNFR`, the target from that of the `RNTO`. -/
theorem renames_what_was_staged_elsewhere :
    ∃ ts c s τ c' s', Proceeds (usualContext "/") (.connect loopback, Scene.start Tree.bare {}) ts
        (c, s) .goOn ∧
      Traced (onIncoming (usualContext "/") c (.line "RNTO new"), s) τ (.done (c', .goOn), s') ∧
      Staged ts ⟨["old"]⟩ ∧
      calls (said τ) = [.rename ⟨"/", ["old"]⟩ ⟨"/", ["in", "new"]⟩] ∧ c'.renameSource = none := by
  have hplay : (takeTurns (usualContext "/") (.connect loopback, Scene.start Tree.bare {})
      movingClient).any (fun (_, c, s) =>
        (recite (onIncoming (usualContext "/") c (.line "RNTO new")) s).any
          fun (τ, (_, onward), _) =>
            calls (said τ) == [.rename ⟨"/", ["old"]⟩ ⟨"/", ["in", "new"]⟩] &&
              onward == .goOn) = true := by
    decide +kernel
  obtain ⟨⟨ts, c, s⟩, hturns, hplay⟩ := (Option.any_eq_true ..).1 hplay
  obtain ⟨⟨τ, ⟨c', onward⟩, s'⟩, hrecite, htest⟩ := (Option.any_eq_true ..).1 hplay
  simp only [Bool.and_eq_true, beq_iff_eq] at htest
  obtain ⟨hcalls, rfl⟩ := htest
  have hreach := proceeds_of_takeTurns hturns
  have hrun := traced_of_recite hrecite
  have hline : (Line.Incoming.line "RNTO new").command? = some (.rnto "new") := by decide +kernel
  obtain ⟨hrenames, -, hprepared⟩ := renames_what_was_staged hreach hrun
  obtain ⟨_, source, target, -, -, hstaged, -, -, -, hall, -⟩ :=
    hrenames _ _ (hcalls ▸ List.mem_singleton_self _)
  obtain rfl : source = ⟨["old"]⟩ := by
    obtain ⟨hplace, -⟩ := FileCall.rename.inj (List.singleton_inj.1 (hcalls.symm.trans hall))
    exact congrArg Path.mk (Place.mk.inj hplace).2.symm
  obtain ⟨-, hdropped⟩ := hprepared _ _ _ _ hline hstaged rfl
  exact ⟨ts, c, s, τ, c', s', hreach, hrun, hstaged, hcalls, hdropped⟩

end Runs

end Session

end FtpServer
