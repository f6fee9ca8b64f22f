import FtpServer.Proofs.DispatchCases
import FtpServer.Proofs.Login
import FtpServer.Proofs.Transcript

/-!
# What commands come to

A command is ignored, refused, or it succeeds.  Whoever is refused has asked in vain: the answers that
the session was given say that nothing was changed by asking, save that a worker which had left the
slot may have been forgotten.
-/

namespace FtpServer

open Program Dialogue Outcome

/-- The answer says that the call has changed nothing. -/
def FileCall.IsVain : (call : FileCall) → call.Answer → Prop
  | .makeDirectory _, .ok _ | .removeDirectory _, .ok _ | .removeFile _, .ok _
  | .rename _ _, .ok _ | .openSink _, .ok _ => False
  | _, _ => True

/-- The answer says that the question has changed neither the host's files nor the slot, nor who
serves it. -/
def Request.IsVain : (q : Request) → q.Answer → Prop
  | .file call, r => call.IsVain r
  | .letGoWorker, _ | .joinWorker _, _ | .startWorker _, _ | .install _, _ | .cancel, _
  | .finish, _ | .rearm, _ => False
  | _, _ => True

abbrev Vain (l : Transcript Request.Answer) : Prop := ∀ x ∈ l, x.1.IsVain x.2

theorem vain_nil : Vain [] := fun _ hx => absurd hx List.not_mem_nil

theorem vain_append {l l' : Transcript Request.Answer} (h : Vain l) (h' : Vain l') :
    Vain (l ++ l') := List.forall_mem_append.2 ⟨h, h'⟩

theorem vain_singleton {q : Request} {r : q.Answer} (h : q.IsVain r) : Vain [⟨q, r⟩] := by
  intro x hx
  obtain rfl := List.mem_singleton.1 hx
  exact h

theorem vain_note (record : Record) (r : (Request.note record).Answer) :
    Vain [⟨.note record, r⟩] := vain_singleton trivial

def IsRefusalCode (code : Nat) : Prop := 400 ≤ code ∧ code < 600

instance (code : Nat) : Decidable (IsRefusalCode code) := inferInstanceAs (Decidable (_ ∧ _))

/-- What a refusal leaves of a client: a login, a staged rename and a data connection may be lost. -/
def Client.refused (c : Client) (command : Command) (code : Nat) : Client :=
  match command with
  | .pass _ => if code = 501 ∨ code = 530 then c.resetLogin else c
  | .rnfr _ | .rnto _ => c.dropRename
  | .pasv => if code = 421 then c.withMode .none else c
  | _ => c

namespace Session

variable {ctx : Context} {c c' : Client} {l l' : Transcript Request.Answer} {α β ε : Type}
variable {r : Client × Outcome} {law : Nat → Client}

inductive Reaped (c : Client) : Transcript Request.Answer → Client → Prop
  | nobody : Reaped c [⟨.holdsWorker, false⟩] c
  | serving : Reaped c [⟨.holdsWorker, true⟩, ⟨.isArmed, true⟩] c
  | forgotten (number : Option Nat) :
      Reaped c [⟨.holdsWorker, true⟩, ⟨.isArmed, false⟩, ⟨.letGoWorker, number⟩]
        (c.withMode .none)

inductive Stopped : Transcript Request.Answer → Prop
  | nobody : Stopped [⟨.letGoWorker, none⟩]
  | somebody (number : Nat) : Stopped
      [⟨.letGoWorker, some number⟩, ⟨.cancel, ()⟩, ⟨.joinWorker number, ()⟩, ⟨.finish, ()⟩]

/-- The session has asked in vain, but for a worker that it found to have left the slot. -/
inductive Unmoved (c : Client) : Transcript Request.Answer → Client → Prop
  | kept {l : Transcript Request.Answer} (h : Vain l) : Unmoved c l c
  | forgotten {l l' : Transcript Request.Answer} {number : Option Nat} (h : Vain l) (h' : Vain l') :
      Unmoved c (l ++ ⟨.isArmed, false⟩ :: ⟨.letGoWorker, number⟩ :: l') (c.withMode .none)

/-- What a command comes to, and what was asked for that. -/
inductive Handled (c : Client) (command : Command) :
    Transcript Request.Answer → Client × Outcome → Prop
  | ignored {l : Transcript Request.Answer} {c' : Client} (hopens : command.opensTransfer = true)
      (hreaped : Reaped c l c') : Handled c command
        (l ++ [⟨.isInProgress, true⟩, ⟨.note (.transferIgnored c'.address), ()⟩]) (c', .ignored)
  | refused {l : Transcript Request.Answer} {c' : Client} {code : Nat} (text : String)
      (hcode : IsRefusalCode code) (hnot : code ≠ 421)
      (hgate : command.opensTransfer = true → ⟨.isInProgress, true⟩ ∉ l)
      (hunmoved : Unmoved (c.refused command code) l c') :
      Handled c command l (c', .failure code text)
  | torn {l l₁ l₂ : Transcript Request.Answer} {c' : Client} {code : Nat} (text : String)
      (hcommand : command = .pasv) (hcode : code = 421) (hreaped : Reaped c l c')
      (hstopped : Stopped l₁) (hvain : Vain l₂) :
      Handled c command (l ++ ⟨.isInProgress, false⟩ :: (l₁ ++ l₂))
        (c'.withMode .none, .close code text)
  | left {l : Transcript Request.Answer} {c' : Client} (text : String) (hcommand : command = .quit) :
      Handled c command l (c', .close 221 text)
  | done {l : Transcript Request.Answer} {c' : Client} {code : Nat} (text : String)
      (hcommand : command.opensTransfer = false) (hcode : code < 400)
      (hconsistent : code ≠ 150 ∧ code ≠ 221 ∧ code ≠ 421) :
      Handled c command l (c', .success code text)
  | begun {l : Transcript Request.Answer} {c' : Client} (text : String) (transfer : Transfer)
      (hopens : command.opensTransfer = true) (hgate : ⟨.isInProgress, true⟩ ∉ l) :
      Handled c command l (c', .begin text transfer)

theorem Unmoved.prepend (h : Unmoved c l c') (hl' : Vain l') : Unmoved c (l' ++ l) c' := by
  cases h with
  | kept h => exact .kept (vain_append hl' h)
  | forgotten h h' =>
    rw [← List.append_assoc]
    exact .forgotten (vain_append hl' h) h'

theorem Unmoved.append (h : Unmoved c l c') (hl' : Vain l') : Unmoved c (l ++ l') c' := by
  cases h with
  | kept h => exact .kept (vain_append h hl')
  | forgotten h h' =>
    rw [List.append_assoc]
    exact .forgotten h (vain_append h' hl')

theorem Reaped.unmoved (h : Reaped c l c') : Unmoved c l c' := by
  cases h with
  | nobody => exact .kept (by simp [Vain, Request.IsVain])
  | serving => exact .kept (by simp [Vain, Request.IsVain])
  | forgotten number => exact .forgotten (l := [_]) (vain_singleton trivial) vain_nil

theorem Reaped.address (h : Reaped c l c') : c'.address = c.address := by
  cases h <;> rfl

theorem Reaped.withoutMode (h : Reaped c l c') : c'.withMode .none = c.withMode .none := by
  cases h <;> rfl

inductive Refuses (law : Nat → Client) : Transcript Request.Answer → Client × Outcome → Prop
  | intro {l : Transcript Request.Answer} {c : Client} {code : Nat} (text : String)
      (hcode : IsRefusalCode code) (hnot : code ≠ 421) (hvain : Vain l) (hc : c = law code) :
      Refuses law l (c, .failure code text)

inductive Succeeds : Client × Outcome → Prop
  | intro {c : Client} {code : Nat} (text : String) (hcode : code < 400)
      (hanswer : IsAnswerCode code) : Succeeds (c, .success code text)

abbrev Concludes (law : Nat → Client) (l : Transcript Request.Answer) (r : Client × Outcome) : Prop :=
  Refuses law l r ∨ Succeeds r

theorem Refuses.prepend (h : Refuses law l r) (hl' : Vain l') : Refuses law (l' ++ l) r := by
  obtain ⟨text, hcode, hnot, hvain, hc⟩ := h
  exact .intro text hcode hnot (vain_append hl' hvain) hc

theorem yields_ofFiles {post : Transcript Request.Answer → α → Prop} (p : Files α) :
    (ofFiles p).Yields post ↔
      p.Yields fun l a => post (l.map fun x => ⟨.file x.1, x.2⟩) a := by
  induction p generalizing post with
  | done a => rfl
  | ask call next ih => exact forall_congr' fun r => ih r

/-- Where the host refuses, it was asked in vain. -/
abbrev FailsInVain (p : Files (Except ε α)) : Prop :=
  p.Yields fun l r => ∀ e, r = .error e → ∀ x ∈ l, x.1.IsVain x.2

theorem vain_files {l : Transcript FileCall.Answer} (h : ∀ x ∈ l, x.1.IsVain x.2) :
    Vain (l.map fun x => ⟨.file x.1, x.2⟩) := by
  intro x hx
  obtain ⟨y, hy, rfl⟩ := List.mem_map.1 hx
  exact h y hy

theorem FailsInVain.dialogue {p : Files (Except ε α)} (h : FailsInVain p) :
    (ofFiles p).Yields fun l r => ∀ e, r = .error e → Vain l :=
  (yields_ofFiles p).2 (h.mono fun _ _ hl e he => vain_files (hl e he))

theorem failsInVain_call {call : FileCall} {f : call.Answer → Except ε α}
    (h : ∀ r e, f r = .error e → call.IsVain r) : FailsInVain (.ask call fun r => .done (f r)) := by
  refine Yields.question fun r => ?_
  intro e he x hx
  obtain rfl := List.mem_singleton.1 hx
  exact h r e he

theorem FailsInVain.mapError {p : Files (Except OsError α)} (h : FailsInVain p)
    (f : OsError → ε) : FailsInVain (do return (← p).mapError f) := by
  refine h.bind fun l r hl e he => ?_
  cases r with
  | ok a => cases he
  | error e' => simpa using hl e' rfl

theorem holds_vain (p : Place) (test : Kind → Bool) :
    (Files.holds p test).Yields fun l _ => ∀ x ∈ l, x.1.IsVain x.2 := by
  refine Yields.question fun r => ?_
  cases r <;> simp [FileCall.IsVain]

theorem holds_dialogue (p : Place) (test : Kind → Bool) :
    (ofFiles (Files.holds p test)).Yields fun l _ => Vain l :=
  (yields_ofFiles _).2 ((holds_vain p test).mono fun _ _ h => vain_files h)

section Storage

variable (root : String) (path : Path)

/-- A place is looked at, and then something is asked of it that may fail. -/
theorem failsInVain_of_holds {p : Place} {test : Kind → Bool} {f : Bool → Files (Except ε α)}
    (hf : ∀ found, FailsInVain (f found)) : FailsInVain (Files.holds p test >>= f) :=
  (holds_vain p test).bind fun _ found hl => (hf found).mono fun _ _ hl' e he =>
    List.forall_mem_append.2 ⟨hl, hl' e he⟩

theorem failsInVain_of_test {p : Place} {test : Kind → Bool} {call : Files (Except OsError α)}
    (hcall : FailsInVain call) (f : OsError → ε) (e : ε) :
    FailsInVain (do
      if ← Files.holds p test then return (← call).mapError f
      else return .error e) := by
  refine failsInVain_of_holds fun found => ?_
  cases found with
  | true => exact hcall.mapError f
  | false => simp

theorem FailsInVain.unless {p : Files (Except ε α)} (hp : FailsInVain p) (excluded : Bool) (e : ε) :
    FailsInVain (if excluded then .done (.error e) else p) := by
  cases excluded with
  | true => simp
  | false => exact hp

theorem makeDirectory_failsInVain : FailsInVain (Storage.makeDirectory root path) := by
  refine FailsInVain.mapError (failsInVain_call ?_) _
  rintro _ e rfl
  trivial

theorem removeDirectory_failsInVain : FailsInVain (Storage.removeDirectory root path) := by
  refine FailsInVain.unless (FailsInVain.mapError (failsInVain_call ?_) _) _ _
  rintro _ e rfl
  trivial

theorem deleteFile_failsInVain : FailsInVain (Storage.deleteFile root path) := by
  refine failsInVain_of_test (failsInVain_call ?_) _ _
  rintro _ e rfl
  trivial

theorem rename_failsInVain (source target : Path) :
    FailsInVain (Storage.rename root source target) := by
  refine FailsInVain.unless (FailsInVain.mapError (failsInVain_call ?_) _) _ _
  rintro _ e rfl
  trivial

theorem openDownload_failsInVain : FailsInVain (Storage.openDownload root path) := by
  refine failsInVain_of_test (failsInVain_call ?_) _ _
  rintro _ e rfl
  trivial

theorem openUpload_failsInVain : FailsInVain (Storage.openUpload root path) := by
  refine FailsInVain.unless (FailsInVain.mapError (failsInVain_call ?_) _) _ _
  rintro _ e rfl
  trivial

theorem list_failsInVain : FailsInVain (Storage.list root path) := by
  refine failsInVain_of_test (failsInVain_call ?_) _ _
  rintro _ e rfl
  trivial

theorem enter_failsInVain (wd : Path) (argument : String) :
    FailsInVain (Storage.enter root wd argument) := by
  unfold Storage.enter
  split
  next => simp
  next =>
    refine failsInVain_of_holds fun found => ?_
    split <;> simp

end Storage

section Refusals

variable {code : Nat}

theorem refuseStorage_refuses (hcode : IsRefusalCode code) (hnot : code ≠ 421) (hc : c = law code)
    (verb : String) (e : StorageError) : (refuseStorage c verb e code).Yields (Refuses law) :=
  Yields.question fun _ => .intro _ hcode hnot (vain_singleton trivial) hc

theorem refuse_refuses (c : Client) (verb : String) (e : StorageError) :
    (refuse c verb e).Yields (Refuses fun _ => c) := by
  have hcode : IsRefusalCode e.code := by simp [IsRefusalCode, StorageError.code]
  exact refuseStorage_refuses hcode (by simp [StorageError.code]) rfl verb e

theorem refuseCreation_refuses (c : Client) (verb : String) (e : StorageError) :
    (refuseCreation c verb e).Yields (Refuses fun _ => c) := by
  have hcode : IsRefusalCode e.creationCode := by
    cases e <;> simp [IsRefusalCode, StorageError.creationCode]
  have hnot : e.creationCode ≠ 421 := by cases e <;> simp [StorageError.creationCode]
  exact refuseStorage_refuses hcode hnot rfl verb e

theorem refuseLogin_refuses (law : Nat → Client) {e : LoginError} (hc : c = law e.code) :
    (refuseLogin ctx c e).Yields (Refuses law) := by
  have hcode : IsRefusalCode e.code := by cases e <;> simp [IsRefusalCode, LoginError.code]
  have hnot : e.code ≠ 421 := by cases e <;> simp [LoginError.code]
  refine Yields.question fun _ => ?_
  dsimp only
  split
  next =>
    refine Yields.question fun _ => ?_
    exact .intro _ hcode hnot (by simp [Vain, Request.IsVain]) hc
  next => exact .intro _ hcode hnot (vain_singleton trivial) hc

end Refusals

theorem concludes_after {step : Step} (hl : Vain l) (h : step.Yields (Concludes law)) :
    step.Yields fun l' r => Concludes law (l ++ l') r :=
  h.mono fun _ _ h => h.imp_left fun h => h.prepend hl

theorem concludes_of_refuses {step : Step} (h : step.Yields (Refuses law)) :
    step.Yields (Concludes law) := h.mono fun _ _ => .inl

/-- A command that depends on the host: it is refused where the host fails. -/
theorem concludes_of_files {p : Files (Except ε α)} {next : Except ε α → Step} (hp : FailsInVain p)
    (hok : ∀ a, (next (.ok a)).Yields fun _ r => Succeeds r)
    (herror : ∀ e, (next (.error e)).Yields (Refuses law)) :
    (ofFiles p >>= next).Yields (Concludes law) := by
  refine hp.dialogue.bind fun l result hl => ?_
  cases result with
  | ok a => exact (hok a).mono fun _ _ h => .inr h
  | error e => exact (herror e).mono fun _ _ h => .inl (h.prepend (hl e rfl))

section Commands

variable (ctx) (c) (argument : String)

theorem onUser_concludes : (onUser ctx c argument).Yields (Concludes fun _ => c) := by
  unfold onUser
  split
  next => exact concludes_of_refuses (refuseLogin_refuses _ rfl)
  next =>
    split
    next => exact concludes_of_refuses (refuseLogin_refuses _ rfl)
    next => split <;> exact .inr (.intro _ (by decide) (by decide))

theorem identify_vain (password : String) : (identify ctx c password).Yields fun l r =>
    Vain l ∧ ∀ e, r = .error e → e.code = 501 ∨ e.code = 530 := by
  unfold identify
  split
  next => exact ⟨vain_nil, fun _ h => anonymousIdentity_code h⟩
  next =>
    refine Yields.question fun accepted => ?_
    split
    next => exact ⟨vain_singleton trivial, fun _ h => by cases h⟩
    next => exact ⟨vain_singleton trivial, fun _ h => by cases h; exact .inr rfl⟩

theorem onPass_concludes :
    (onPass ctx c argument).Yields (Concludes (c.refused (.pass argument))) := by
  unfold onPass
  split
  next => exact concludes_of_refuses (refuseLogin_refuses (c.refused (.pass argument)) rfl)
  next =>
    refine (identify_vain ctx c argument).bind fun l result hl => ?_
    split
    next => exact Yields.question fun _ => .inr (.intro _ (by decide) (by decide))
    next e =>
      have hreset : c.resetLogin = c.refused (.pass argument) e.code :=
        (if_pos (hl.2 e rfl)).symm
      exact (refuseLogin_refuses _ hreset).mono fun _ _ h => .inl (h.prepend hl.1)

theorem onType_concludes : Concludes (fun _ => c) [] (c, onType argument) := by
  unfold onType
  split
  next => exact .inr (.intro _ (by decide) (by decide))
  next => exact .inl (.intro _ (by decide) (by decide) vain_nil rfl)

theorem onCwd_concludes : (onCwd ctx c argument).Yields (Concludes fun _ => c) := by
  refine concludes_of_files (enter_failsInVain ctx.root c.directory argument) (fun path => ?_)
    fun e => Yields.question fun _ => ?_
  · exact Yields.question fun _ => .intro _ (by decide) (by decide)
  · exact .intro _ (by simp [IsRefusalCode, NavigationError.code]) (by simp [NavigationError.code])
      (vain_singleton trivial) rfl

theorem onMkd_concludes : (onMkd ctx c argument).Yields (Concludes fun _ => c) := by
  unfold onMkd
  split
  next => exact concludes_of_refuses (refuseCreation_refuses c _ _)
  next path _ =>
    refine concludes_of_files (makeDirectory_failsInVain ctx.root path) (fun _ => ?_)
      (refuseCreation_refuses c _)
    exact Yields.question fun _ => .intro _ (by decide) (by decide)

theorem onRmd_concludes : (onRmd ctx c argument).Yields (Concludes fun _ => c) := by
  unfold onRmd
  split
  next => exact concludes_of_refuses (refuse_refuses c _ _)
  next path _ =>
    refine concludes_of_files (removeDirectory_failsInVain ctx.root path) (fun _ => ?_)
      (refuse_refuses c _)
    exact Yields.question fun _ => .intro _ (by decide) (by decide)

theorem onDele_concludes : (onDele ctx c argument).Yields (Concludes fun _ => c) := by
  unfold onDele
  split
  next => exact concludes_of_refuses (refuse_refuses c _ _)
  next path _ =>
    refine concludes_of_files (deleteFile_failsInVain ctx.root path) (fun _ => ?_)
      (refuse_refuses c _)
    exact Yields.question fun _ => .intro _ (by decide) (by decide)

theorem unstage_vain : (unstage c).Yields fun l c' => Vain l ∧ c' = c.dropRename := by
  unfold unstage
  split
  next => exact Yields.question fun _ => ⟨vain_note _ _, rfl⟩
  next => exact ⟨vain_nil, rfl⟩

theorem onRnfr_concludes : (onRnfr ctx c argument).Yields (Concludes fun _ => c.dropRename) := by
  refine (unstage_vain c).bind fun l _ hl => ?_
  obtain ⟨hl, rfl⟩ := hl
  refine concludes_after hl ?_
  split
  next => exact concludes_of_refuses (refuse_refuses _ _ _)
  next path _ =>
    split
    next => exact concludes_of_refuses (refuse_refuses _ _ _)
    next =>
      refine (holds_dialogue _ _).bind fun l found hvain => ?_
      split
      next => exact .inr (.intro _ (by decide) (by decide))
      next => exact (refuse_refuses _ _ _).mono fun _ _ h => .inl (h.prepend hvain)

theorem onRnto_concludes (hc : c.renameSource = none → c.dropRename = c) :
    (onRnto ctx c argument).Yields (Concludes fun _ => c.dropRename) := by
  unfold onRnto
  split
  next hnone => exact .inl (.intro _ (by decide) (by decide) vain_nil (hc hnone).symm)
  next source _ =>
    dsimp only
    split
    next => exact concludes_of_refuses (refuseCreation_refuses _ _ _)
    next target _ =>
      refine concludes_of_files (rename_failsInVain ctx.root source target) (fun _ => ?_)
        (refuseCreation_refuses _ _)
      exact Yields.question fun _ => .intro _ (by decide) (by decide)

end Commands

theorem reapWorker_reaped (c : Client) : (reapWorker c).Yields (Reaped c) := by
  refine Yields.question fun held => ?_
  split
  next hheld =>
    obtain rfl : held = true := hheld
    refine Yields.question fun armed => ?_
    split
    next harmed =>
      obtain rfl : armed = true := harmed
      exact .serving
    next harmed =>
      obtain rfl : armed = false := Bool.eq_false_iff.2 harmed
      exact Yields.question fun number => .forgotten number
  next hheld =>
    obtain rfl : held = false := Bool.eq_false_iff.2 hheld
    exact .nobody

theorem stopWorker_stopped (c : Client) :
    (stopWorker c).Yields fun l c' => Stopped l ∧ c' = c.withMode .none := by
  refine Yields.question fun held => ?_
  cases held with
  | none => exact ⟨.nobody, rfl⟩
  | some number =>
    refine Yields.question fun _ => ?_
    refine Yields.question fun _ => ?_
    exact Yields.question fun _ => ⟨.somebody number, rfl⟩

theorem gate_yields {post : Transcript Request.Answer → α → Prop} {busy free : Client → Dialogue α}
    (hbusy : ∀ l c', Reaped c l c' →
      (busy c').Yields fun l' a => post (l ++ ⟨.isInProgress, true⟩ :: l') a)
    (hfree : ∀ l c', Reaped c l c' →
      (free c').Yields fun l' a => post (l ++ ⟨.isInProgress, false⟩ :: l') a) :
    (reapWorker c >>= fun c => isInProgress >>= fun inProgress =>
      if inProgress = true then busy c else free c).Yields post := by
  refine (reapWorker_reaped c).bind fun l c' hl => Yields.question fun inProgress => ?_
  cases inProgress with
  | true => exact hbusy l c' hl
  | false => exact hfree l c' hl

/-- A command that finds a transfer in progress where it may not. -/
theorem handled_busy {command : Command} (hopens : command.opensTransfer = false)
    (hsame : c.refused command Reply.badSequence = c) (hl : Reaped c l c') :
    Handled c command (l ++ [⟨.isInProgress, true⟩]) (c', busy) := by
  refine .refused _ (by decide) (by decide) (fun h => ?_) ?_
  · rw [hopens] at h
    cases h
  · rw [hsame]
    exact hl.unmoved.append (vain_singleton trivial)

theorem onPort_handled (c : Client) (argument : String) :
    (onPort c argument).Yields (Handled c (.port argument)) := by
  refine gate_yields (fun l c' hl => handled_busy rfl rfl hl) fun l c' hl => ?_
  split
  next address _ =>
    refine Yields.question fun _ => ?_
    refine (Yields.any _).bind fun _ _ _ => ?_
    exact Handled.done _ rfl (by decide) (by decide)
  next =>
    refine Yields.question fun _ => ?_
    refine Handled.refused _ (by simp [IsRefusalCode, TransferError.code])
      (by simp [TransferError.code]) (fun h => by cases h) (hl.unmoved.append ?_)
    exact vain_append (vain_singleton (q := .isInProgress) trivial) (vain_note _ _)

theorem openListener_yields (ctx : Context) : (openListener ctx).Yields fun l r =>
    Vain l ∧ ∀ e, r = .error e → e.code = 421 := by
  have hvain : (openListener ctx).Keeps (fun _ _ => True) (fun q => ∀ r, q.IsVain r)
      fun r => ∀ e, r = .error e → e.code = 421 := openListener_keeps ctx fun _ _ => trivial
  exact hvain.yields.mono fun l _ hl => ⟨fun x hx => hl.1 x hx x.2, hl.2⟩

theorem onPasv_handled (ctx : Context) (c : Client) :
    (onPasv ctx c).Yields (Handled c .pasv) := by
  refine gate_yields (fun l c' hl => handled_busy rfl rfl hl) fun l c' hl => ?_
  refine (stopWorker_stopped c').bind fun l₁ c₁ hstopped => ?_
  obtain ⟨hstopped, rfl⟩ := hstopped
  refine (openListener_yields ctx).bind fun l₂ result hl₂ => ?_
  cases result with
  | ok address =>
    refine Yields.question fun _ => ?_
    refine (Yields.any _).bind fun _ _ _ => ?_
    exact Handled.done _ rfl (by decide) (by decide)
  | error e =>
    refine Yields.question fun _ => ?_
    exact Handled.torn _ rfl (hl₂.2 e rfl) hl hstopped (vain_append hl₂.1 (vain_note _ _))

theorem onAbor_handled (c : Client) : (onAbor c).Yields (Handled c .abor) := by
  refine Yields.question fun inProgress => ?_
  split
  next =>
    refine (Yields.any _).bind fun _ _ _ => ?_
    refine Yields.question fun _ => ?_
    exact Handled.done _ rfl (by decide) (by decide)
  next => exact Handled.done _ rfl (by decide) (by decide)

theorem onQuit_handled (c : Client) : (onQuit c).Yields (Handled c .quit) :=
  (Yields.any _).bind fun _ _ _ => Handled.left _ rfl

inductive Ready (c : Client) : Transcript Request.Answer → Client × Outcome → Prop
  | refused {l : Transcript Request.Answer} {r : Client × Outcome} (h : Refuses (fun _ => c) l r) :
      Ready c l r
  | begins {l : Transcript Request.Answer} (text : String) (transfer : Transfer) :
      Ready c l (c, .begin text transfer)

theorem ready_of_files {p : Files (Except ε α)} {next : Except ε α → Step} (hp : FailsInVain p)
    (hok : ∀ a, (next (.ok a)).Yields fun _ r => ∃ text transfer, r = (c, .begin text transfer))
    (herror : ∀ e, (next (.error e)).Yields (Refuses fun _ => c)) :
    (ofFiles p >>= next).Yields (Ready c) := by
  refine hp.dialogue.bind fun l result hl => ?_
  cases result with
  | ok a =>
    refine (hok a).mono fun _ _ h => ?_
    obtain ⟨text, transfer, rfl⟩ := h
    exact .begins text transfer
  | error e => exact (herror e).mono fun _ _ h => .refused (h.prepend (hl e rfl))

theorem beginList_ready (ctx : Context) (argument : String) (c : Client) :
    (beginList ctx argument c).Yields (Ready c) := by
  unfold beginList
  split
  next => exact (refuse_refuses c _ _).mono fun _ _ => .refused
  next path _ =>
    exact ready_of_files (list_failsInVain ctx.root path) (fun _ => ⟨_, _, rfl⟩) (refuse_refuses c _)

theorem beginRetr_ready (ctx : Context) (argument : String) (c : Client) :
    (beginRetr ctx argument c).Yields (Ready c) := by
  unfold beginRetr
  split
  next => exact (refuse_refuses c _ _).mono fun _ _ => .refused
  next path _ =>
    exact ready_of_files (openDownload_failsInVain ctx.root path)
      (fun _ => Yields.question fun _ => ⟨_, _, rfl⟩) (refuse_refuses c _)

theorem beginStor_ready (ctx : Context) (argument : String) (c : Client) :
    (beginStor ctx argument c).Yields (Ready c) := by
  unfold beginStor
  split
  next => exact (refuseCreation_refuses c _ _).mono fun _ _ => .refused
  next path _ =>
    exact ready_of_files (openUpload_failsInVain ctx.root path)
      (fun _ => Yields.question fun _ => ⟨_, _, rfl⟩) (refuseCreation_refuses c _)

theorem Reaped.isPlain (h : Reaped c l c') (hc : c.IsPlain) : c'.IsPlain := by
  cases h with
  | nobody | serving => exact hc
  | forgotten number => exact hc.withMode .none

/-- Nothing is found in progress by who looks at the slot as a worker leaves it. -/
theorem Reaped.gate (h : Reaped c l c') : ⟨.isInProgress, true⟩ ∉ l := by
  intro hmem
  have hasked : Request.isInProgress ∈ l.map Sigma.fst := List.mem_map_of_mem hmem
  cases h <;> simp at hasked

theorem withData_handled (hc : c.IsPlain) {root : String} {command : Command}
    {opener : Client → Step} (hopens : command.opensTransfer = true)
    (hfiles : Opens (fun _ _ => True) root opener)
    (hready : ∀ c, (opener c).Yields (Ready c)) :
    (withData c opener).Yields (Handled c command) := by
  have hsame (code : Nat) : c.refused command code = c := by
    cases command <;> first | rfl | cases hopens
  refine gate_yields (fun l c' hl => Yields.question fun _ => .ignored hopens hl) fun l c' hl => ?_
  have hlooked : Vain [⟨.isInProgress, false⟩] := vain_singleton trivial
  have hunmoved {l' : Transcript Request.Answer} (hl' : Vain l') (code : Nat) :
      Unmoved (c.refused command code) (l ++ ⟨.isInProgress, false⟩ :: l') c' := by
    rw [hsame]
    exact hl.unmoved.append (vain_append hlooked hl')
  have hgate {l' : Transcript Request.Answer} (hl' : ∀ x ∈ l', x.1.sparesSlot = true) :
      ⟨.isInProgress, true⟩ ∉ l ++ ⟨.isInProgress, false⟩ :: l' := by
    intro hmem
    rcases List.mem_append.1 hmem with hmem | hmem
    · exact hl.gate hmem
    · rcases List.mem_cons.1 hmem with heq | hmem
      · cases heq
      · cases hl' _ hmem
  split
  next =>
    exact Handled.refused _ (by decide) (by decide) (fun _ => hgate (by simp)) (hunmoved vain_nil _)
  next =>
    have hspares := (OnlyFileCalls.spares (hfiles c' (hl.isPlain hc))).yields
    refine ((hready c').and hspares).mono fun l' r hr => ?_
    obtain ⟨hr, hspared, -⟩ := hr
    have hgate := hgate fun x hx => (hspared x hx).1
    cases hr with
    | begins text transfer => exact .begun text transfer hopens hgate
    | refused h =>
      obtain ⟨text, hcode, hnot, hvain, rfl⟩ := h
      exact .refused text hcode hnot (fun _ => hgate) (hunmoved hvain _)

theorem handled_of_concludes {command : Command} (hopens : command.opensTransfer = false)
    (h : Concludes (c.refused command) l r) : Handled c command l r := by
  rcases h with h | h
  · obtain ⟨text, hcode, hnot, hvain, rfl⟩ := h
    exact .refused text hcode hnot (fun hnot => by rw [hopens] at hnot; cases hnot) (.kept hvain)
  · obtain ⟨text, hcode, hanswer⟩ := h
    exact .done text hopens hcode ⟨hanswer.1, hanswer.2.1, hanswer.2.2.1⟩

theorem dispatch_handled (ctx : Context) (hc : c.IsPlain) (command : Command) :
    (dispatch ctx c command).Yields (Handled c command) := by
  have hconcludes : ∀ {step : Step}, command.opensTransfer = false →
      step.Yields (Concludes (c.refused command)) → step.Yields (Handled c command) :=
    fun hopens hstep => hstep.mono fun _ _ => handled_of_concludes hopens
  have hsucceeds {code : Nat} (text : String) (hcode : code < 400) (hanswer : IsAnswerCode code) :
      Concludes (c.refused command) [] (c, .success code text) := .inr (.intro text hcode hanswer)
  cases command with
  | user name => exact hconcludes rfl (onUser_concludes ctx c name)
  | pass password => exact hconcludes rfl (onPass_concludes ctx c password)
  | syst => exact hconcludes rfl (hsucceeds _ (by decide) (by decide))
  | type kind => exact hconcludes rfl (onType_concludes c kind)
  | noop => exact hconcludes rfl (hsucceeds _ (by decide) (by decide))
  | port argument => exact onPort_handled c argument
  | pasv => exact onPasv_handled ctx c
  | cwd argument => exact hconcludes rfl (onCwd_concludes ctx c argument)
  | cdup => exact hconcludes rfl (onCwd_concludes ctx c "..")
  | pwd => exact hconcludes rfl (hsucceeds _ (by decide) (by decide))
  | mkd argument => exact hconcludes rfl (onMkd_concludes ctx c argument)
  | rmd argument => exact hconcludes rfl (onRmd_concludes ctx c argument)
  | dele argument => exact hconcludes rfl (onDele_concludes ctx c argument)
  | rnfr argument => exact hconcludes rfl (onRnfr_concludes ctx c argument)
  | rnto argument =>
    refine hconcludes rfl (onRnto_concludes ctx c argument fun hnone => ?_)
    rw [Client.dropRename, ← hnone]
  | list argument =>
    exact withData_handled hc rfl (beginList_opens ctx argument) (beginList_ready ctx argument)
  | retr argument =>
    exact withData_handled hc rfl (beginRetr_opens ctx argument) (beginRetr_ready ctx argument)
  | stor argument =>
    exact withData_handled hc rfl (beginStor_opens ctx argument) (beginStor_ready ctx argument)
  | abor => exact onAbor_handled c
  | quit => exact onQuit_handled c
  | unknown verb => exact hconcludes rfl (hsucceeds _ (by decide) (by decide))

theorem refused_loginFirst {command : Command} (hstaged : c.renameSource = none)
    (hlogin : command.requiresLogin = true) : c.refused command Reply.notLoggedIn = c := by
  have hdrop : c.dropRename = c := by rw [Client.dropRename, ← hstaged]
  cases command <;> first | rfl | exact hdrop | cases hlogin

theorem handle_handled (ctx : Context) (hc : c.IsPlain)
    (hstaged : c.isLoggedIn = false → c.renameSource = none) (command : Command) :
    (handle ctx c command).Yields fun l r => Handled c command l r ∧
      (command.requiresLogin = true → c.isLoggedIn = true ∨ r = (c, loginFirst)) := by
  unfold handle
  split
  next hgate =>
    obtain ⟨hlogin, hout⟩ : command.requiresLogin = true ∧ c.isLoggedIn = false := by
      simpa using hgate
    refine ⟨.refused _ (by decide) (by decide) (fun _ => by simp) ?_, fun _ => .inr rfl⟩
    rw [refused_loginFirst (hstaged hout) hlogin]
    exact .kept vain_nil
  next hgate =>
    refine (dispatch_handled ctx hc command).mono fun l r hr => ⟨hr, fun hlogin => .inl ?_⟩
    simpa [hlogin] using hgate

inductive Performed (c : Client) (command : Command) :
    Transcript Request.Answer → Client × Outcome → Prop
  | intro {l : Transcript Request.Answer} {r : Client × Outcome} (h : Handled c command l r)
      (hlogin : command.requiresLogin = true → c.isLoggedIn = true ∨ r = (c, loginFirst)) :
      Performed c command (⟨.note (.executed c.address command), ()⟩ :: l) r

theorem perform_performed (ctx : Context) (hc : c.IsPlain)
    (hstaged : c.isLoggedIn = false → c.renameSource = none) (command : Command) :
    (perform ctx c command).Yields (Performed c command) :=
  Yields.question fun _ => (handle_handled ctx hc hstaged command).mono fun _ _ h => .intro h.1 h.2

def concluding (c : Client) (command : Command) : Status → Transcript Request.Answer
  | .success => []
  | .failure reason => [⟨.note (.commandFailed c.address command reason), ()⟩]
  | .close => [⟨.note (.closing c.address), ()⟩]

/-- The transfer of an outcome is handed over, if there is one, and the command concluded. -/
def handing (c : Client) (command : Command) (o : Outcome) : Transcript Request.Answer :=
  match o.transfer with
  | some transfer => ⟨.install transfer, ()⟩ :: concluding c command o.status
  | none => concluding c command o.status

def onwardOf (o : Outcome) : Onward := if o.status = .close then .stop else .goOn

/-- How an outcome reaches the client. -/
inductive Delivered (c : Client) (command : Command) (o : Outcome) :
    Transcript Request.Answer → Onward → Prop
  | silent (hreply : o.reply = none) : Delivered c command o (handing c command o) (onwardOf o)
  | sent {reply : Reply} (hreply : o.reply = some reply) :
      Delivered c command o (⟨.lockControl, ()⟩ :: ⟨.writeReply reply, .ok ()⟩ ::
        ⟨.unlockControl, ()⟩ :: handing c command o) (onwardOf o)
  | failed {reply : Reply} (cause : OsError) (record : Record) (hreply : o.reply = some reply) :
      Delivered c command o [⟨.lockControl, ()⟩, ⟨.writeReply reply, .error cause⟩,
        ⟨.unlockControl, ()⟩, ⟨.note record, ()⟩] .stop

theorem conclude_concluding (c : Client) (command : Command) (status : Status) :
    (conclude c command status).Yields fun l onward =>
      l = concluding c command status ∧ onward = if status = .close then .stop else .goOn := by
  cases status with
  | success => exact ⟨rfl, rfl⟩
  | failure reason => exact Yields.question fun _ => ⟨rfl, rfl⟩
  | close => exact Yields.question fun _ => ⟨rfl, rfl⟩

theorem deliver_delivered (c : Client) (command : Command) (o : Outcome) :
    (deliver c command o).Yields (Delivered c command o) := by
  have hrest : Program.Yields (fun l onward => l = handing c command o ∧ onward = onwardOf o) (do
      match o.transfer with
      | some transfer => install transfer
      | none => pure ()
      conclude c command o.status : Dialogue Onward) := by
    have hconclude := conclude_concluding c command o.status
    unfold handing
    cases o.transfer with
    | none => exact hconclude
    | some transfer =>
      exact Yields.question fun _ => hconclude.mono fun _ _ h => ⟨congrArg _ h.1, h.2⟩
  unfold deliver sendOutcome
  cases hreply : o.reply with
  | none =>
    refine hrest.mono fun l onward h => ?_
    obtain ⟨rfl, rfl⟩ := h
    exact .silent hreply
  | some reply =>
    refine Yields.question fun _ => ?_
    refine Yields.question fun result => ?_
    refine Yields.question fun _ => ?_
    cases result with
    | error cause => exact Yields.question fun _ => .failed cause _ hreply
    | ok =>
      refine hrest.mono fun l onward h => ?_
      obtain ⟨rfl, rfl⟩ := h
      exact .sent hreply

theorem Delivered.reply {command : Command} {o : Outcome} {l : Transcript Request.Answer}
    {onward : Onward} (h : Delivered c command o l onward) {reply : Reply}
    {result : Except OsError Unit} (hmem : ⟨.writeReply reply, result⟩ ∈ l) :
    o.reply = some reply := by
  have hhanding : ⟨.writeReply reply, result⟩ ∉ handing c command o := by
    intro hmem
    have hasked : Request.writeReply reply ∈ (handing c command o).map Sigma.fst :=
      List.mem_map_of_mem hmem
    unfold handing concluding at hasked
    split at hasked <;> split at hasked <;> simp at hasked
  cases h with
  | silent => exact absurd hmem hhanding
  | @sent reply' hreply =>
    simp only [List.mem_cons, hhanding, or_false] at hmem
    rcases hmem with heq | heq | heq <;> cases heq
    exact hreply
  | @failed reply' cause record hreply =>
    simp only [List.mem_cons, List.not_mem_nil, or_false] at hmem
    rcases hmem with heq | heq | heq | heq <;> cases heq
    exact hreply

section Lines

variable {post : Transcript Request.Answer → Client × Onward → Prop}

/-- A command goes as it is performed and as its outcome is delivered. -/
theorem onCommand_yields {performed : Transcript Request.Answer → Client × Outcome → Prop}
    (hperform : (perform ctx c command).Yields performed)
    (hpost : ∀ l l' c' o onward, performed l (c', o) → Delivered c' command o l' onward →
      post (l ++ l') (c', onward)) : (onCommand ctx c command).Yields post := by
  rw [onCommand_eq]
  refine hperform.bind fun l r hl => ?_
  obtain ⟨c', o⟩ := r
  refine (deliver_delivered c' command o).bind fun l' onward hdelivered => ?_
  show post (l ++ (l' ++ [])) (c', onward)
  rw [List.append_nil]
  exact hpost l l' c' o onward hl hdelivered

/-- A remark on a line in the log, and a reply to it. -/
def remarking (record : Record) (reply : Reply) (result : Except OsError Unit) :
    Transcript Request.Answer :=
  [⟨.note record, ()⟩, ⟨.lockControl, ()⟩, ⟨.writeReply reply, result⟩, ⟨.unlockControl, ()⟩]

theorem remark_yields {record : Record} {reply : Reply}
    (hlost : ∀ cause, post (remarking record reply (.error cause)) (c, .stop))
    (hsent : post (remarking record reply (.ok ())) (c, .goOn)) :
    (do note record; return (c, ← sendOrStop reply) : Dialogue (Client × Onward)).Yields post := by
  refine Yields.question fun _ => ?_
  refine Yields.question fun _ => ?_
  refine Yields.question fun result => ?_
  refine Yields.question fun _ => ?_
  cases result with
  | error cause => exact hlost cause
  | ok => exact hsent

end Lines

end Session

end FtpServer
