import FtpServer.Proofs.FileCommands
import FtpServer.Proofs.Frame
import FtpServer.Proofs.Workers

/-!
# The cases of a dispatched command

Most commands leave the transfer slot alone and come to an answer.  Four are about workers, and three
look at the slot twice before they open a transfer.
-/

namespace FtpServer

open Program Dialogue Outcome

def Request.sparesControl : Request → Bool
  | .lockControl | .writeReply _ | .shutControl | .unlockControl => false
  | _ => true

def Command.opensTransfer : Command → Bool
  | .list _ | .retr _ | .stor _ => true
  | _ => false

def Command.sparesSlot : Command → Bool
  | .port _ | .pasv | .abor | .quit | .list _ | .retr _ | .stor _ => false
  | _ => true

namespace Session

variable {ctx : Context} {c : Client} {α : Type}

def KeepsDataMode (c c' : Client) : Prop := c'.IsPlain ∧ c'.dataMode = c.dataMode

theorem keepsDataMode_kept (c : Client) : Client.Kept (KeepsDataMode c) where
  isPlain h := h.1
  enter h hp := ⟨h.1.enter hp, h.2⟩
  stageRename h hp := ⟨h.1.stageRename hp, h.2⟩
  dropRename h := ⟨h.1.dropRename, h.2⟩

/-- The dialogue asks nothing about the slot, workers or the control connection, and its result
satisfies `post`. -/
abbrev Spares (post : α → Prop) (p : Dialogue α) : Prop :=
  p.Keeps (fun _ _ => True) (fun q => q.sparesSlot = true ∧ q.sparesControl = true) post

theorem OnlyInternal.spares {post : α → Prop} {p : Dialogue α}
    (h : OnlyInternal (fun _ _ => True) post p) :
    Spares post p :=
  h.weaken (fun _ _ hr => hr) fun q hq => by cases q <;> first | exact ⟨rfl, rfl⟩ | cases hq

theorem OnlyFileCalls.spares {root : String} {post : α → Prop} {p : Dialogue α}
    (h : OnlyFileCalls (fun _ _ => True) root post p) : Spares post p :=
  h.weaken (fun q _ _ => by cases q <;> trivial)
    fun q hq => by cases q <;> first | exact ⟨rfl, rfl⟩ | cases hq

/-- How a command goes once nothing stands against it. -/
inductive DispatchCase (ctx : Context) (c : Client) : Command → Step → Prop
  | spares {command : Command} {step : Step} (hcommand : command.sparesSlot = true)
      (h : Spares (AnswersKeeping (KeepsDataMode c)) step) : DispatchCase ctx c command step
  | port (argument : String) : DispatchCase ctx c (.port argument) (onPort c argument)
  | pasv : DispatchCase ctx c .pasv (onPasv ctx c)
  | abor : DispatchCase ctx c .abor (onAbor c)
  | quit : DispatchCase ctx c .quit (onQuit c)
  | opens {command : Command} {opener : Client → Step} (hcommand : command.opensTransfer = true)
      (h : Opens (fun _ _ => True) ctx.root opener) : DispatchCase ctx c command (withData c opener)

theorem onType_isAnswer (kind : String) : (onType kind).IsAnswer := by
  unfold onType
  split
  next => exact isAnswer_success (by decide) _
  next => exact isAnswer_failure (by decide) _

theorem dispatch_cases (ctx : Context) (hc : c.IsPlain) (command : Command) :
    DispatchCase ctx c command (dispatch ctx c command) := by
  have hkeeps : KeepsDataMode c c := ⟨hc, rfl⟩
  have hkept := keepsDataMode_kept c
  have hdone :
    ∀ {o : Outcome}, o.IsAnswer → Spares (AnswersKeeping (KeepsDataMode c)) (.done (c, o)) :=
    fun ho => ⟨hkeeps, ho⟩
  cases command with
  | user name =>
    refine .spares rfl (OnlyInternal.spares (onUser_onlyInternal hkeeps (fun name => ?_) name))
    exact ⟨hc.beginLogin name, rfl⟩
  | pass password =>
    refine .spares rfl
      (OnlyInternal.spares (onPass_onlyInternal hkeeps (fun identity => ?_) ?_ password))
    · exact ⟨hc.completeLogin identity, rfl⟩
    · exact ⟨hc.resetLogin, rfl⟩
  | cwd argument =>
    exact .spares rfl (OnlyFileCalls.spares (onCwd_onlyFileCalls hkept hkeeps argument))
  | cdup => exact .spares rfl (OnlyFileCalls.spares (onCwd_onlyFileCalls hkept hkeeps ".."))
  | mkd argument => exact .spares rfl (OnlyFileCalls.spares (onMkd_onlyFileCalls hc hkeeps argument))
  | rmd argument =>
    exact .spares rfl (OnlyFileCalls.spares (onRmd_onlyFileCalls hkept hkeeps argument))
  | dele argument =>
    exact .spares rfl (OnlyFileCalls.spares (onDele_onlyFileCalls hc hkeeps argument))
  | rnfr argument =>
    have hdrop := hkept.dropRename hkeeps
    refine .spares rfl
      (OnlyFileCalls.spares (onRnfr_onlyFileCalls hc hdrop (fun p hp => ?_) argument))
    exact hkept.stageRename hdrop hp
  | rnto argument =>
    exact .spares rfl (OnlyFileCalls.spares (onRnto_onlyFileCalls hkept hkeeps argument))
  | syst | noop => exact .spares rfl (hdone (isAnswer_success (by decide) _))
  | pwd => exact .spares rfl (hdone (isAnswer_success (by decide) _))
  | type kind => exact .spares rfl (hdone (onType_isAnswer kind))
  | unknown verb => exact .spares rfl (hdone (isAnswer_success (by decide) _))
  | port argument => exact .port argument
  | pasv => exact .pasv
  | abor => exact .abor
  | quit => exact .quit
  | list argument => exact .opens rfl (beginList_opens ctx argument)
  | retr argument => exact .opens rfl (beginRetr_opens ctx argument)
  | stor argument => exact .opens rfl (beginStor_opens ctx argument)

theorem conclude_spares (c : Client) (command : Command) (status : Status) :
    Spares (fun onward => onward = if status = .close then .stop else .goOn)
      (conclude c command status) := by
  cases status with
  | success => rfl
  | failure reason => exact Keeps.question ⟨rfl, rfl⟩ fun _ _ => rfl
  | close => exact Keeps.question ⟨rfl, rfl⟩ fun _ _ => rfl

/-- Questions that a command asks before its reply: it begins no transfer by itself. -/
def Request.PrecedesReply (q : Request) : Prop :=
  q.sparesControl = true ∧ ∀ transfer, q ≠ .install transfer

abbrev PrecedesReply (post : α → Prop) (p : Dialogue α) : Prop :=
  p.Keeps (fun _ _ => True) Request.PrecedesReply post

theorem Works.precedesReply {post : α → Prop} {p : Dialogue α} (h : Works (fun _ _ => True) post p) :
    PrecedesReply post p :=
  h.weaken (fun _ _ hr => hr) fun q hq => by
    cases q <;> first | exact False.elim hq | exact ⟨rfl, by simp⟩

theorem Spares.precedesReply {post : α → Prop} {p : Dialogue α} (h : Spares post p) :
    PrecedesReply post p :=
  h.weaken (fun _ _ hr => hr) fun q hq => by
    refine ⟨hq.2, ?_⟩
    rintro transfer rfl
    cases hq.1

abbrev Consistent (r : Client × Outcome) : Prop := r.2.IsConsistent

abbrev Unaborted (r : Client × Outcome) : Prop := r.2.IsUnaborted

theorem reapWorker_precedesReply (c : Client) : PrecedesReply (fun _ => True) (reapWorker c) :=
  Works.precedesReply (reapWorker_works trivial trivial)

theorem stopWorker_precedesReply (c : Client) : PrecedesReply (fun _ => True) (stopWorker c) :=
  Works.precedesReply (stopWorker_works trivial)

theorem startWorker_precedesReply (c : Client) (endpoint : Endpoint) (mode : DataMode) :
    PrecedesReply (fun _ => True) (Session.startWorker c endpoint mode) :=
  Works.precedesReply (startWorker_works (fun _ _ => trivial) trivial endpoint mode)

theorem note_precedesReply (record : Record) : PrecedesReply (fun _ => True) (note record) :=
  Keeps.question ⟨rfl, by simp⟩ fun _ _ => trivial

theorem gate_precedesReply {post : α → Prop} {k : Client → Bool → Dialogue α}
    (h : ∀ c busy, PrecedesReply post (k c busy)) :
    PrecedesReply post (reapWorker c >>= fun c => isInProgress >>= k c) :=
  (reapWorker_precedesReply c).bind fun c _ => Keeps.question ⟨rfl, by simp⟩ fun busy _ => h c busy

theorem onPort_precedesReply (c : Client) (argument : String) :
    PrecedesReply Unaborted (onPort c argument) := by
  refine gate_precedesReply fun c busy => ?_
  split
  next => exact (isAnswer_failure (by decide) _).isUnaborted
  next =>
    split
    next =>
      refine (note_precedesReply _).bind fun _ _ => ?_
      refine (startWorker_precedesReply c _ _).bind fun c _ => ?_
      exact (isAnswer_success (by decide) _).isUnaborted
    next =>
      refine (note_precedesReply _).bind fun _ _ => ?_
      exact (isAnswer_failure (by simp [IsAnswerCode, TransferError.code]) _).isUnaborted

theorem onPasv_precedesReply (ctx : Context) (c : Client) :
    PrecedesReply Unaborted (onPasv ctx c) := by
  refine gate_precedesReply fun c busy => ?_
  split
  next => exact (isAnswer_failure (by decide) _).isUnaborted
  next =>
    refine (stopWorker_precedesReply c).bind fun c _ => ?_
    refine (openListener_keeps ctx fun _ => ⟨rfl, by simp⟩).bind fun result hresult => ?_
    split
    next =>
      refine (note_precedesReply _).bind fun _ _ => ?_
      refine (startWorker_precedesReply c _ _).bind fun c _ => ?_
      exact (isAnswer_success (by decide) _).isUnaborted
    next e =>
      refine (note_precedesReply _).bind fun _ _ => ?_
      exact isUnaborted_close (.inr (hresult e rfl)) _

theorem onAbor_precedesReply (c : Client) : PrecedesReply Consistent (onAbor c) := by
  refine Keeps.question ⟨rfl, by simp⟩ fun busy _ => ?_
  split
  next =>
    refine (stopWorker_precedesReply c).bind fun c _ => ?_
    refine (note_precedesReply _).bind fun _ _ => ?_
    exact isConsistent_success (by decide) _
  next => exact (isAnswer_success (by decide) _).isConsistent

theorem onQuit_precedesReply (c : Client) : PrecedesReply Unaborted (onQuit c) :=
  (stopWorker_precedesReply c).bind fun _ _ => isUnaborted_close (.inl rfl) _

/-- The client as it was, or without its data mode. -/
def Reaps (c c' : Client) : Prop := c' = c ∨ c' = c.withMode .none

theorem Reaps.isPlain {c' : Client} (h : Reaps c c') (hc : c.IsPlain) : c'.IsPlain := by
  rcases h with rfl | rfl
  · exact hc
  · exact hc.withMode .none

theorem withData_precedesReply (hc : c.IsPlain) {root : String} {command : Client → Step}
    (h : Opens (fun _ _ => True) root command) : PrecedesReply Unaborted (withData c command) := by
  have hreaps : PrecedesReply Client.IsPlain (reapWorker c) :=
    Works.precedesReply (reapWorker_works hc (hc.withMode .none))
  refine hreaps.bind fun c hc => Keeps.question ⟨rfl, by simp⟩ fun busy _ => ?_
  split
  next => exact (note_precedesReply _).bind fun _ _ => isAnswer_ignored.isUnaborted
  next =>
    split
    next => exact (isAnswer_failure (by decide) _).isUnaborted
    next => exact (OnlyFileCalls.spares (h c hc)).precedesReply.mono fun r hr => hr.2.isUnaborted

theorem DispatchCase.precedesReply_of_ne_abor {command : Command} {step : Step}
    (h : DispatchCase ctx c command step)
    (hc : c.IsPlain) (hcommand : command ≠ .abor) : PrecedesReply Unaborted step := by
  cases h with
  | spares _ h => exact (Spares.precedesReply h).mono fun r hr => hr.2.isUnaborted
  | port argument => exact onPort_precedesReply c argument
  | pasv => exact onPasv_precedesReply ctx c
  | abor => exact absurd rfl hcommand
  | quit => exact onQuit_precedesReply c
  | opens _ h => exact withData_precedesReply hc h

theorem DispatchCase.precedesReply {command : Command} {step : Step}
    (h : DispatchCase ctx c command step)
    (hc : c.IsPlain) : PrecedesReply Consistent step := by
  by_cases hcommand : command = .abor
  · subst hcommand
    cases h with
    | spares hspares => cases hspares
    | abor => exact onAbor_precedesReply c
    | opens hopens => cases hopens
  · exact (h.precedesReply_of_ne_abor hc hcommand).mono fun r hr => hr.toIsConsistent

/-- What comes of a command tells by its code whether a transfer begins and whether the session
ends; before that nothing is sent and no transfer begins. -/
theorem perform_precedesReply (ctx : Context) (hc : c.IsPlain) (command : Command) :
    PrecedesReply Consistent (perform ctx c command) := by
  refine (note_precedesReply _).bind fun _ _ => ?_
  unfold handle
  split
  next => exact (isAnswer_failure (by decide) _).isConsistent
  next => exact (dispatch_cases ctx hc command).precedesReply hc

end Session

end FtpServer
