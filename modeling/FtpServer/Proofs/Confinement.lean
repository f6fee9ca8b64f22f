import FtpServer.Proofs.FileCommands
import FtpServer.Proofs.Workers

/-!
# Confinement

Every command of a session, and with it the whole session, names only places below the root by
plain names.  Only logging in touches what a client has earned.
-/

namespace FtpServer

open Program Dialogue

namespace Client

/-- A property that no command but those of the login takes from a client. -/
structure Holds (Φ : Client → Prop) : Prop extends Kept Φ where
  withMode : ∀ {c} mode, Φ c → Φ (c.withMode mode)

theorem holds_isPlain : Holds IsPlain where
  toKept := kept_isPlain
  withMode mode hc := hc.withMode mode

end Client

def Command.isLogin : Command → Bool
  | .user _ | .pass _ => true
  | _ => false

namespace Session

variable {ctx : Context} {c : Client} {α : Type} {Φ : Client → Prop}
variable {allowed : (call : FileCall) → call.Answer → Prop} {root : String}
variable {guard : Request → Prop}

/-- The dialogue names only permitted places, whatever the host answers, and its result satisfies
`post`. -/
abbrev Confines (allowed : (call : FileCall) → call.Answer → Prop) (root : String)
    (post : α → Prop) (p : Dialogue α) : Prop :=
  p.Keeps (Request.allowing allowed) (Request.Permitted allowed root) post

abbrev LeavesWith (Φ : Client → Prop) (r : Client × Outcome) : Prop := Φ r.1

theorem OnlyFileCalls.keeps {post post' : α → Prop} {p : Dialogue α}
    (h : OnlyFileCalls allowed root post p)
    (hfiles : ∀ q, q.IsFileCall allowed root → guard q) (hpost : ∀ a, post a → post' a) :
    p.Keeps (Request.allowing allowed) guard post' :=
  (h.weaken (fun _ _ hr => hr) hfiles).mono hpost

theorem Works.keeps {post post' : α → Prop} {p : Dialogue α}
    (h : Works (Request.allowing allowed) post p) (hwork : ∀ q, q.IsWork → guard q)
    (hpost : ∀ a, post a → post' a) : p.Keeps (Request.allowing allowed) guard post' :=
  (h.weaken (fun _ _ hr => hr) hwork).mono hpost

theorem OnlyFileCalls.confines {post post' : α → Prop} {p : Dialogue α}
    (h : OnlyFileCalls allowed root post p) (hpost : ∀ a, post a → post' a) :
    Confines allowed root post' p := h.keeps (fun _ hq => hq.permitted) hpost

theorem OnlyControl.confines {post post' : α → Prop} {p : Dialogue α}
    (h : OnlyControl (Request.allowing allowed) post p) (hpost : ∀ a, post a → post' a) :
    Confines allowed root post' p :=
  (h.weaken (fun _ _ hr => hr) fun q hq => by cases q <;> trivial).mono hpost

theorem Works.confines {post post' : α → Prop} {p : Dialogue α}
    (h : Works (Request.allowing allowed) post p) (hpost : ∀ a, post a → post' a) :
    Confines allowed root post' p := h.keeps (fun q hq => by cases q <;> trivial) hpost

theorem withData_keeps (hΦ : Client.Holds Φ) (hc : Φ c) (hwork : ∀ q, q.IsWork → guard q)
    (hfiles : ∀ q, q.IsFileCall allowed root → guard q) {command : Client → Step}
    (h : Opens allowed root command) :
    (withData c command).Keeps (Request.allowing allowed) guard (LeavesWith Φ) := by
  have hreap : (reapWorker c).Keeps (Request.allowing allowed) guard Φ :=
    Works.keeps (reapWorker_works hc (hΦ.withMode .none hc)) hwork fun _ h => h
  refine hreap.bind fun c hc => ?_
  refine Keeps.question (hwork _ trivial) fun busy _ => ?_
  split
  next => exact Keeps.question (hwork _ trivial) fun _ _ => hc
  next =>
    split
    next => exact hc
    next =>
      refine OnlyFileCalls.keeps (h c (hΦ.isPlain hc)) hfiles fun r hr => ?_
      rw [LeavesWith, hr.1]
      exact hc

/-- Every command but those of the login asks about workers, or calls permitted places, and what
holds of the client goes on to hold. -/
theorem dispatch_keeps (hΦ : Client.Holds Φ) (hc : Φ c) (hwork : ∀ q, q.IsWork → guard q)
    (hfiles : ∀ q, q.IsFileCall allowed ctx.root → guard q) {command : Command}
    (hlogin : command.isLogin = false) :
    (dispatch ctx c command).Keeps (Request.allowing allowed) guard (LeavesWith Φ) := by
  have hquietly : ∀ {step : Step}, OnlyFileCalls allowed ctx.root (AnswersKeeping Φ) step →
      step.Keeps (Request.allowing allowed) guard (LeavesWith Φ) :=
    fun h => OnlyFileCalls.keeps h hfiles fun r hr => hr.1
  have hplain := hΦ.isPlain hc
  cases command with
  | user name | pass password => cases hlogin
  | port argument =>
    exact Works.keeps (onPort_works hΦ.withMode hc argument) hwork fun r hr => hr.1
  | pasv => exact Works.keeps (onPasv_works hΦ.withMode hc ctx) hwork fun r hr => hr.1
  | cwd argument => exact hquietly (onCwd_onlyFileCalls hΦ.toKept hc argument)
  | cdup => exact hquietly (onCwd_onlyFileCalls hΦ.toKept hc "..")
  | mkd argument => exact hquietly (onMkd_onlyFileCalls hplain hc argument)
  | rmd argument => exact hquietly (onRmd_onlyFileCalls hΦ.toKept hc argument)
  | dele argument => exact hquietly (onDele_onlyFileCalls hplain hc argument)
  | rnfr argument =>
    have hdrop := hΦ.dropRename hc
    exact hquietly (onRnfr_onlyFileCalls hplain hdrop (fun p hp => hΦ.stageRename hdrop hp) argument)
  | rnto argument => exact hquietly (onRnto_onlyFileCalls hΦ.toKept hc argument)
  | list argument => exact withData_keeps hΦ hc hwork hfiles (beginList_opens ctx argument)
  | retr argument => exact withData_keeps hΦ hc hwork hfiles (beginRetr_opens ctx argument)
  | stor argument => exact withData_keeps hΦ hc hwork hfiles (beginStor_opens ctx argument)
  | abor => exact Works.keeps (onAbor_works hΦ.withMode hc) hwork fun r hr => hr
  | quit => exact Works.keeps (onQuit_works hΦ.withMode hc) hwork fun r hr => hr
  | syst | noop => exact hc
  | type kind => exact hc
  | pwd => exact hc
  | unknown verb => exact hc

/-- Every command but those of the login names only permitted places, and what holds of the client
goes on to hold. -/
theorem dispatch_confines (hΦ : Client.Holds Φ) (hc : Φ c) {command : Command}
    (hlogin : command.isLogin = false) :
    Confines allowed ctx.root (LeavesWith Φ) (dispatch ctx c command) :=
  dispatch_keeps hΦ hc (fun q hq => by cases q <;> trivial) (fun _ hq => hq.permitted) hlogin

/-- Every command names only permitted places and leaves plain paths behind. -/
theorem handle_confines (hc : c.IsPlain) (command : Command) :
    Confines allowed ctx.root (LeavesWith Client.IsPlain) (handle ctx c command) := by
  unfold handle
  split
  next => exact hc
  next =>
    cases hlogin : command.isLogin with
    | false => exact dispatch_confines Client.holds_isPlain hc hlogin
    | true =>
      cases command with
      | user name =>
        exact OnlyControl.confines (OnlyInternal.onlyControl
          (onUser_onlyInternal hc (fun name => hc.beginLogin name) name))
          fun r hr => hr.1
      | pass password =>
        exact OnlyControl.confines (OnlyInternal.onlyControl (onPass_onlyInternal hc
          (fun identity => hc.completeLogin identity) hc.resetLogin password)) fun r hr => hr.1
      | _ => cases hlogin

theorem onCommand_confines (hc : c.IsPlain) (command : Command) :
    Confines allowed ctx.root (fun r => r.1.IsPlain) (onCommand ctx c command) := by
  rw [onCommand_eq]
  have hperform : Confines allowed ctx.root (LeavesWith Client.IsPlain) (perform ctx c command) :=
    Keeps.question trivial fun _ _ => handle_confines hc command
  refine hperform.bind fun r hr => ?_
  have hdeliver : Confines allowed ctx.root (fun _ => True) (deliver r.1 command r.2) :=
    deliver_keeps r.1 command (fun q hq => by cases q <;> trivial) fun _ _ => trivial
  exact hdeliver.bind fun _ _ => hr

theorem onIncoming_confines (hc : c.IsPlain) (line : Line.Incoming) :
    Confines allowed ctx.root (fun r => r.1.IsPlain) (onIncoming ctx c line) := by
  have hrefuse : ∀ (record : Record) (reply : Reply), Confines allowed ctx.root
      (fun r => r.1.IsPlain) (do note record; return (c, ← sendOrStop reply)) := fun _ reply => by
    refine Keeps.question trivial fun _ _ => ?_
    exact (OnlyControl.confines (sendOrStop_onlyControl reply) fun _ h => h).bind fun _ _ => hc
  unfold onIncoming
  split
  next => exact Keeps.question trivial fun _ _ => hc
  next => exact hrefuse _ _
  next =>
    split
    next command _ => exact onCommand_confines hc command
    next => exact hrefuse _ _

theorem answer_confines (hc : c.IsPlain) (lines : List Line.Incoming) :
    Confines allowed ctx.root Client.IsPlain (answer ctx c lines) := by
  induction lines generalizing c with
  | nil => exact hc
  | cons line rest ih =>
    refine (onIncoming_confines hc line).bind fun r hr => ?_
    dsimp only
    split
    next => exact ih hr
    next => exact hr

theorem close_confines (hc : c.IsPlain) :
    Confines allowed root (fun _ => True) (close c) := by
  have hstop : Confines allowed root Client.IsPlain (stopWorker c) :=
    Works.confines (stopWorker_works (hc.withMode .none)) fun _ h => h
  refine hstop.bind fun c _ => ?_
  refine Keeps.question trivial fun _ _ => ?_
  refine Keeps.question trivial fun _ _ => ?_
  refine Keeps.question trivial fun _ _ => ?_
  refine Keeps.question trivial fun _ _ => ?_
  refine Keeps.question trivial fun _ _ => ?_
  exact Keeps.question trivial fun _ _ => trivial

theorem serve_confines (ctx : Context) (address : Socket) (lines : List Line.Incoming) :
    Confines allowed ctx.root (fun _ => True) (serve ctx address lines) := by
  refine (OnlyControl.confines (send_onlyControl _) fun _ h => h).bind fun result _ => ?_
  split
  next => trivial
  next =>
    refine (answer_confines (Client.connect_isPlain address) lines).bind fun c hc => ?_
    exact (close_confines hc).bind fun _ _ => trivial

end Session

end FtpServer
