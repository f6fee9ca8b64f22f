import FtpServer.Proofs.Outcomes
import FtpServer.Proofs.Rules
import FtpServer.Session.Serve

/-!
# Login and delivery

Logging in and sending replies concern neither the host's files nor the transfer slot; only the
delivery of a transfer does.
-/

namespace FtpServer

open Program Dialogue Outcome

/-- Questions about passwords, the control connection, the log and time. -/
def Request.IsControl : Request → Prop
  | .authenticate _ _ | .pause _ | .note _ | .lockControl | .writeReply _ | .unlockControl => True
  | _ => False

/-- Questions about passwords, the log and time. -/
def Request.IsInternal : Request → Prop
  | .authenticate _ _ | .pause _ | .note _ => True
  | _ => False

namespace Session

variable {ctx : Context} {c : Client} {α : Type} {Φ : Client → Prop}
variable {allowed : (q : Request) → q.Answer → Prop}

abbrev OnlyControl (allowed : (q : Request) → q.Answer → Prop) (post : α → Prop) (p : Dialogue α) :
    Prop :=
  p.Keeps allowed Request.IsControl post

abbrev OnlyInternal (allowed : (q : Request) → q.Answer → Prop) (post : α → Prop) (p : Dialogue α) :
    Prop :=
  p.Keeps allowed Request.IsInternal post

theorem OnlyInternal.onlyControl {post : α → Prop} {p : Dialogue α}
    (h : OnlyInternal allowed post p) :
    OnlyControl allowed post p :=
  h.weaken (fun _ _ hr => hr) fun q hq => by cases q <;> trivial

abbrev AnswersKeeping (Φ : Client → Prop) (r : Client × Outcome) : Prop := Φ r.1 ∧ r.2.IsAnswer

theorem refuseLogin_onlyInternal {post : Client × Outcome → Prop} {e : LoginError}
    (h : post (c, .failure e.code e.replyText)) :
    OnlyInternal allowed post (refuseLogin ctx c e) := by
  refine Keeps.question trivial fun _ _ => ?_
  dsimp only
  split
  next => exact Keeps.question trivial fun _ _ => h
  next => exact h

theorem onUser_onlyInternal (hc : Φ c) (hbegin : ∀ username, Φ (c.beginLogin username))
    (name : String) :
    OnlyInternal allowed (AnswersKeeping Φ) (onUser ctx c name) := by
  unfold onUser
  split
  next => exact refuseLogin_onlyInternal ⟨hc, isAnswer_failure (LoginError.isAnswerCode _) _⟩
  next =>
    split
    next => exact refuseLogin_onlyInternal ⟨hc, isAnswer_failure (LoginError.isAnswerCode _) _⟩
    next =>
      split
      next => exact ⟨hbegin none, isAnswer_success (by decide) _⟩
      next => exact ⟨hbegin (some name), isAnswer_success (by decide) _⟩

theorem identify_onlyInternal (ctx : Context) (c : Client) (password : String) :
    OnlyInternal allowed (fun _ => True) (identify ctx c password) := by
  unfold identify
  split
  next => trivial
  next =>
    refine Keeps.question trivial fun accepted _ => ?_
    split <;> trivial

theorem onPass_onlyInternal (hc : Φ c) (hcomplete : ∀ identity, Φ (c.completeLogin identity))
    (hreset : Φ c.resetLogin) (password : String) :
    OnlyInternal allowed (AnswersKeeping Φ) (onPass ctx c password) := by
  unfold onPass
  split
  next => exact refuseLogin_onlyInternal ⟨hc, isAnswer_failure (LoginError.isAnswerCode _) _⟩
  next =>
    refine (identify_onlyInternal ctx c password).bind fun result _ => ?_
    split
    next identity =>
      exact Keeps.question trivial fun _ _ => ⟨hcomplete identity, isAnswer_success (by decide) _⟩
    next => exact refuseLogin_onlyInternal ⟨hreset, isAnswer_failure (LoginError.isAnswerCode _) _⟩

theorem send_onlyControl (reply : Reply) : OnlyControl allowed (fun _ => True) (send reply) := by
  refine Keeps.question trivial fun _ _ => ?_
  refine Keeps.question trivial fun result _ => ?_
  exact Keeps.question trivial fun _ _ => trivial

theorem sendOrStop_onlyControl (reply : Reply) :
    OnlyControl allowed (fun _ => True) (sendOrStop reply) := by
  refine (send_onlyControl reply).bind fun result _ => ?_
  split <;> trivial

theorem sendOutcome_onlyControl (c : Client) (o : Outcome) :
    OnlyControl allowed (fun _ => True) (sendOutcome c o) := by
  unfold sendOutcome
  split
  next => trivial
  next reply _ =>
    refine (send_onlyControl reply).bind fun result _ => ?_
    split
    next => trivial
    next => exact Keeps.question trivial fun _ _ => trivial

theorem conclude_onlyControl (c : Client) (command : Command) (status : Status) :
    OnlyControl allowed (fun _ => True) (conclude c command status) := by
  cases status with
  | success => trivial
  | failure reason => exact Keeps.question trivial fun _ _ => trivial
  | close => exact Keeps.question trivial fun _ _ => trivial

/-- The reply of a command, the beginning of its transfer, and a word for the log. -/
def deliver (c : Client) (command : Command) (o : Outcome) : Dialogue Onward := do
  match ← sendOutcome c o with
  | .stop => return .stop
  | .goOn =>
    match o.transfer with
    | some transfer => install transfer
    | none => pure ()
    conclude c command o.status

def perform (ctx : Context) (c : Client) (command : Command) : Step := do
  note (.executed c.address command)
  handle ctx c command

theorem onCommand_eq (ctx : Context) (c : Client) (command : Command) :
    onCommand ctx c command = (do
      let (c, o) ← perform ctx c command
      return (c, ← deliver c command o)) := by
  unfold onCommand deliver perform
  rw [bind_assoc]
  refine congrArg (note _ >>= ·) (funext fun _ => congrArg (handle ctx c command >>= ·) ?_)
  funext r
  obtain ⟨c, o⟩ := r
  dsimp only
  rw [bind_assoc]
  refine congrArg (sendOutcome c o >>= ·) (funext fun onward => ?_)
  cases onward with
  | stop => rfl
  | goOn => cases o.transfer <;> simp only [bind_assoc]

/-- Delivering concerns the control connection and the log, but for the transfer that it installs. -/
theorem deliver_keeps {guard : Request → Prop} (c : Client) (command : Command) {o : Outcome}
    (hcontrolled : ∀ q, q.IsControl → guard q)
    (hinstall : ∀ transfer, o.transfer = some transfer → guard (.install transfer)) :
    (deliver c command o).Keeps allowed guard fun _ => True := by
  have hkeeps : ∀ {α : Type} {post : α → Prop} {p : Dialogue α}, OnlyControl allowed post p →
      p.Keeps allowed guard post := fun h => h.weaken (fun _ _ hr => hr) hcontrolled
  refine (hkeeps (sendOutcome_onlyControl c o)).bind fun onward _ => ?_
  cases onward with
  | stop => trivial
  | goOn =>
    have hconclude := hkeeps (conclude_onlyControl c command o.status)
    dsimp only
    split
    next transfer htransfer => exact Keeps.question (hinstall transfer htransfer) fun _ _ => hconclude
    next => exact hconclude

theorem deliver_onlyControl {o : Outcome} (command : Command) (ho : o.transfer = none) :
    OnlyControl allowed (fun _ => True) (deliver c command o) :=
  deliver_keeps c command (fun _ hq => hq) fun transfer htransfer => by
    rw [ho] at htransfer
    cases htransfer

end Session

end FtpServer
