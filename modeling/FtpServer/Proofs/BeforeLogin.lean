import FtpServer.Proofs.Delivery
import FtpServer.Proofs.Trace

/-!
# Before the login

A client that is not logged in can ask for its login, for an answer, and for the end; nothing of it
reaches the host or the transfer slot, and what needs a login is refused.
-/

namespace FtpServer

open Program Dialogue

namespace Client

structure IsFresh (c : Client) : Prop where
  directory : c.directory = Path.root
  renameSource : c.renameSource = none
  dataMode : c.dataMode = .none

theorem connect_isFresh (address : Socket) : (connect address).IsFresh := ⟨rfl, rfl, rfl⟩

variable {c : Client}

theorem IsFresh.beginLogin (hc : c.IsFresh) (name : Option String) : (c.beginLogin name).IsFresh :=
  ⟨hc.directory, hc.renameSource, hc.dataMode⟩

theorem IsFresh.completeLogin (hc : c.IsFresh) (identity : String) :
    (c.completeLogin identity).IsFresh := ⟨hc.directory, hc.renameSource, hc.dataMode⟩

theorem IsFresh.resetLogin (hc : c.IsFresh) : c.resetLogin.IsFresh :=
  ⟨hc.directory, hc.renameSource, hc.dataMode⟩

theorem IsFresh.withoutMode (hc : c.IsFresh) : (c.withMode .none).IsFresh :=
  ⟨hc.directory, hc.renameSource, rfl⟩

end Client

namespace Request

/-- Questions that leave a slot without a worker as it is, and the tree. -/
def IsIdle : Request → Prop
  | .authenticate _ _ | .pause _ | .note _ | .letGoWorker | .isInProgress | .lockControl
  | .writeReply _ | .unlockControl => True
  | _ => False

def idly : (q : Request) → q.Answer → Prop
  | .letGoWorker, r => r = none
  | .isInProgress, r => r = false
  | _, _ => True

end Request

namespace Session

variable {ctx : Context} {c : Client} {α : Type}

abbrev Idles (post : α → Prop) (p : Dialogue α) : Prop :=
  p.Keeps Request.idly Request.IsIdle post

theorem OnlyControl.idles {post : α → Prop} {p : Dialogue α} (h : OnlyControl Request.idly post p) :
    Idles post p :=
  h.weaken (fun _ _ hr => hr) fun q hq => by cases q <;> trivial

abbrev StaysFresh (r : Client × Outcome) : Prop := r.1.IsFresh ∧ r.2.transfer = none

theorem stopWorker_idles (hc : c.IsFresh) : Idles Client.IsFresh (stopWorker c) := by
  refine Keeps.question trivial fun (held : Option Nat) hheld => ?_
  obtain rfl : held = none := hheld
  exact hc.withoutMode

theorem onAbor_idles (hc : c.IsFresh) : Idles StaysFresh (onAbor c) := by
  refine Keeps.question trivial fun (busy : Bool) hbusy => ?_
  obtain rfl : busy = false := hbusy
  exact ⟨hc, rfl⟩

/-- Until the login, the client stays fresh, and what needs a login is refused. -/
theorem handle_idles (ctx : Context) (hc : c.IsFresh) (hstage : c.stage ≠ .ready)
    (command : Command) :
    Idles (fun r => StaysFresh r ∧
      (command.requiresLogin = true → r.2.reply.map Reply.code = some 530))
      (handle ctx c command) := by
  have hout : c.isLoggedIn = false := by simpa [Client.isLoggedIn] using hstage
  unfold handle
  split
  next => exact ⟨⟨hc, rfl⟩, fun _ => rfl⟩
  next hgate =>
    have hfree : command.requiresLogin = false := by simpa [hout] using hgate
    have hinternal : ∀ {step : Step}, OnlyInternal Request.idly (AnswersKeeping Client.IsFresh) step →
        Idles StaysFresh step := fun hstep =>
      (OnlyControl.idles hstep.onlyControl).mono fun r hr => ⟨hr.1, hr.2.transfer⟩
    have hfresh : Idles StaysFresh (dispatch ctx c command) := by
      cases command with
      | user name => exact hinternal (onUser_onlyInternal hc (fun name => hc.beginLogin name) name)
      | pass password =>
        exact hinternal (onPass_onlyInternal hc (fun identity => hc.completeLogin identity)
          hc.resetLogin password)
      | abor => exact onAbor_idles hc
      | quit => exact (stopWorker_idles hc).bind fun c hc => ⟨hc, rfl⟩
      | syst | noop => exact ⟨hc, rfl⟩
      | type kind =>
        refine ⟨hc, ?_⟩
        unfold onType
        dsimp only
        split <;> rfl
      | unknown verb => exact ⟨hc, rfl⟩
      | _ => cases hfree
    refine hfresh.mono fun r hr => ⟨hr, fun hneeds => ?_⟩
    rw [hfree] at hneeds
    cases hneeds

end Session

namespace Scene

/-- Nobody serves the slot or ever did, and nothing has come of it. -/
structure IsIdle (s₀ s : Scene) : Prop where
  slot : s.shared.slot = s₀.shared.slot
  tree : s.shared.tree = s₀.shared.tree
  handle : s₀.shared.slot.handle = none
  workers : s.workers = []
  held : s.held = none

variable {s₀ s s' : Scene}

theorem IsIdle.pass (h : IsIdle s₀ s) (ms : Nat) : IsIdle s₀ (s.pass ms) :=
  ⟨h.slot, h.tree, h.handle, h.workers, h.held⟩

theorem IsIdle.move (h : IsIdle s₀ s) {number : Nat} {m : Worker.Move}
    (hmove : s.moveWorker? number m = some s') : IsIdle s₀ s' := by
  simp [moveWorker?, h.workers] at hmove

theorem IsIdle.perform (h : IsIdle s₀ s) {q : Request} (hq : q.IsIdle) {r : q.Answer}
    (hanswer : s.perform? q = some (r, s')) : Request.idly q r ∧ IsIdle s₀ s' := by
  cases q with
  | letGoWorker =>
    obtain ⟨rfl, rfl⟩ := Prod.mk.inj (Option.some.inj hanswer)
    exact ⟨h.held, h.slot, h.tree, h.handle, h.workers, rfl⟩
  | isInProgress =>
    obtain ⟨rfl, rfl⟩ := Prod.mk.inj (Option.some.inj hanswer)
    have hnone : s.shared.slot.inProgress = false := by
      rw [h.slot, Slot.inProgress, h.handle]
      rfl
    exact ⟨hnone, h⟩
  | lockControl =>
    obtain ⟨control, -, heq⟩ := Option.map_eq_some_iff.1 hanswer
    obtain ⟨rfl, rfl⟩ := Prod.mk.inj heq
    exact ⟨trivial, h.slot, h.tree, h.handle, h.workers, h.held⟩
  | authenticate | pause | note | writeReply | unlockControl =>
    obtain ⟨rfl, rfl⟩ := Prod.mk.inj (Option.some.inj hanswer)
    exact ⟨trivial, h.slot, h.tree, h.handle, h.workers, h.held⟩
  | _ => cases hq

end Scene

end FtpServer
