import FtpServer.Proofs.Rules
import FtpServer.Session.Data

/-!
# What a session asks of its workers

`PORT`, `PASV`, `ABOR` and `QUIT` ask for workers, listeners and the log, and look at the slot; they
install nothing, and the first two are refused as untimely only while a transfer is in progress.
-/

namespace FtpServer

open Program Dialogue

/-- Questions about workers, what they serve, listeners and the log; none of them installs a
transfer. -/
def Request.IsWork : Request → Prop
  | .note _ | .listen _ | .holdsWorker | .letGoWorker | .joinWorker _ | .startWorker _
  | .isInProgress | .isArmed | .cancel | .finish | .rearm => True
  | _ => False

namespace Session

variable {ctx : Context} {c : Client} {α : Type} {Φ : Client → Prop}
variable {allowed : (q : Request) → q.Answer → Prop}

abbrev Works (allowed : (q : Request) → q.Answer → Prop) (post : α → Prop) (p : Dialogue α) :
    Prop :=
  p.Keeps allowed Request.IsWork post

/-- The client is left with `Φ`, and was refused as untimely only if a transfer was in progress. -/
def Timely (allowed : (q : Request) → q.Answer → Prop) (Φ : Client → Prop)
    (r : Client × Outcome) : Prop :=
  Φ r.1 ∧ (r.2.reply.map Reply.code = some 503 → allowed .isInProgress true)

theorem openListener_keeps (ctx : Context) {guard : Request → Prop}
    (hlisten : ∀ ip, guard (.listen ip)) :
    (openListener ctx).Keeps allowed guard fun r => ∀ e, r = .error e → e.code = 421 := by
  unfold openListener Endpoint.listenAddress
  cases ctx.control.ip.canonical with
  | v6 => simp [TransferError.code]
  | v4 ip =>
    refine Keeps.question (hlisten ip) fun result _ => ?_
    cases result <;> simp [TransferError.code]

theorem reapWorker_works (hc : Φ c) (hmode : Φ (c.withMode .none)) :
    Works allowed Φ (reapWorker c) := by
  refine Keeps.question trivial fun held _ => ?_
  split
  next =>
    refine Keeps.question trivial fun armed _ => ?_
    split
    next => exact hc
    next => exact Keeps.question trivial fun _ _ => hmode
  next => exact hc

theorem stopWorker_works (hmode : Φ (c.withMode .none)) : Works allowed Φ (stopWorker c) := by
  refine Keeps.question trivial fun held _ => ?_
  cases held with
  | none => exact hmode
  | some number =>
    refine Keeps.question trivial fun _ _ => ?_
    refine Keeps.question trivial fun _ _ => ?_
    exact Keeps.question trivial fun _ _ => hmode

section Modes

variable (hmode : ∀ {c} mode, Φ c → Φ (c.withMode mode)) (hc : Φ c)

include hmode hc

theorem startWorker_works (endpoint : Endpoint) (mode : DataMode) :
    Works allowed Φ (Session.startWorker c endpoint mode) := by
  refine (stopWorker_works (hmode .none hc)).bind fun c hc => ?_
  refine Keeps.question trivial fun _ _ => ?_
  exact Keeps.question trivial fun _ _ => hmode mode hc

theorem onPort_works (argument : String) :
    Works allowed (Timely allowed Φ) (onPort c argument) := by
  refine (reapWorker_works hc (hmode .none hc)).bind fun c hc => ?_
  refine Keeps.question trivial fun (inProgress : Bool) hanswer => ?_
  split
  next hbusy => exact ⟨hc, fun _ => hbusy ▸ hanswer⟩
  next =>
    split
    next address _ =>
      refine Keeps.question trivial fun _ _ => ?_
      refine (startWorker_works hmode hc _ _).bind fun c hc => ⟨hc, fun h => ?_⟩
      simp [Outcome.success] at h
    next =>
      refine Keeps.question trivial fun _ _ => ⟨hc, fun h => ?_⟩
      simp [Outcome.failure, TransferError.code] at h

theorem onPasv_works (ctx : Context) : Works allowed (Timely allowed Φ) (onPasv ctx c) := by
  refine (reapWorker_works hc (hmode .none hc)).bind fun c hc => ?_
  refine Keeps.question trivial fun (inProgress : Bool) hanswer => ?_
  split
  next hbusy => exact ⟨hc, fun _ => hbusy ▸ hanswer⟩
  next =>
    refine (stopWorker_works (hmode .none hc)).bind fun c hc => ?_
    refine (openListener_keeps ctx fun _ => trivial).bind fun result hresult => ?_
    split
    next address =>
      refine Keeps.question trivial fun _ _ => ?_
      refine (startWorker_works hmode hc _ _).bind fun c hc => ⟨hc, fun h => ?_⟩
      simp [Outcome.success] at h
    next e =>
      refine Keeps.question trivial fun _ _ => ⟨hc, fun h => ?_⟩
      have hcode := hresult e rfl
      simp [Outcome.close, hcode] at h

theorem onAbor_works : Works allowed (fun r => Φ r.1) (onAbor c) := by
  refine Keeps.question trivial fun inProgress _ => ?_
  split
  next =>
    refine (stopWorker_works (hmode .none hc)).bind fun c hc => ?_
    exact Keeps.question trivial fun _ _ => hc
  next => exact hc

theorem onQuit_works : Works allowed (fun r => Φ r.1) (onQuit c) :=
  (stopWorker_works (hmode .none hc)).bind fun _ hc => hc

end Modes

end Session

end FtpServer
