import FtpServer.Proofs.Frame
import FtpServer.Proofs.Replay
import FtpServer.Proofs.Tree.RootKept

/-!
# Sessions stay below their root

Whole sessions, against any host and in any interleaving with their workers: every place is the
root followed by plain names, and the directory that the root names stays what it is.
-/

namespace FtpServer

open Program

namespace Scene

variable {before : Tree} {k : Key} {root : String} {s s' : Scene}

theorem keepsRoot_move (h : before.KeepsRoot k s.shared.tree) {number : Nat} {m : Worker.Move}
    (hmove : s.moveWorker? number m = some s') : before.KeepsRoot k s'.shared.tree := by
  obtain ⟨w, w', shared, -, hw, rfl⟩ := exists_of_moveWorker hmove
  obtain ⟨contents, -, htree⟩ := Worker.tree_of_move hw
  dsimp only
  rw [htree]
  exact h.setContents contents

theorem keepsRoot_performFile (h : before.KeepsRoot k s.shared.tree) (hroot : before.RootAt root k)
    {call : FileCall} (hcall : call.Permitted Tree.SeesRoot root) :
    Tree.SeesRoot call (s.performFile call).1 ∧
      before.KeepsRoot k (s.performFile call).2.shared.tree :=
  h.perform hroot hcall

/-- A permitted question gets an answer that sees the root, and the root is kept. -/
theorem keepsRoot_perform (h : before.KeepsRoot k s.shared.tree) (hroot : before.RootAt root k)
    {q : Request} (hq : q.Permitted Tree.SeesRoot root) {r : q.Answer}
    (hanswer : s.perform? q = some (r, s')) :
    Request.allowing Tree.SeesRoot q r ∧ before.KeepsRoot k s'.shared.tree := by
  cases q with
  | file call =>
    have hkeeps := keepsRoot_performFile h hroot hq
    have hsame : s.performFile call = (r, s') := Option.some.inj hanswer
    rwa [hsame] at hkeeps
  | _ =>
    refine ⟨trivial, ?_⟩
    rw [(frame_of_perform hanswer).2 (by simp)]
    exact h

/-- A session that makes only permitted calls keeps the root, wherever its run has come to. -/
theorem Steps.keepsRoot {α : Type} {p p' : Dialogue α} {post : α → Prop}
    (h : Steps (p, s) (p', s')) (hroot : s.shared.tree.RootAt root k)
    (hp : Session.Confines Tree.SeesRoot root post p) :
    s.shared.tree.KeepsRoot k s'.shared.tree := by
  have hkeeps := h.keeps (I := fun t => s.shared.tree.KeepsRoot k t.shared.tree) hp hroot.keepsRoot
    (fun q r t t' hq ht hanswer => keepsRoot_perform ht hroot hq hanswer)
    (fun t t' number m ht hmove => keepsRoot_move ht hmove) (fun t ms ht => ht)
  exact hkeeps.2

end Scene

namespace Session

/-- Every place that a session names lies below its root by plain names, whatever it is told and
whatever the host answers.  Where the root is a directory without links at or below it, every name
that does not lie strictly below it leads for ever to what it led to, the root's own among them. -/
theorem serve_stays_below_root (ctx : Context) (address : Socket) (lines : List Line.Incoming) :
    (serve ctx address lines).Asks
      (fun q => ∀ call, q = .file call → ∀ p ∈ call.places, p.Confined ctx.root) ∧
    ∀ (s : Scene) (k : Key), s.shared.tree.RootAt ctx.root k →
      ∀ p' s', Scene.Steps (serve ctx address lines, s) (p', s') →
        s'.shared.tree.isDirectory k ∧
        ∀ key, ¬ (k <+: key ∧ key ≠ k) →
          s'.shared.tree.find? key = s.shared.tree.find? key := by
  constructor
  · have hconfines : Confines (fun _ _ => True) ctx.root (fun _ => True) (serve ctx address lines) :=
      serve_confines ctx address lines
    have hasks := hconfines.asks fun q _ => by cases q <;> trivial
    refine hasks.mono fun q hq call hcall => ?_
    subst hcall
    exact hq.1
  · intro s k hroot p' s' hsteps
    have hkeeps := hsteps.keepsRoot hroot (serve_confines ctx address lines)
    exact ⟨hkeeps.isDirectory hroot.isDirectory, hkeeps.find?_eq⟩

def oneDirectory : Tree := Tree.bare.put [Text.encode "srv"] ⟨.directory, Tree.directoryMode, 0⟩

theorem oneDirectory_rootAt : oneDirectory.RootAt "/srv" [Text.encode "srv"] := by
  refine ⟨⟨⟨.directory, Tree.directoryMode, 0⟩, rfl⟩, by decide +kernel, fun key e he _ => ?_⟩
  rcases List.mem_cons.1 he with heq | hnone
  · obtain ⟨-, rfl⟩ := Prod.mk.inj heq
    decide
  · cases hnone

/-- A directory is asked for above the root, and is made in it. -/
theorem serve_stays_below_root_making_directory :
    ∃ p' s', Scene.Steps (serve (Scene.usualContext "/srv") Scene.loopback
        [.line "USER anonymous", .line "PASS guest", .line "MKD ../../pub"],
        Scene.start oneDirectory {}) (p', s') ∧
      s'.shared.tree.isDirectory [Text.encode "srv", Text.encode "pub"] ∧
      s'.shared.tree.isDirectory [Text.encode "srv"] ∧
      s'.shared.tree.find? [Text.encode "pub"] = none := by
  have hrun : (Scene.replay Scene.plainly (List.replicate 14 .session)
      (serve (Scene.usualContext "/srv") Scene.loopback
        [.line "USER anonymous", .line "PASS guest", .line "MKD ../../pub"],
        Scene.start oneDirectory {})).any (fun r =>
          r.2.2.shared.tree.isDirectory [Text.encode "srv", Text.encode "pub"]) = true := by
    decide +kernel
  obtain ⟨τ, ⟨p, s⟩, hτ, hmade⟩ := Scene.traced_of_any hrun
  obtain ⟨hroot, hkept⟩ :=
    (serve_stays_below_root _ _ _).2 _ _ oneDirectory_rootAt _ _ hτ.steps
  exact ⟨p, s, hτ.steps, hmade, hroot, hkept _ (by decide)⟩

end Session

end FtpServer
