import FtpServer.Proofs.PlainPaths
import FtpServer.Proofs.Delivery

/-!
# File commands

Whatever the answers of the host are, file commands name only places that lie below the root by
plain names; directories are removed, names changed and files made only strictly below the root, and
what is removed as a file was found to be one.  They ask for nothing but the host and the log.
-/

namespace FtpServer

open Program Dialogue Outcome

/-- `p` is the root followed by plain names. -/
structure Place.Confined (root : String) (p : Place) : Prop where
  root_eq : p.root = root
  plain : ∀ name ∈ p.segments, IsPlainName name

theorem Path.IsPlain.confined {p : Path} (hp : p.IsPlain) (root : String) :
    (p.place root).Confined root := ⟨rfl, hp⟩

namespace FileCall

def Confined (root : String) (call : FileCall) : Prop := ∀ p ∈ call.places, p.Confined root

/-- Calls that can take a directory away concern places strictly below the root; where only files
are removed, one was seen. -/
def SparesRoot (allowed : (call : FileCall) → call.Answer → Prop) : FileCall → Prop
  | .removeDirectory p | .openSink p => p.segments ≠ []
  | .rename source target => source.segments ≠ [] ∧ target.segments ≠ []
  | .removeFile p => allowed (.look p) (.ok .file)
  | .look _ | .makeDirectory _ | .openSource _ | .list _ => True

/-- What a session may call when the host gives only allowed answers. -/
def Permitted (allowed : (call : FileCall) → call.Answer → Prop) (root : String)
    (call : FileCall) : Prop :=
  call.Confined root ∧ call.SparesRoot allowed

end FileCall

theorem Path.IsPlain.confined_call {p : Path} (hp : p.IsPlain) {root : String} {call : FileCall}
    (h : call.places = [p.place root]) : call.Confined root := by
  intro place hplace
  rw [h, List.mem_singleton] at hplace
  exact hplace ▸ hp.confined root

namespace Request

def allowing (allowed : (call : FileCall) → call.Answer → Prop) : (q : Request) → q.Answer → Prop
  | .file call, r => allowed call r
  | _, _ => True

def Permitted (allowed : (call : FileCall) → call.Answer → Prop) (root : String) :
    Request → Prop
  | .file call => call.Permitted allowed root
  | _ => True

/-- A permitted call on the host, or a note. -/
def IsFileCall (allowed : (call : FileCall) → call.Answer → Prop) (root : String) : Request → Prop
  | .file call => call.Permitted allowed root
  | .note _ => True
  | _ => False

theorem IsFileCall.permitted {allowed : (call : FileCall) → call.Answer → Prop} {root : String}
    {q : Request} (h : q.IsFileCall allowed root) : q.Permitted allowed root := by
  cases q with
  | file call => exact h
  | _ => trivial

end Request

variable {allowed : (call : FileCall) → call.Answer → Prop} {root : String}

namespace Storage

variable {path : Path}

theorem segments_ne_nil_of_not_isRoot {p : Path} (h : ¬ p.isRoot = true) : p.segments ≠ [] := by
  intro hnil
  exact h (by simp [Path.isRoot, hnil])

theorem holds_keeps (hp : path.IsPlain) (test : Kind → Bool) :
    (Files.holds (path.place root) test).Keeps allowed (FileCall.Permitted allowed root)
      fun b => b = true → ∃ k, allowed (.look (path.place root)) (.ok k) ∧ test k = true := by
  refine Keeps.question ⟨hp.confined_call rfl, trivial⟩ fun r hr => ?_
  cases r with
  | ok k => exact fun htest => ⟨k, hr, htest⟩
  | error e => simp

theorem makeDirectory_keeps (hp : path.IsPlain) :
    (Storage.makeDirectory root path).Keeps allowed (FileCall.Permitted allowed root)
      fun _ => True :=
  Keeps.question ⟨hp.confined_call rfl, trivial⟩ fun _ _ => trivial

theorem removeDirectory_keeps (hp : path.IsPlain) :
    (Storage.removeDirectory root path).Keeps allowed (FileCall.Permitted allowed root)
      fun _ => True := by
  unfold Storage.removeDirectory
  split
  next => trivial
  next hroot =>
    exact Keeps.question ⟨hp.confined_call rfl, segments_ne_nil_of_not_isRoot hroot⟩
      fun _ _ => trivial

theorem deleteFile_keeps (hp : path.IsPlain) :
    (Storage.deleteFile root path).Keeps allowed (FileCall.Permitted allowed root)
      fun _ => True := by
  unfold Storage.deleteFile
  refine (holds_keeps hp isFile).bind fun found hfound => ?_
  split
  next hfile =>
    obtain ⟨k, hk, hkind⟩ := hfound hfile
    have hk' : k = .file := by simpa [isFile] using hkind
    subst hk'
    exact Keeps.question ⟨hp.confined_call rfl, hk⟩ fun _ _ => trivial
  next => trivial

theorem rename_keeps {source target : Path} (hsource : source.IsPlain) (htarget : target.IsPlain) :
    (Storage.rename root source target).Keeps allowed (FileCall.Permitted allowed root)
      fun _ => True := by
  unfold Storage.rename
  split
  next => trivial
  next hroot =>
    obtain ⟨hs, ht⟩ : ¬ source.isRoot = true ∧ ¬ target.isRoot = true := by simpa using hroot
    refine Keeps.question
      ⟨?_, segments_ne_nil_of_not_isRoot hs, segments_ne_nil_of_not_isRoot ht⟩ fun _ _ => trivial
    simpa [FileCall.Confined, FileCall.places] using
      And.intro (hsource.confined root) (htarget.confined root)

theorem openDownload_keeps (hp : path.IsPlain) :
    (Storage.openDownload root path).Keeps allowed (FileCall.Permitted allowed root)
      fun _ => True := by
  unfold Storage.openDownload
  refine (holds_keeps hp isFile).bind fun found _ => ?_
  split
  next =>
    exact Keeps.question ⟨hp.confined_call rfl, trivial⟩ fun _ _ => trivial
  next => trivial

theorem openUpload_keeps (hp : path.IsPlain) :
    (Storage.openUpload root path).Keeps allowed (FileCall.Permitted allowed root)
      fun _ => True := by
  unfold Storage.openUpload
  split
  next => trivial
  next hroot =>
    exact Keeps.question ⟨hp.confined_call rfl, segments_ne_nil_of_not_isRoot hroot⟩
      fun _ _ => trivial

theorem list_keeps (hp : path.IsPlain) :
    (Storage.list root path).Keeps allowed (FileCall.Permitted allowed root) fun _ => True := by
  unfold Storage.list
  refine (holds_keeps hp isAnything).bind fun found _ => ?_
  split
  next =>
    exact Keeps.question ⟨hp.confined_call rfl, trivial⟩ fun _ _ => trivial
  next => trivial

theorem enter_keeps {wd : Path} (hwd : wd.IsPlain) (argument : String) :
    (Storage.enter root wd argument).Keeps allowed (FileCall.Permitted allowed root)
      fun r => ∀ p, r = .ok p → p.IsPlain := by
  unfold Storage.enter
  split
  next => simp
  next p hresolve =>
    have hp := hwd.resolve hresolve
    refine (holds_keeps hp isDirectory).bind fun found _ => ?_
    split
    next => simpa using hp
    next => simp

end Storage

namespace Client

/-- A property that no file command takes from a client. -/
structure Kept (Φ : Client → Prop) : Prop where
  isPlain : ∀ {c}, Φ c → c.IsPlain
  enter : ∀ {c p}, Φ c → p.IsPlain → Φ (c.enter p)
  stageRename : ∀ {c p}, Φ c → p.IsPlain → Φ (c.stageRename p)
  dropRename : ∀ {c}, Φ c → Φ c.dropRename

theorem kept_isPlain : Kept IsPlain :=
  ⟨id, fun hc hp => hc.enter hp, fun hc hp => hc.stageRename hp, fun hc => hc.dropRename⟩

end Client

namespace Session

variable {ctx : Context} {c : Client} {α : Type} {Φ : Client → Prop}

/-- The dialogue asks only for permitted calls and notes, whatever the host answers, and its result
satisfies `post`. -/
abbrev OnlyFileCalls (allowed : (call : FileCall) → call.Answer → Prop) (root : String)
    (post : α → Prop) (p : Dialogue α) : Prop :=
  p.Keeps (Request.allowing allowed) (Request.IsFileCall allowed root) post

theorem ofFiles_onlyFileCalls {p : Files α} {post : α → Prop}
    (h : p.Keeps allowed (FileCall.Permitted allowed root) post) :
    OnlyFileCalls allowed root post (ofFiles p) :=
  (keeps_ofFiles p).2 h

theorem refuse_onlyFileCalls (hc : Φ c) (verb : String) (e : StorageError) :
    OnlyFileCalls allowed root (AnswersKeeping Φ) (refuse c verb e) :=
  Keeps.question trivial fun _ _ => ⟨hc, isAnswer_failure e.isAnswerCode _⟩

theorem refuseCreation_onlyFileCalls (hc : Φ c) (verb : String) (e : StorageError) :
    OnlyFileCalls allowed root (AnswersKeeping Φ) (refuseCreation c verb e) :=
  Keeps.question trivial fun _ _ => ⟨hc, isAnswer_failure e.isAnswerCode_creation _⟩

theorem onCwd_onlyFileCalls (hΦ : Client.Kept Φ) (hc : Φ c) (argument : String) :
    OnlyFileCalls allowed ctx.root (AnswersKeeping Φ) (onCwd ctx c argument) := by
  have hplain := hΦ.isPlain hc
  refine (ofFiles_onlyFileCalls (Storage.enter_keeps hplain.directory argument)).bind fun r hr => ?_
  split
  next p =>
    exact Keeps.question trivial fun _ _ =>
      ⟨hΦ.enter hc (hr p rfl), isAnswer_success (by decide) _⟩
  next e => exact Keeps.question trivial fun _ _ => ⟨hc, isAnswer_failure e.isAnswerCode _⟩

theorem onMkd_onlyFileCalls (hplain : c.IsPlain) (hc : Φ c) (argument : String) :
    OnlyFileCalls allowed ctx.root (AnswersKeeping Φ) (onMkd ctx c argument) := by
  unfold onMkd
  split
  next => exact refuseCreation_onlyFileCalls hc _ _
  next p hp =>
    have hp := hplain.directory.resolve hp
    refine (ofFiles_onlyFileCalls (Storage.makeDirectory_keeps hp)).bind fun r _ => ?_
    split
    next => exact Keeps.question trivial fun _ _ => ⟨hc, isAnswer_success (by decide) _⟩
    next e => exact refuseCreation_onlyFileCalls hc _ e

theorem onRmd_onlyFileCalls (hΦ : Client.Kept Φ) (hc : Φ c) (argument : String) :
    OnlyFileCalls allowed ctx.root (AnswersKeeping Φ) (onRmd ctx c argument) := by
  unfold onRmd
  split
  next => exact refuse_onlyFileCalls hc _ _
  next p hp =>
    have hdirectory := (hΦ.isPlain hc).directory
    have hplain := hdirectory.resolve hp
    refine (ofFiles_onlyFileCalls (Storage.removeDirectory_keeps hplain)).bind fun r _ => ?_
    split
    next =>
      exact Keeps.question trivial fun _ _ =>
        ⟨hΦ.enter hc (hdirectory.afterRemove hplain), isAnswer_success (by decide) _⟩
    next e => exact refuse_onlyFileCalls hc _ e

theorem onDele_onlyFileCalls (hplain : c.IsPlain) (hc : Φ c) (argument : String) :
    OnlyFileCalls allowed ctx.root (AnswersKeeping Φ) (onDele ctx c argument) := by
  unfold onDele
  split
  next => exact refuse_onlyFileCalls hc _ _
  next p hp =>
    have hp := hplain.directory.resolve hp
    refine (ofFiles_onlyFileCalls (Storage.deleteFile_keeps hp)).bind fun r _ => ?_
    split
    next => exact Keeps.question trivial fun _ _ => ⟨hc, isAnswer_success (by decide) _⟩
    next e => exact refuse_onlyFileCalls hc _ e

theorem unstage_onlyFileCalls (hdrop : Φ c.dropRename) :
    OnlyFileCalls allowed root (fun c' => c' = c.dropRename ∧ Φ c') (unstage c) := by
  unfold unstage
  split
  next => exact Keeps.question trivial fun _ _ => ⟨rfl, hdrop⟩
  next => exact ⟨rfl, hdrop⟩

theorem onRnfr_onlyFileCalls (hplain : c.IsPlain) (hdrop : Φ c.dropRename)
    (hstage : ∀ p : Path, p.IsPlain → Φ (c.dropRename.stageRename p)) (argument : String) :
    OnlyFileCalls allowed ctx.root (AnswersKeeping Φ) (onRnfr ctx c argument) := by
  refine (unstage_onlyFileCalls hdrop).bind fun c' h => ?_
  obtain ⟨rfl, hdrop⟩ := h
  split
  next => exact refuse_onlyFileCalls hdrop _ _
  next p hp =>
    have hp := hplain.dropRename.directory.resolve hp
    split
    next => exact refuse_onlyFileCalls hdrop _ _
    next =>
      refine (ofFiles_onlyFileCalls (Storage.holds_keeps hp _)).bind fun found _ => ?_
      split
      next => exact ⟨hstage p hp, isAnswer_success (by decide) _⟩
      next => exact refuse_onlyFileCalls hdrop _ _

theorem onRnto_onlyFileCalls (hΦ : Client.Kept Φ) (hc : Φ c) (argument : String) :
    OnlyFileCalls allowed ctx.root (AnswersKeeping Φ) (onRnto ctx c argument) := by
  have hdrop := hΦ.dropRename hc
  unfold onRnto
  split
  next => exact ⟨hc, isAnswer_failure (by decide) _⟩
  next source hsource =>
    dsimp only
    split
    next => exact refuseCreation_onlyFileCalls hdrop _ _
    next target htarget =>
      have hdirectory := (hΦ.isPlain hdrop).directory
      have hplain := hdirectory.resolve htarget
      have hstaged := (hΦ.isPlain hc).renameSource source hsource
      refine (ofFiles_onlyFileCalls (Storage.rename_keeps hstaged hplain)).bind fun r _ => ?_
      split
      next =>
        exact Keeps.question trivial fun _ _ =>
          ⟨hΦ.enter hdrop (hdirectory.afterRename hplain), isAnswer_success (by decide) _⟩
      next e => exact refuseCreation_onlyFileCalls hdrop _ e

theorem listTarget_isPlain (hc : c.IsPlain) {argument : String} {p : Path}
    (h : listTarget c argument = some p) : p.IsPlain := by
  unfold listTarget at h
  split at h
  next => exact Option.some.inj h ▸ hc.directory
  next => exact hc.directory.resolve h

abbrev OpensFrom (c : Client) (r : Client × Outcome) : Prop := r.1 = c ∧ r.2.Opens

theorem refuse_opens (verb : String) (e : StorageError) :
    OnlyFileCalls allowed root (OpensFrom c) (refuse c verb e) :=
  Keeps.question trivial fun _ _ => ⟨rfl, .answers (isAnswer_failure e.isAnswerCode _)⟩

theorem refuseCreation_opens (verb : String) (e : StorageError) :
    OnlyFileCalls allowed root (OpensFrom c) (refuseCreation c verb e) :=
  Keeps.question trivial fun _ _ => ⟨rfl, .answers (isAnswer_failure e.isAnswerCode_creation _)⟩

/-- A command that opens a transfer, once nothing stands against it. -/
abbrev Opens (allowed : (call : FileCall) → call.Answer → Prop) (root : String)
    (command : Client → Step) : Prop :=
  ∀ c : Client, c.IsPlain → OnlyFileCalls allowed root (OpensFrom c) (command c)

theorem beginList_opens (ctx : Context) (argument : String) :
    Opens allowed ctx.root (beginList ctx argument) := by
  intro c hc
  unfold beginList
  split
  next => exact refuse_opens _ _
  next p hp =>
    refine (ofFiles_onlyFileCalls (Storage.list_keeps (listTarget_isPlain hc hp))).bind fun r _ => ?_
    split
    next => exact ⟨rfl, .begins _ _ _ rfl⟩
    next e => exact refuse_opens _ e

theorem beginRetr_opens (ctx : Context) (argument : String) :
    Opens allowed ctx.root (beginRetr ctx argument) := by
  intro c hc
  unfold beginRetr
  split
  next => exact refuse_opens _ _
  next p hp =>
    refine (ofFiles_onlyFileCalls (Storage.openDownload_keeps (hc.directory.resolve hp))).bind
      fun r _ => ?_
    split
    next => exact Keeps.question trivial fun _ _ => ⟨rfl, .begins _ _ _ rfl⟩
    next e => exact refuse_opens _ e

theorem beginStor_opens (ctx : Context) (argument : String) :
    Opens allowed ctx.root (beginStor ctx argument) := by
  intro c hc
  unfold beginStor
  split
  next => exact refuseCreation_opens _ _
  next p hp =>
    refine (ofFiles_onlyFileCalls (Storage.openUpload_keeps (hc.directory.resolve hp))).bind
      fun r _ => ?_
    split
    next => exact Keeps.question trivial fun _ _ => ⟨rfl, .begins _ _ _ rfl⟩
    next e => exact refuseCreation_opens _ e

end Session

end FtpServer
