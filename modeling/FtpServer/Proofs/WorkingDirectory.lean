import FtpServer.Proofs.Authentication
import FtpServer.Proofs.PathText
import FtpServer.Proofs.RootStays
import FtpServer.Proofs.Tree.Directories

/-!
# The working directory

Whatever a session is told, its working directory is a directory of the host: it is entered where it
is seen, left where it is removed, and followed where it is renamed.
-/

namespace FtpServer

open Program Dialogue Text

def Request.SparesDirectories : Request → Prop
  | .file call => call.SparesDirectories
  | _ => True

namespace Storage

variable {root : String} {path : Path}

theorem holds_spares (p : Place) (test : Kind → Bool) :
    (Files.holds p test).Asks FileCall.SparesDirectories := by
  refine ⟨trivial, fun r => ?_⟩
  cases r <;> trivial

theorem makeDirectory_spares (root : String) (path : Path) :
    (Storage.makeDirectory root path).Asks FileCall.SparesDirectories := ⟨trivial, fun _ => trivial⟩

theorem spares_of_test {α ε : Type} {call : Files (Except OsError α)}
    (hcall : call.Asks FileCall.SparesDirectories) (p : Place) (test : Kind → Bool)
    (f : OsError → ε) (e : ε) :
    Asks FileCall.SparesDirectories (do
      if ← Files.holds p test then return (← call).mapError f
      else return .error e) := by
  refine asks_bind (holds_spares p test) fun found => ?_
  cases found with
  | true => exact asks_bind hcall fun _ => trivial
  | false => trivial

theorem deleteFile_spares (root : String) (path : Path) :
    (Storage.deleteFile root path).Asks FileCall.SparesDirectories := by
  refine spares_of_test ?_ _ _ _ _
  exact ⟨trivial, fun _ => trivial⟩

theorem openDownload_spares (root : String) (path : Path) :
    (Storage.openDownload root path).Asks FileCall.SparesDirectories := by
  refine spares_of_test ?_ _ _ _ _
  exact ⟨trivial, fun _ => trivial⟩

theorem openUpload_spares (root : String) (path : Path) :
    (Storage.openUpload root path).Asks FileCall.SparesDirectories := by
  unfold Storage.openUpload
  split
  next => trivial
  next => exact ⟨trivial, fun _ => trivial⟩

theorem list_spares (root : String) (path : Path) :
    (Storage.list root path).Asks FileCall.SparesDirectories := by
  refine spares_of_test ?_ _ _ _ _
  exact ⟨trivial, fun _ => trivial⟩

end Storage

namespace Session

variable {ctx : Context} {c c' : Client} {α : Type}

theorem refuseStorage_spares (c : Client) (verb : String) (e : StorageError) (code : Nat) :
    (refuseStorage c verb e code).Asks Request.SparesDirectories := ⟨trivial, fun _ => trivial⟩

theorem spares_of_files {p : Files (Except StorageError α)} {next : Except StorageError α → Step}
    (hp : p.Asks FileCall.SparesDirectories)
    (hok : ∀ a, (next (.ok a)).Asks Request.SparesDirectories)
    (herror : ∀ e, (next (.error e)).Asks Request.SparesDirectories) :
    (ofFiles p >>= next).Asks Request.SparesDirectories := by
  refine asks_bind (asks_ofFiles hp) fun result => ?_
  cases result with
  | ok a => exact hok a
  | error e => exact herror e

theorem onMkd_spares (ctx : Context) (c : Client) (argument : String) :
    (onMkd ctx c argument).Asks Request.SparesDirectories := by
  unfold onMkd
  split
  next => exact refuseStorage_spares _ _ _ _
  next path _ =>
    refine spares_of_files (Storage.makeDirectory_spares _ path) (fun _ => ?_) fun e => ?_
    · exact ⟨trivial, fun _ => trivial⟩
    · exact refuseStorage_spares _ _ e _

theorem onDele_spares (ctx : Context) (c : Client) (argument : String) :
    (onDele ctx c argument).Asks Request.SparesDirectories := by
  unfold onDele
  split
  next => exact refuseStorage_spares _ _ _ _
  next path _ =>
    refine spares_of_files (Storage.deleteFile_spares _ path) (fun _ => ?_) fun e => ?_
    · exact ⟨trivial, fun _ => trivial⟩
    · exact refuseStorage_spares _ _ e _

theorem onRnfr_spares (ctx : Context) (c : Client) (argument : String) :
    (onRnfr ctx c argument).Asks Request.SparesDirectories := by
  have hunstage : (unstage c).Asks Request.SparesDirectories := by
    unfold unstage
    split
    next => exact ⟨trivial, fun _ => trivial⟩
    next => trivial
  refine asks_bind hunstage fun c => ?_
  split
  next => exact refuseStorage_spares _ _ _ _
  next path _ =>
    split
    next => exact refuseStorage_spares _ _ _ _
    next =>
      refine asks_bind (asks_ofFiles (Storage.holds_spares _ _)) fun found => ?_
      cases found with
      | true => trivial
      | false => exact refuseStorage_spares _ _ _ _

theorem beginList_spares (ctx : Context) (argument : String) (c : Client) :
    (beginList ctx argument c).Asks Request.SparesDirectories := by
  unfold beginList
  split
  next => exact refuseStorage_spares _ _ _ _
  next path _ =>
    refine spares_of_files (Storage.list_spares _ path) (fun _ => ?_) fun e => ?_
    · trivial
    · exact refuseStorage_spares _ _ e _

theorem beginRetr_spares (ctx : Context) (argument : String) (c : Client) :
    (beginRetr ctx argument c).Asks Request.SparesDirectories := by
  unfold beginRetr
  split
  next => exact refuseStorage_spares _ _ _ _
  next path _ =>
    refine spares_of_files (Storage.openDownload_spares _ path) (fun _ => ?_) fun e => ?_
    · exact ⟨trivial, fun _ => trivial⟩
    · exact refuseStorage_spares _ _ e _

theorem beginStor_spares (ctx : Context) (argument : String) (c : Client) :
    (beginStor ctx argument c).Asks Request.SparesDirectories := by
  unfold beginStor
  split
  next => exact refuseStorage_spares _ _ _ _
  next path _ =>
    refine spares_of_files (Storage.openUpload_spares _ path) (fun _ => ?_) fun e => ?_
    · exact ⟨trivial, fun _ => trivial⟩
    · exact refuseStorage_spares _ _ e _

end Session

/-- Calls change the tree as they are performed, and workers write to files meanwhile. -/
def Tree.hosting : Rules Request.Answer Tree where
  drift t t' := ∃ contents, t' = { t with contents := contents }
  answer
    | .file call, t, r, t' => ∃ lists, t.perform lists call = (r, t')
    | _, t, _, t' => t' = t
  guard _ _ := True

namespace Scene

variable {s s' : Scene} {α : Type} {p p' : Dialogue α}

theorem hosting_of_perform {q : Request} {r : q.Answer} (h : s.perform? q = some (r, s')) :
    Tree.hosting.answer q s.shared.tree r s'.shared.tree := by
  cases q with
  | file call =>
    have hsame : s.performFile call = (r, s') := Option.some.inj h
    obtain ⟨hr, hs⟩ := Prod.mk.inj hsame
    exact ⟨s.list, Prod.ext hr (congrArg (·.shared.tree) hs)⟩
  | _ => exact (frame_of_perform h).2 (by simp)

theorem Steps.hosted {post : α → Tree → Prop} (h : Steps (p, s) (p', s'))
    (hp : p.Meets Tree.hosting post s.shared.tree) :
    ∃ t, Tree.hosting.drift t s'.shared.tree ∧ p'.Meets Tree.hosting post t := by
  refine h.meets (fun s => s.shared.tree) hp (fun t => ⟨t.contents, rfl⟩) ?_
    (fun q r s s' hanswer => hosting_of_perform hanswer) (fun s s' number m hmove => ?_)
    fun s ms => ⟨s.shared.tree.contents, rfl⟩
  · rintro t u v ⟨contents, rfl⟩ ⟨contents', rfl⟩
    exact ⟨contents', rfl⟩
  · obtain ⟨w, w', shared, -, hw, rfl⟩ := exists_of_moveWorker hmove
    obtain ⟨contents, -, htree⟩ := Worker.tree_of_move hw
    exact ⟨contents, htree⟩

end Scene

/-- The working directory of a client is a directory below the root, which is kept. -/
structure HasDirectory (before : Tree) (k : Key) (root : String) (c : Client) (t : Tree) : Prop where
  nest : Tree.KeepsNest before k t
  plain : c.IsPlain
  home : t.isDirectory (k ++ (c.directory.place root).key) = true

variable {before t t' : Tree} {k : Key} {root : String} {c c' : Client} {path source target : Path}

theorem Path.key_place (root : String) (p : Path) : (p.place root).key = p.segments.map encode := rfl

theorem encode_injective : Function.Injective encode := fun _ _ h => encode_inj.1 h

theorem Path.key_prefix {p q : Path} {root : String} :
    (p.place root).key <+: (q.place root).key ↔ p.segments <+: q.segments :=
  List.prefix_map_iff_of_injective encode_injective

theorem Path.key_inj {p q : Path} {root : String} :
    (p.place root).key = (q.place root).key ↔ p = q := by
  rw [Path.key_place, Path.key_place, (List.map_injective_iff.2 encode_injective).eq_iff]
  exact ⟨fun h => congrArg Path.mk h, congrArg Path.segments⟩

namespace HasDirectory

theorem stays (h : HasDirectory before k root c t) (hnest : Tree.KeepsNest before k t')
    (hshelters : t.Shelters t') (hplain : c'.IsPlain) (hsame : c'.directory = c.directory) :
    HasDirectory before k root c' t' :=
  ⟨hnest, hplain, hshelters _ (hsame ▸ h.home)⟩

theorem drift (h : HasDirectory before k root c t) (hdrift : Tree.hosting.drift t t') :
    HasDirectory before k root c t' := by
  obtain ⟨contents, rfl⟩ := hdrift
  exact ⟨h.nest.setContents contents, h.plain, h.home⟩

/-- Whoever is in a directory that is removed finds themselves in its parent, which is there. -/
theorem removed (h : HasDirectory before k root c t) (hroot : before.RootAt root k)
    (hp : path.IsPlain)
    (hne : path.segments ≠ []) (hremoved : t.removeDirectory (path.place root) = .ok t') :
    HasDirectory before k root (c.enter (c.directory.afterRemove path)) t' := by
  obtain ⟨hnest, hothers⟩ := h.nest.removeDirectory hroot (hp.confined root) hne hremoved
  refine ⟨hnest, h.plain.enter (h.plain.directory.afterRemove hp), ?_⟩
  unfold Path.afterRemove
  split
  next hinside =>
    obtain ⟨init, last, hsegments⟩ := (List.eq_nil_or_concat path.segments).resolve_left hne
    have hparent : (path.parent.place root).key = init.map encode := by
      simp [Path.key_place, Path.parent, hsegments]
    have hkey : (path.place root).key = init.map encode ++ [encode last] := by
      simp [Path.key_place, hsegments]
    have hhome := h.home
    rw [hinside, hkey, ← List.append_assoc] at hhome
    -- The parent was a directory since something lay in it, and it is not what was removed.
    have hstood := h.nest.nested _ _ (Tree.find?_ne_none_of_isDirectory hhome)
    rw [Client.enter, hparent, hothers _ (by simp [hkey])]
    exact hstood
  next houtside =>
    rw [Client.enter, hothers _ fun hsame => houtside ?_]
    · exact h.home
    · exact Path.key_inj.1 (List.append_cancel_left hsame)

theorem renamed (h : HasDirectory before k root c t) (hroot : before.RootAt root k)
    (hsource : source.IsPlain) (hsourceNe : source.segments ≠ []) (htarget : target.IsPlain)
    (htargetNe : target.segments ≠ [])
    (hrenamed : t.rename (source.place root) (target.place root) = .ok t') :
    HasDirectory before k root (c.enter (c.directory.afterRename source target)) t' := by
  obtain ⟨hnest, hbelow, hothers⟩ := h.nest.rename hroot (hsource.confined root) hsourceNe
    (htarget.confined root) htargetNe hrenamed
  refine ⟨hnest, h.plain.enter (h.plain.directory.afterRename htarget), ?_⟩
  rw [Client.enter, Path.key_place, Path.segments_afterRename h.plain.directory hsource]
  split
  next hinside =>
    obtain ⟨rest, hrest⟩ := hinside
    have hhome := h.home
    rw [Path.key_place, ← hrest, List.map_append, ← List.append_assoc] at hhome
    rw [← hrest, List.drop_left, List.map_append, ← List.append_assoc]
    exact hbelow _ hhome
  next houtside =>
    -- The working directory may be the target: only a directory takes the place of a directory.
    refine hothers _ (fun hinside => houtside ?_) h.home
    exact Path.key_prefix.1 ((List.prefix_append_right_inj k).1 hinside)

end HasDirectory

namespace Session

variable {ctx : Context} {α β : Type} {post : α → Tree → Prop}

/-- The dialogue leaves a tree with `post` behind, on a host that only the session changes. -/
abbrev Hosted (post : α → Tree → Prop) (p : Dialogue α) (t : Tree) : Prop :=
  p.Meets Tree.hosting post t

abbrev HasDirectoryAfter (before : Tree) (k : Key) (root : String) (r : Client × Outcome)
    (t : Tree) : Prop :=
  HasDirectory before k root r.1 t

def KeepsDirectory (c c' : Client) : Prop := c'.IsPlain ∧ c'.directory = c.directory

end Session

namespace HasDirectory

open Session

variable {α : Type} {post : α → Tree → Prop}

theorem question (h : HasDirectory before k root c t) {q : Request} {f : q.Answer → Dialogue α}
    (hf : ∀ t, HasDirectory before k root c t → ∀ r u, Tree.hosting.answer q t r u →
      Hosted post (f r) u) : Hosted post (ask q done >>= f) t :=
  meets_ask_of_stable (fun _ _ => HasDirectory.drift) h fun t ht => ⟨trivial, hf t ht⟩

theorem of_apart (h : HasDirectory before k root c t) {φ : α → Prop} {guard : Request → Prop}
    {p : Dialogue α} (hp : p.Keeps (Request.allowing Tree.SeesRoot) guard φ)
    (hguard : ∀ call, ¬ guard (.file call)) :
    Hosted (fun a t => φ a ∧ HasDirectory before k root c t) p t := by
  refine Keeps.meets hp (fun _ _ => HasDirectory.drift) (fun q t hq ht => ?_) h
  refine ⟨trivial, fun r u hanswer => ?_⟩
  cases q with
  | file call => exact absurd hq (hguard call)
  | _ =>
    obtain rfl : u = t := hanswer
    exact ⟨trivial, ht⟩

theorem stayed (h : HasDirectory before k root c t) (hc' : KeepsDirectory c c') :
    HasDirectory before k root c' t :=
  h.stays h.nest (fun _ hkey => hkey) hc'.1 hc'.2

section Hosts

variable (hroot : before.RootAt root k)

include hroot

theorem of_keeps (h : HasDirectory before k root c t) {φ : α → Prop} {p : Dialogue α}
    (hp : p.Keeps (Request.allowing Tree.SeesRoot) (Request.Permitted Tree.SeesRoot root) φ)
    (hspares : p.Asks Request.SparesDirectories) :
    Hosted (fun a t => φ a ∧ HasDirectory before k root c t) p t := by
  refine Keeps.meets (hp.and_asks hspares) (fun _ _ => HasDirectory.drift) (fun q t hq ht => ?_) h
  refine ⟨trivial, fun r u hanswer => ?_⟩
  cases q with
  | file call =>
    obtain ⟨lists, hperformed⟩ := hanswer
    have hsees : Tree.SeesRoot call (t.perform lists call).1 :=
      (ht.nest.toKeepsRoot.perform hroot hq.1).1
    obtain ⟨hnest, hshelters⟩ : before.KeepsNest k (t.perform lists call).2 ∧
        t.Shelters (t.perform lists call).2 := ht.nest.perform hroot hq.1 hq.2
    rw [hperformed] at hsees hnest hshelters
    exact ⟨hsees, ht.stays hnest hshelters ht.plain rfl⟩
  | _ =>
    obtain rfl : u = t := hanswer
    exact ⟨trivial, ht⟩

/-- A step of file calls that spares directories leaves a client in its directory. -/
theorem of_onlyFileCalls (h : HasDirectory before k root c t) {step : Step}
    (hstep : OnlyFileCalls Tree.SeesRoot root (AnswersKeeping (KeepsDirectory c)) step)
    (hspares : step.Asks Request.SparesDirectories) :
    Hosted (HasDirectoryAfter before k root) step t := by
  have hconfines : Confines Tree.SeesRoot root (fun r => KeepsDirectory c r.1) step :=
    OnlyFileCalls.confines hstep fun r hr => hr.1
  exact (h.of_keeps hroot hconfines hspares).mono fun r t ⟨hr, ht⟩ => ht.stayed hr

end Hosts

end HasDirectory

namespace Session

theorem note_hosted {root : String} {r : Client × Outcome} (h : HasDirectoryAfter before k root r t)
    (record : Record) :
    Hosted (HasDirectoryAfter before k root) (note record >>= fun _ => .done r) t := by
  refine HasDirectory.question h fun t ht _ u hanswer => ?_
  obtain rfl : u = t := hanswer
  exact ht

variable {ctx : Context} (hroot : before.RootAt ctx.root k) (h : HasDirectory before k ctx.root c t)

include hroot h

theorem onCwd_hosted (argument : String) :
    Hosted (HasDirectoryAfter before k ctx.root) (onCwd ctx c argument) t := by
  have hnote : ∀ {t : Tree} {e : NavigationError}, HasDirectory before k ctx.root c t →
      Hosted (HasDirectoryAfter before k ctx.root) (do
        note (.directoryRefused c.address e)
        return (c, .failure e.code "Directory not found.") : Step) t := fun ht => by
    refine ht.question fun t ht r u hanswer => ?_
    obtain rfl : u = t := hanswer
    exact ht
  unfold onCwd Storage.enter
  split
  next => exact hnote h
  next path hpath =>
    have hp := h.plain.directory.resolve hpath
    refine h.question fun t ht r u hanswer => ?_
    obtain ⟨hlook, rfl⟩ : t.look (path.place ctx.root) = r ∧ t = u :=
      hanswer.elim fun _ => Prod.mk.inj
    subst hlook
    cases hlook : t.look (path.place ctx.root) with
    | error e => exact hnote ht
    | ok kind =>
      cases kind with
      | directory =>
        have hseen := ht.nest.isDirectory_of_look hroot (hp.confined ctx.root) hlook
        refine note_hosted ?_ _
        exact ⟨ht.nest, ht.plain.enter hp, hseen⟩
      | _ => exact hnote ht

omit hroot in
theorem refuseStorage_hosted (verb : String) (e : StorageError) (code : Nat) :
    Hosted (HasDirectoryAfter before k ctx.root) (refuseStorage c verb e code) t := by
  refine h.question fun t ht r u hanswer => ?_
  obtain rfl : u = t := hanswer
  exact ht

theorem onRmd_hosted (argument : String) :
    Hosted (HasDirectoryAfter before k ctx.root) (onRmd ctx c argument) t := by
  unfold onRmd Storage.removeDirectory
  split
  next => exact refuseStorage_hosted h _ _ _
  next path hpath =>
    have hp := h.plain.directory.resolve hpath
    split
    next => exact refuseStorage_hosted h _ _ _
    next hnotRoot =>
      have hne := Storage.segments_ne_nil_of_not_isRoot hnotRoot
      refine h.question fun t ht r u hanswer => ?_
      obtain ⟨_, hchanged⟩ := hanswer
      change t.changed (t.removeDirectory (path.place ctx.root)) = (r, u) at hchanged
      cases hremoved : t.removeDirectory (path.place ctx.root) with
      | error e =>
        rw [hremoved] at hchanged
        obtain ⟨rfl, rfl⟩ := Prod.mk.inj hchanged
        exact refuseStorage_hosted ht _ _ _
      | ok t' =>
        rw [hremoved] at hchanged
        obtain ⟨rfl, rfl⟩ := Prod.mk.inj hchanged
        exact note_hosted (ht.removed hroot hp hne hremoved) _

theorem onRnto_hosted (argument : String) :
    Hosted (HasDirectoryAfter before k ctx.root) (onRnto ctx c argument) t := by
  have hdropped : HasDirectory before k ctx.root c.dropRename t := h.stayed ⟨h.plain.dropRename, rfl⟩
  unfold onRnto Storage.rename
  split
  next => exact h
  next source hsource =>
    have hsource := h.plain.renameSource source hsource
    dsimp only
    split
    next => exact refuseStorage_hosted hdropped _ _ _
    next target htarget =>
      have htarget := hdropped.plain.directory.resolve htarget
      split
      next => exact refuseStorage_hosted hdropped _ _ _
      next hnotRoot =>
        obtain ⟨hsourceRoot, htargetRoot⟩ : ¬ source.isRoot = true ∧ ¬ target.isRoot = true := by
          simpa using hnotRoot
        have hsourceNe := Storage.segments_ne_nil_of_not_isRoot hsourceRoot
        have htargetNe := Storage.segments_ne_nil_of_not_isRoot htargetRoot
        refine hdropped.question fun t ht r u hanswer => ?_
        obtain ⟨_, hchanged⟩ := hanswer
        change t.changed (t.rename (source.place ctx.root) (target.place ctx.root)) =
          (r, u) at hchanged
        cases hrenamed : t.rename (source.place ctx.root) (target.place ctx.root) with
        | error e =>
          rw [hrenamed] at hchanged
          obtain ⟨rfl, rfl⟩ := Prod.mk.inj hchanged
          exact refuseStorage_hosted ht _ _ _
        | ok t' =>
          rw [hrenamed] at hchanged
          obtain ⟨rfl, rfl⟩ := Prod.mk.inj hchanged
          exact note_hosted (ht.renamed hroot hsource hsourceNe htarget htargetNe hrenamed) _

theorem withData_hosted {command : Client → Step} (hopens : Opens Tree.SeesRoot ctx.root command)
    (hspares : ∀ c, (command c).Asks Request.SparesDirectories) :
    Hosted (HasDirectoryAfter before k ctx.root) (withData c command) t := by
  have hreaps : Works (Request.allowing Tree.SeesRoot) (KeepsDirectory c) (reapWorker c) :=
    reapWorker_works ⟨h.plain, rfl⟩ ⟨h.plain.withMode .none, rfl⟩
  refine (h.of_apart hreaps fun _ hcall => hcall).bind fun c' t ⟨hc', ht⟩ => ?_
  have ht' := ht.stayed hc'
  refine ht'.question fun t ht r u hanswer => ?_
  obtain rfl : u = t := hanswer
  cases r with
  | true => exact note_hosted ht _
  | false =>
    by_cases hmode : c'.dataMode = .none
    · simp only [hmode, if_true]
      exact ht
    · simp only [hmode, if_false]
      have hconfines :
        Confines Tree.SeesRoot ctx.root (fun r => KeepsDirectory c' r.1) (command c') :=
        OnlyFileCalls.confines (hopens c' ht.plain) fun r hr => ⟨hr.1 ▸ ht.plain, hr.1 ▸ rfl⟩
      exact (ht.of_keeps hroot hconfines (hspares c')).mono fun r t ⟨hr, ht⟩ => ht.stayed hr

theorem dispatch_hosted (command : Command) :
    Hosted (HasDirectoryAfter before k ctx.root) (dispatch ctx c command) t := by
  have hstays : KeepsDirectory c c := ⟨h.plain, rfl⟩
  have hmode : ∀ {c'} mode, KeepsDirectory c c' → KeepsDirectory c (c'.withMode mode) :=
    fun mode hc' => ⟨hc'.1.withMode mode, hc'.2⟩
  have hworks : ∀ {step : Step},
      Works (Request.allowing Tree.SeesRoot) (fun r => KeepsDirectory c r.1) step →
      Hosted (HasDirectoryAfter before k ctx.root) step t := fun hstep =>
    (h.of_apart hstep fun _ hcall => hcall).mono fun _ _ ⟨hr, ht⟩ => ht.stayed hr
  have hinternal : ∀ {step : Step},
      OnlyInternal (Request.allowing Tree.SeesRoot) (AnswersKeeping (KeepsDirectory c)) step →
      Hosted (HasDirectoryAfter before k ctx.root) step t := fun hstep =>
    (h.of_apart hstep fun _ hcall => hcall).mono fun _ _ ⟨hr, ht⟩ => ht.stayed hr.1
  cases command with
  | user name =>
    exact hinternal (onUser_onlyInternal hstays (fun name => ⟨h.plain.beginLogin name, rfl⟩) name)
  | pass password =>
    exact hinternal
      (onPass_onlyInternal hstays (fun identity => ⟨h.plain.completeLogin identity, rfl⟩)
        ⟨h.plain.resetLogin, rfl⟩ password)
  | port argument => exact hworks ((onPort_works hmode hstays argument).mono fun _ hr => hr.1)
  | pasv => exact hworks ((onPasv_works hmode hstays ctx).mono fun _ hr => hr.1)
  | abor => exact hworks (onAbor_works hmode hstays)
  | quit => exact hworks (onQuit_works hmode hstays)
  | cwd argument => exact onCwd_hosted hroot h argument
  | cdup => exact onCwd_hosted hroot h ".."
  | mkd argument =>
    exact h.of_onlyFileCalls hroot (onMkd_onlyFileCalls h.plain hstays argument)
      (onMkd_spares ctx c argument)
  | dele argument =>
    exact h.of_onlyFileCalls hroot (onDele_onlyFileCalls h.plain hstays argument)
      (onDele_spares ctx c argument)
  | rnfr argument =>
    refine h.of_onlyFileCalls hroot
      (onRnfr_onlyFileCalls h.plain ⟨h.plain.dropRename, rfl⟩ ?_ argument)
      (onRnfr_spares ctx c argument)
    exact fun p hp => ⟨h.plain.dropRename.stageRename hp, rfl⟩
  | rmd argument => exact onRmd_hosted hroot h argument
  | rnto argument => exact onRnto_hosted hroot h argument
  | list argument =>
    exact withData_hosted hroot h (beginList_opens ctx argument) (beginList_spares ctx argument)
  | retr argument =>
    exact withData_hosted hroot h (beginRetr_opens ctx argument) (beginRetr_spares ctx argument)
  | stor argument =>
    exact withData_hosted hroot h (beginStor_opens ctx argument) (beginStor_spares ctx argument)
  | syst | noop | pwd | type | unknown => exact h

theorem perform_hosted (command : Command) :
    Hosted (HasDirectoryAfter before k ctx.root) (perform ctx c command) t := by
  refine h.question fun t ht r u hanswer => ?_
  obtain rfl : u = t := hanswer
  unfold handle
  split
  next => exact ht
  next => exact dispatch_hosted hroot ht command

omit hroot in
theorem deliver_hosted (command : Command) (o : Outcome) :
    Hosted (fun _ t => HasDirectory before k ctx.root c t) (deliver c command o) t := by
  have hdeliver : (deliver c command o).Keeps (Request.allowing Tree.SeesRoot)
      (fun q => ∀ call, q ≠ .file call) (fun _ => True) :=
    deliver_keeps c command (by rintro _ hq call rfl; exact hq) (by simp)
  exact (h.of_apart hdeliver fun call hcall => hcall call rfl).mono fun _ _ ht => ht.2

end Session

namespace Session

variable {ctx : Context} {address : Socket} {s₀ s : Scene} {h : List Exchange}
variable {a b : Client × Scene}

theorem History.hasDirectory (hrun : History ctx a h b) (hroot : before.RootAt ctx.root k)
    (ha : HasDirectory before k ctx.root a.1 a.2.shared.tree) :
    HasDirectory before k ctx.root b.1 b.2.shared.tree := by
  induction hrun with
  | start => exact ha
  | next _ hperform hdeliver ih =>
    obtain ⟨t, hdrift, hafter⟩ := hperform.hosted (perform_hosted hroot ih _)
    obtain ⟨t', hdrift', hend⟩ := hdeliver.hosted (deliver_hosted (hafter.drift hdrift) _ _)
    exact hend.drift hdrift'

/-- On a host whose nodes lie in directories, with no link at or below the server root, the working
directory of a session is a directory after every command, however the command went; and it is that
directory which calls on its path find. -/
theorem working_directory_exists (hroot : s₀.shared.tree.RootAt ctx.root k)
    (hnested : s₀.shared.tree.Nested) (hrun : History ctx (.connect address, s₀) h (c, s)) :
    s.shared.tree.isDirectory (k ++ (c.directory.place ctx.root).key) = true ∧
    ∀ found, s.shared.tree.locate (c.directory.place ctx.root) = .ok found →
      ∃ e, found = .existing (k ++ (c.directory.place ctx.root).key) e ∧ e.node = .directory := by
  have hstart : HasDirectory s₀.shared.tree k ctx.root (.connect address) s₀.shared.tree := by
    refine ⟨⟨hroot.keepsRoot, hnested⟩, Client.connect_isPlain address, ?_⟩
    simpa [Path.key_place, Client.connect] using hroot.isDirectory
  have hhouses : HasDirectory s₀.shared.tree k ctx.root c s.shared.tree :=
    hrun.hasDirectory hroot hstart
  refine ⟨hhouses.home, fun found hlocate => ?_⟩
  have hplain := hhouses.plain.directory.confined ctx.root
  have hat := hhouses.nest.toKeepsRoot.locate_isAt hroot hplain hlocate
  obtain ⟨mode, modified, hfind⟩ := Tree.isDirectory_iff.1 hhouses.home
  cases found with
  | existing key e =>
    obtain ⟨rfl, hfound⟩ := hat
    rw [hfind] at hfound
    exact ⟨e, rfl, (Option.some.inj hfound) ▸ rfl⟩
  | missing directory name =>
    obtain ⟨-, -, hfree⟩ := hat
    rw [hfind] at hfree
    cases hfree

theorem oneDirectory_nested : oneDirectory.Nested := by
  intro key name hfound
  obtain ⟨e, hfind⟩ := Option.ne_none_iff_exists'.1 hfound
  have hmem : (key ++ [name], e) ∈ oneDirectory.entries := Tree.mem_entries_of_find? (by simp) hfind
  rcases List.mem_cons.1 hmem with heq | hnone
  · have hkey : key ++ [name] = [] ++ [encode "srv"] := (Prod.mk.inj heq).1
    obtain ⟨rfl, -⟩ := List.append_inj' hkey rfl
    rfl
  · cases hnone

/-- A directory above the working directory is renamed, and then the working directory removed. -/
theorem working_directory_exists_moved_and_removed :
    ∃ h c s, History (Scene.usualContext "/srv")
        (.connect Scene.loopback, Scene.start oneDirectory {}) h (c, s) ∧
      h.map Exchange.code? = [some 331, some 230, some 250, some 250, some 250, some 250, some 250,
        some 250, some 250] ∧
      c.directory.text = "/new" ∧
      s.shared.tree.isDirectory [encode "srv", encode "new"] = true := by
  have hconverse : (converse (Scene.usualContext "/srv") (fun _ _ => false)
      (.connect Scene.loopback) (Scene.start oneDirectory {})
      [.user "anonymous", .pass "guest", .mkd "old", .cwd "old", .mkd "in", .cwd "in", .rnfr "/old",
        .rnto "/new", .rmd "../in"]).any (fun r =>
        r.1.map Exchange.code? == [some 331, some 230, some 250, some 250, some 250, some 250,
            some 250, some 250, some 250] && r.2.1.directory == ⟨["new"]⟩) = true := by
    decide +kernel
  obtain ⟨⟨h, c, s⟩, hsome, htest⟩ := (Option.any_eq_true ..).1 hconverse
  simp only [Bool.and_eq_true, beq_iff_eq] at htest
  obtain ⟨hcodes, hdirectory⟩ := htest
  have hrun := history_of_converse hsome
  obtain ⟨hhome, -⟩ := working_directory_exists oneDirectory_rootAt oneDirectory_nested hrun
  rw [hdirectory] at hhome
  exact ⟨h, c, s, hrun, hcodes, by rw [hdirectory]; rfl, hhome⟩

end Session

end FtpServer
