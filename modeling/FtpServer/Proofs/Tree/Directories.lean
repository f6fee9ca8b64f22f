import FtpServer.Proofs.Tree.Nested

/-!
# What calls leave of directories

A place below the root is the key that its names make up.  Most calls leave every directory where it
is; one takes an empty directory away, and one takes a directory elsewhere with all that is in it.
-/

namespace FtpServer

open Text

/-- The names that lead from the server root to a place. -/
def Place.key (p : Place) : Key := p.segments.map encode

def FileCall.SparesDirectories : FileCall → Prop
  | .removeDirectory _ | .rename _ _ => False
  | _ => True

namespace Tree

/-- Everything strictly below the root lies in directories, and nothing else was changed. -/
structure KeepsNest (before : Tree) (k : Key) (t : Tree) : Prop extends KeepsRoot before k t where
  nested : t.Nested

variable {before t t' : Tree} {k directory : Key} {root : String} {p source target : Place}
variable {found : Found} {last : Bytes}

theorem KeepsNest.setContents (h : KeepsNest before k t) (contents : List Content) :
    KeepsNest before k { t with contents := contents } :=
  ⟨h.toKeepsRoot.setContents contents, h.nested⟩

section Places

variable (h : KeepsRoot before k t) (hroot : RootAt before root k) (hp : p.Confined root)

include h hroot hp

theorem KeepsRoot.walks_isAt (hwalk : Walks t linkLimit (t.startOf p.names) p.names found) :
    found.IsAt t (k ++ p.key) := by
  obtain ⟨left, hdown⟩ := h.walks_place hroot hp hwalk
  exact h.walks_exact List.prefix_rfl (h.isDirectory hroot.isDirectory) hp.names_stepDown hdown

theorem KeepsRoot.locate_isAt (hlocate : t.locate p = .ok found) : found.IsAt t (k ++ p.key) :=
  h.walks_isAt hroot hp (walks_of_locate hlocate)

theorem KeepsRoot.isDirectory_of_look (hlook : t.look p = .ok .directory) :
    t.isDirectory (k ++ p.key) = true := by
  obtain ⟨found, hlocate, hkind⟩ := bind_eq_ok.1 hlook
  have hat := h.locate_isAt hroot hp hlocate
  cases found with
  | missing => cases hkind
  | existing key e =>
    obtain ⟨rfl, hfind⟩ := hat
    refine isDirectory_of_entry hfind ?_
    have hdirectory : e.node.kind = .directory := Except.ok.inj hkind
    cases hnode : e.node with
    | directory => rfl
    | _ => rw [hnode] at hdirectory; cases hdirectory

theorem KeepsRoot.parent_isAt (hne : p.segments ≠ [])
    (hparent : t.locateParent p = .ok (directory, .name last)) :
    directory ++ [last] = k ++ p.key ∧ t.isDirectory directory = true := by
  obtain ⟨left, names, e, hnames, hkind, hwalk⟩ := h.parent_walks hroot hp hne hparent
  obtain ⟨rfl, hfind⟩ := h.walks_exact List.prefix_rfl (h.isDirectory hroot.isDirectory)
    (hp.front_stepDown hnames) hwalk
  refine ⟨?_, isDirectory_of_entry hfind ?_⟩
  · rw [Place.key, hnames, List.append_assoc]
  · cases hnode : e.node with
    | directory => rfl
    | _ => rw [hnode] at hkind; cases hkind

end Places

def Shelters (t t' : Tree) : Prop := ∀ key, t.isDirectory key = true → t'.isDirectory key = true

section Calls

variable (h : KeepsNest before k t) (hroot : RootAt before root k)

include h hroot

theorem KeepsNest.makeDirectory (hp : p.Confined root) (hmade : t.makeDirectory p = .ok t') :
    KeepsNest before k t' ∧ t.Shelters t' := by
  have hkeeps := h.toKeepsRoot.makeDirectory hroot hp hmade
  obtain ⟨directory, name, hparent, hfree, rfl⟩ := makeDirectory_eq_ok hmade
  by_cases htop : p.segments = []
  · exact absurd hfree (h.parent_root hroot hp htop hparent)
  · obtain ⟨-, hdirectory⟩ := h.parent_isAt hroot hp htop hparent
    exact ⟨⟨hkeeps, h.nested.put hdirectory fun _ => rfl⟩,
      fun key hkey => isDirectory_put (by simp) (fun _ => rfl) hkey⟩

theorem KeepsNest.removeFile (hp : p.Confined root) (hne : p.segments ≠ [])
    (hremoved : t.removeFile p = .ok t') : KeepsNest before k t' ∧ t.Shelters t' := by
  have hkeeps := h.toKeepsRoot.removeFile hroot hp hne hremoved
  obtain ⟨directory, name, e, -, hfound, hfile, rfl⟩ := removeFile_eq_ok hremoved
  have hnot : t.isDirectory (directory ++ [name]) ≠ true := by
    intro hdirectory
    obtain ⟨mode, modified, hfind⟩ := isDirectory_iff.1 hdirectory
    rw [hfound] at hfind
    exact hfile (Option.some.inj hfind ▸ rfl)
  refine ⟨⟨hkeeps, h.nested.erase (by simp) fun other => h.nested.nothing_below hnot⟩,
    fun key hkey => ?_⟩
  have hother : key ≠ directory ++ [name] := by
    rintro rfl
    exact hnot hkey
  rw [isDirectory_erase (by simp) hother]
  exact hkey

theorem KeepsNest.createFile (hp : p.Confined root) (hne : p.segments ≠ []) {opened : Option Nat}
    (hcreated : t.createFile p = .ok (opened, t')) : KeepsNest before k t' ∧ t.Shelters t' := by
  have hkeeps := h.toKeepsRoot.createFile hroot hp hcreated
  obtain rfl | ⟨key, content, mode, modified, hfound, rfl⟩ | ⟨directory, name, hfound, rfl⟩ :=
    createFile_eq_ok hcreated
  · exact ⟨h, fun _ hkey => hkey⟩
  · obtain ⟨rfl, hfind⟩ := h.walks_isAt hroot hp (walks_of_locateMade hfound)
    have hnot : t.isDirectory (k ++ p.key) ≠ true := by simp [Tree.isDirectory, hfind]
    obtain ⟨init, final, hsegments⟩ := (List.eq_nil_or_concat p.segments).resolve_left hne
    have hkey : k ++ p.key = (k ++ init.map encode) ++ [encode final] := by
      simp [Place.key, hsegments]
    rw [hkey] at hfind hnot hkeeps ⊢
    have hdirectory : t.isDirectory (k ++ init.map encode) = true :=
      h.nested _ (encode final) (by rw [hfind]; simp)
    exact ⟨⟨hkeeps, (h.nested.setContents _).put hdirectory fun hfile => absurd hfile hnot⟩,
      fun key hkey => isDirectory_put (by simp) (fun hfile => absurd hfile hnot) hkey⟩
  · obtain ⟨hkey, hdirectory, hfree⟩ := h.walks_isAt hroot hp (walks_of_locateMade hfound)
    have hnot : t.isDirectory (directory ++ [name]) ≠ true := by
      simp [Tree.isDirectory, hkey, hfree]
    exact ⟨⟨hkeeps, (h.nested.setContents _).put hdirectory fun hfile => absurd hfile hnot⟩,
      fun key hkey => isDirectory_put (by simp) (fun hfile => absurd hfile hnot) hkey⟩

omit hroot in
theorem KeepsNest.changed {result : Except OsError Tree}
    (hresult : ∀ t', result = .ok t' → KeepsNest before k t' ∧ t.Shelters t') :
    KeepsNest before k (t.changed result).2 ∧ t.Shelters (t.changed result).2 := by
  cases result with
  | ok t' => exact hresult t' rfl
  | error e => exact ⟨h, fun _ hkey => hkey⟩

/-- Calls that neither remove a directory nor change a name leave every directory where it is. -/
theorem KeepsNest.perform {lists : Place → Except OsError Bytes} {call : FileCall}
    (hcall : call.Permitted SeesRoot root) (hspares : call.SparesDirectories) :
    KeepsNest before k (t.perform lists call).2 ∧ t.Shelters (t.perform lists call).2 := by
  obtain ⟨hplaces, hroots⟩ := hcall
  have hsame : KeepsNest before k t ∧ t.Shelters t := ⟨h, fun _ hkey => hkey⟩
  cases call with
  | removeDirectory | rename => cases hspares
  | look | openSource | list => exact hsame
  | makeDirectory p =>
    have hp := hplaces p (by simp [FileCall.places])
    exact h.changed fun t' => h.makeDirectory hroot hp
  | removeFile p =>
    have hp := hplaces p (by simp [FileCall.places])
    have hne : p.segments ≠ [] := fun htop => hroots htop rfl
    exact h.changed fun t' => h.removeFile hroot hp hne
  | openSink p =>
    have hp := hplaces p (by simp [FileCall.places])
    dsimp only [Tree.perform, openSink]
    split
    next hcreated => exact h.createFile hroot hp hroots hcreated
    next hcreated => exact h.createFile hroot hp hroots hcreated
    next => exact hsame

theorem KeepsNest.removeDirectory (hp : p.Confined root) (hne : p.segments ≠ [])
    (hremoved : t.removeDirectory p = .ok t') :
    KeepsNest before k t' ∧ ∀ key, key ≠ k ++ p.key → t'.isDirectory key = t.isDirectory key := by
  have hkeeps := h.toKeepsRoot.removeDirectory hroot hp hne hremoved
  obtain ⟨directory, name, hparent, hempty, rfl⟩ := removeDirectory_eq_ok hremoved
  obtain ⟨hkey, -⟩ := h.parent_isAt hroot hp hne hparent
  rw [← hkey]
  refine ⟨⟨hkeeps, h.nested.erase (by simp) fun other => h.nested.nothing_in_empty hempty⟩, ?_⟩
  exact fun key hother => isDirectory_erase (by simp) hother

/-- What lay below the old name lies below the new one, and every other directory stays. -/
theorem KeepsNest.rename (hsource : source.Confined root) (hsourceNe : source.segments ≠ [])
    (htarget : target.Confined root) (htargetNe : target.segments ≠ [])
    (hrenamed : t.rename source target = .ok t') :
    KeepsNest before k t' ∧
      (∀ rest, t.isDirectory (k ++ source.key ++ rest) = true →
        t'.isDirectory (k ++ target.key ++ rest) = true) ∧
      ∀ key, ¬ k ++ source.key <+: key → t.isDirectory key = true → t'.isDirectory key = true := by
  have hkeeps := h.toKeepsRoot.rename hroot hsource hsourceNe htarget htargetNe hrenamed
  obtain ⟨sourceDir, sourceName, targetDir, targetName, e, hfrom, hto, hcase⟩ :=
    rename_eq_ok hrenamed
  obtain ⟨hold, -⟩ := h.parent_isAt hroot hsource hsourceNe hfrom
  obtain ⟨hnew, hdirectory⟩ := h.parent_isAt hroot htarget htargetNe hto
  rw [← hold, ← hnew]
  rcases hcase with ⟨hsame, rfl⟩ | hmoves
  · refine ⟨h, fun rest hkey => ?_, fun key _ hkey => hkey⟩
    rw [← hsame]
    exact hkey
  · have hnested := h.nested
    refine ⟨⟨hkeeps, hmoves.nested hnested (by simp) rfl hdirectory⟩, fun rest hkey => ?_,
      fun key hout hkey => hmoves.isDirectory_stays hnested (by simp) (by simp) hkey hout⟩
    have hfind := hmoves.find?_target hnested (by simp) (by simp) rest
    unfold Tree.isDirectory at hkey ⊢
    rw [hfind]
    exact hkey

end Calls

end Tree

end FtpServer
