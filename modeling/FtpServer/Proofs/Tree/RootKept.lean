import FtpServer.Proofs.Confinement
import FtpServer.Proofs.Tree.Below
import FtpServer.Proofs.Tree.Calls

/-!
# The root stays

Calls that a session may make change a tree only strictly below the directory that its root names,
as long as no links lie there.
-/

namespace FtpServer

open Text

theorem Text.encode_inj {s t : String} : encode s = encode t ↔ s = t := by
  refine ⟨fun h => ?_, fun h => h ▸ rfl⟩
  have hbytes : s.toList.utf8Encode = t.toList.utf8Encode := congrArg List.toByteArray h
  rw [← String.toByteArray_ofList, ← String.toByteArray_ofList, String.toByteArray_inj] at hbytes
  simpa using hbytes

theorem IsPlainName.stepsDown {name : String} (h : IsPlainName name) :
    Tree.StepsDown (encode name) := by
  refine ⟨fun hnil => h.nonempty ?_, fun hdot => h.notDot ?_, fun hdotdot => h.notDotDot ?_⟩
  · exact encode_inj.1 hnil
  · exact encode_inj.1 hdot
  · exact encode_inj.1 hdotdot

theorem Place.Confined.names_stepDown {root : String} {p : Place} (h : p.Confined root) :
    ∀ name ∈ p.segments.map encode, Tree.StepsDown name := by
  intro name hname
  obtain ⟨segment, hsegment, rfl⟩ := List.mem_map.1 hname
  exact (h.plain segment hsegment).stepsDown

theorem Place.Confined.front_stepDown {root : String} {p : Place} {names : List Bytes} {last : Bytes}
    (h : p.Confined root) (hnames : p.segments.map encode = names ++ [last]) :
    ∀ name ∈ names, Tree.StepsDown name :=
  fun name hname => h.names_stepDown name (hnames ▸ List.mem_append_left _ hname)

namespace Tree

variable {before t : Tree} {k directory : Key} {root : String} {p : Place} {found : Found}
variable {last : Bytes}

/-- The server root is the directory `k`, with no link at or below it. -/
structure RootAt (t : Tree) (root : String) (k : Key) : Prop where
  located : ∃ e, t.locate (Path.root.place root) = .ok (.existing k e)
  isDirectory : t.isDirectory k
  noLink : ∀ key e, (key, e) ∈ t.entries → k <+: key → e.node.kind ≠ .symlink

theorem RootAt.keepsRoot (h : RootAt t root k) : KeepsRoot t k t :=
  ⟨rfl, fun _ _ => rfl, h.noLink⟩

theorem names_eq_append (p : Place) :
    p.names = (Path.root.place p.root).names ++ p.segments.map encode := by
  simp [Place.names, Path.place]

theorem names_root_ne_nil (root : String) : (Path.root.place root).names ≠ [] := by
  simp [Place.names, split_ne_nil]

theorem KeepsRoot.startOf_eq (h : KeepsRoot before k t) (p : Place) :
    t.startOf p.names = before.startOf (Path.root.place p.root).names := by
  cases hroot : (Path.root.place p.root).names with
  | nil => exact absurd hroot (names_root_ne_nil p.root)
  | cons first rest => simp [names_eq_append p, hroot, startOf, h.start_eq]

theorem KeepsRoot.walks_from_root (h : KeepsRoot before k t) (hroot : RootAt before root k)
    {rest : List Bytes}
    (hwalk : Walks t linkLimit (before.startOf (Path.root.place root).names)
      ((Path.root.place root).names ++ rest) found) : ∃ left, Walks t left k rest found := by
  obtain ⟨e, hlocated⟩ := hroot.located
  exact h.walks_arrives hroot.keepsRoot hroot.isDirectory (walks_of_locate hlocated) hwalk

theorem KeepsRoot.walks_place (h : KeepsRoot before k t) (hroot : RootAt before root k)
    (hp : p.Confined root) (hwalk : Walks t linkLimit (t.startOf p.names) p.names found) :
    ∃ left, Walks t left k (p.segments.map encode) found := by
  rw [h.startOf_eq, names_eq_append p, hp.root_eq] at hwalk
  exact h.walks_from_root hroot hwalk

theorem KeepsRoot.locate_below (h : KeepsRoot before k t) (hroot : RootAt before root k)
    (hp : p.Confined root) (hwalk : Walks t linkLimit (t.startOf p.names) p.names found) :
    found.Below k := by
  obtain ⟨left, hwalk⟩ := h.walks_place hroot hp hwalk
  exact h.walks_below List.prefix_rfl hp.names_stepDown hwalk

theorem KeepsRoot.locate_root (h : KeepsRoot before k t) (hroot : RootAt before root k)
    (hp : p.Confined root) (htop : p.segments = []) (hlocate : t.locate p = .ok found) :
    ∃ e, found = .existing k e ∧ e.node.kind = .directory := by
  obtain ⟨left, hwalk⟩ := h.walks_place hroot hp (walks_of_locate hlocate)
  obtain ⟨mode, modified, hk⟩ := isDirectory_iff.1 (h.isDirectory hroot.isDirectory)
  rw [htop, List.map_nil] at hwalk
  cases hwalk
  exact ⟨_, rfl, by simp [hk, Node.kind]⟩

/-- The last name of a place below the root stands where the others lead from `k`. -/
theorem KeepsRoot.parent_walks (h : KeepsRoot before k t) (hroot : RootAt before root k)
    (hp : p.Confined root) (hbelow : p.segments ≠ [])
    (hparent : t.locateParent p = .ok (directory, .name last)) :
    ∃ left names e, p.segments.map encode = names ++ [last] ∧ e.node.kind = .directory ∧
      Walks t left k names (.existing directory e) := by
  obtain ⟨front, slashes, hend⟩ := endsIn_of_locateParent hparent
  obtain ⟨e, hdirectory, hwalk⟩ := hend.walks
  obtain ⟨init, final, hsegments⟩ := (List.eq_nil_or_concat p.segments).resolve_left hbelow
  have hencoded : p.segments.map encode = init.map encode ++ [encode final] := by
    rw [hsegments, List.concat_eq_append, List.map_append]
    rfl
  have hnames := hend.names_eq
  rw [names_eq_append p, hp.root_eq, hencoded, ← List.append_assoc] at hnames
  -- The last segment is not empty, so no slash follows it.
  have hslashes : slashes = [] := by
    rcases List.eq_nil_or_concat slashes with hnil | ⟨more, slash, rfl⟩
    · exact hnil
    · rw [List.concat_eq_append, ← List.append_assoc] at hnames
      obtain ⟨-, hlast⟩ := List.append_inj' hnames rfl
      have hempty : encode final = [] := (List.cons.inj hlast).1.trans (hend.slashes slash (by simp))
      refine absurd hempty (hp.names_stepDown _ ?_).nonempty
      simp [hencoded]
  subst hslashes
  rw [List.append_nil] at hnames
  obtain ⟨hfront, hlast⟩ := List.append_inj' hnames rfl
  rw [h.startOf_eq, hp.root_eq, ← hfront] at hwalk
  obtain ⟨left, hdown⟩ := h.walks_from_root hroot hwalk
  exact ⟨left, _, e, by rw [hencoded, hlast], hdirectory, hdown⟩

/-- The last name of a place below the root stands in a directory at or below `k`. -/
theorem KeepsRoot.parent_below (h : KeepsRoot before k t) (hroot : RootAt before root k)
    (hp : p.Confined root) (hbelow : p.segments ≠ [])
    (hparent : t.locateParent p = .ok (directory, .name last)) : k <+: directory := by
  obtain ⟨left, names, e, hnames, -, hwalk⟩ := h.parent_walks hroot hp hbelow hparent
  exact h.walks_below List.prefix_rfl (hp.front_stepDown hnames) hwalk

theorem KeepsRoot.parent_root (h : KeepsRoot before k t) (hroot : RootAt before root k)
    (hp : p.Confined root) (htop : p.segments = [])
    (hparent : t.locateParent p = .ok (directory, .name last)) :
    t.find? (directory ++ [last]) ≠ none := by
  intro hfree
  obtain ⟨front, slashes, hend⟩ := endsIn_of_locateParent hparent
  obtain ⟨e, hdirectory, hwalk⟩ := hend.walks
  have hmissing := hwalk.append_free hdirectory hend.last hfree
  obtain ⟨rootEntry, hlocated⟩ := hroot.located
  have harrives := walks_of_locate hlocated
  have hnames := names_eq_append p
  rw [htop, List.map_nil, List.append_nil, hp.root_eq, hend.names_eq] at hnames
  rw [h.startOf_eq, hp.root_eq] at hmissing
  generalize before.startOf (Path.root.place root).names = here at harrives hmissing
  rw [← hnames] at harrives
  rw [← List.append_nil (front ++ [last])] at hmissing
  obtain ⟨left, hnone⟩ := h.walks_arrives hroot.keepsRoot hroot.isDirectory
    (harrives.trim hend.slashes) hmissing
  cases hnone

/-- The root is never taken for a file. -/
def SeesRoot : (call : FileCall) → call.Answer → Prop
  | .look p, r => p.segments = [] → r ≠ .ok .file
  | _, _ => True

variable {t' : Tree} {source target : Place}

theorem snoc_below (h : k <+: directory) (name : Bytes) :
    k <+: directory ++ [name] ∧ directory ++ [name] ≠ k :=
  ⟨prefix_snoc h name, snoc_ne_of_prefix h name⟩

theorem KeepsRoot.look_sees (h : KeepsRoot before k t) (hroot : RootAt before root k)
    (hp : p.Confined root) : SeesRoot (.look p) (t.look p) := by
  intro htop hfile
  obtain ⟨found, hfound, hkind⟩ := bind_eq_ok.1 hfile
  obtain ⟨e, rfl, hdirectory⟩ := h.locate_root hroot hp htop hfound
  have hsame : e.node.kind = .file := Except.ok.inj hkind
  rw [hdirectory] at hsame
  cases hsame

theorem KeepsRoot.makeDirectory (h : KeepsRoot before k t) (hroot : RootAt before root k)
    (hp : p.Confined root) (hmade : t.makeDirectory p = .ok t') : KeepsRoot before k t' := by
  obtain ⟨directory, name, hparent, hfree, rfl⟩ := makeDirectory_eq_ok hmade
  by_cases htop : p.segments = []
  · exact absurd hfree (h.parent_root hroot hp htop hparent)
  · obtain ⟨hbelow, hne⟩ := snoc_below (h.parent_below hroot hp htop hparent) name
    exact h.put hbelow hne (by simp [Node.kind])

theorem KeepsRoot.removeDirectory (h : KeepsRoot before k t) (hroot : RootAt before root k)
    (hp : p.Confined root) (hsegments : p.segments ≠ []) (hremoved : t.removeDirectory p = .ok t') :
    KeepsRoot before k t' := by
  obtain ⟨directory, name, hparent, -, rfl⟩ := removeDirectory_eq_ok hremoved
  obtain ⟨hbelow, hne⟩ := snoc_below (h.parent_below hroot hp hsegments hparent) name
  exact h.erase hbelow hne

theorem KeepsRoot.removeFile (h : KeepsRoot before k t) (hroot : RootAt before root k)
    (hp : p.Confined root) (hsegments : p.segments ≠ []) (hremoved : t.removeFile p = .ok t') :
    KeepsRoot before k t' := by
  obtain ⟨directory, name, e, hparent, -, -, rfl⟩ := removeFile_eq_ok hremoved
  obtain ⟨hbelow, hne⟩ := snoc_below (h.parent_below hroot hp hsegments hparent) name
  exact h.erase hbelow hne

theorem KeepsRoot.rename (h : KeepsRoot before k t) (hroot : RootAt before root k)
    (hsource : source.Confined root) (hsourceNe : source.segments ≠ [])
    (htarget : target.Confined root) (htargetNe : target.segments ≠ [])
    (hrenamed : t.rename source target = .ok t') : KeepsRoot before k t' := by
  obtain ⟨sourceDir, sourceName, targetDir, targetName, e, hfrom, hto, ⟨-, rfl⟩ | hmoves⟩ :=
    rename_eq_ok hrenamed
  · exact h
  · rw [hmoves.tree_eq]
    obtain ⟨hold, holdNe⟩ := snoc_below (h.parent_below hroot hsource hsourceNe hfrom) sourceName
    obtain ⟨hnew, hnewNe⟩ := snoc_below (h.parent_below hroot htarget htargetNe hto) targetName
    exact h.move hold holdNe hnew hnewNe

theorem KeepsRoot.createFile (h : KeepsRoot before k t) (hroot : RootAt before root k)
    (hp : p.Confined root) {opened : Option Nat}
    (hcreated : t.createFile p = .ok (opened, t')) : KeepsRoot before k t' := by
  obtain rfl | ⟨key, content, mode, modified, hfound, rfl⟩ | ⟨directory, name, hfound, rfl⟩ :=
    createFile_eq_ok hcreated
  · exact h
  · have hwalk := walks_of_locateMade hfound
    have hbelow : k <+: key := h.locate_below hroot hp hwalk
    obtain ⟨rootMode, rootModified, hk⟩ := isDirectory_iff.1 (h.isDirectory hroot.isDirectory)
    have hfile := hwalk.find?_existing (by simp [Node.kind])
    -- What was opened is a file, and the root is none.
    have hne : key ≠ k := by
      rintro rfl
      rw [hk] at hfile
      cases hfile
    exact (h.setContents _).put hbelow hne (by simp [Node.kind])
  · have hbelow : k <+: directory := h.locate_below hroot hp (walks_of_locateMade hfound)
    obtain ⟨hput, hne⟩ := snoc_below hbelow name
    exact (h.setContents _).put hput hne (by simp [Node.kind])

theorem KeepsRoot.changed (h : KeepsRoot before k t) {result : Except OsError Tree}
    (hresult : ∀ t', result = .ok t' → KeepsRoot before k t') :
    KeepsRoot before k (t.changed result).2 := by
  cases result with
  | ok t' => exact hresult t' rfl
  | error e => exact h

/-- Whatever a session may call, the root is seen as what it is and stays as it was. -/
theorem KeepsRoot.perform (h : KeepsRoot before k t) (hroot : RootAt before root k)
    {lists : Place → Except OsError Bytes} {call : FileCall}
    (hcall : call.Permitted SeesRoot root) :
    SeesRoot call (t.perform lists call).1 ∧ KeepsRoot before k (t.perform lists call).2 := by
  obtain ⟨hplaces, hspares⟩ := hcall
  cases call with
  | look p => exact ⟨h.look_sees hroot (hplaces p (by simp [FileCall.places])), h⟩
  | makeDirectory p =>
    have hp := hplaces p (by simp [FileCall.places])
    exact ⟨trivial, h.changed fun t' => h.makeDirectory hroot hp⟩
  | removeDirectory p =>
    have hp := hplaces p (by simp [FileCall.places])
    exact ⟨trivial, h.changed fun t' => h.removeDirectory hroot hp hspares⟩
  | removeFile p =>
    have hp := hplaces p (by simp [FileCall.places])
    have hne : p.segments ≠ [] := fun htop => hspares htop rfl
    exact ⟨trivial, h.changed fun t' => h.removeFile hroot hp hne⟩
  | rename source target =>
    have hsource := hplaces source (by simp [FileCall.places])
    have htarget := hplaces target (by simp [FileCall.places])
    exact ⟨trivial, h.changed fun t' => h.rename hroot hsource hspares.1 htarget hspares.2⟩
  | openSource p => exact ⟨trivial, h⟩
  | list p => exact ⟨trivial, h⟩
  | openSink p =>
    have hp := hplaces p (by simp [FileCall.places])
    refine ⟨trivial, ?_⟩
    dsimp only [Tree.perform, openSink]
    split
    next hcreated => exact h.createFile hroot hp hcreated
    next hcreated => exact h.createFile hroot hp hcreated
    next => exact h

end Tree

end FtpServer
