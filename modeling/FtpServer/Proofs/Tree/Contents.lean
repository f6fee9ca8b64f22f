import FtpServer.Proofs.Tree.Calls

/-!
# What files hold

Reading a content piece by piece gives its bytes in order, and writing at its end appends.  The file
that was opened to be written is found again by its place, and it is empty.
-/

namespace FtpServer

open Text

namespace Content

variable (c : Content)

theorem length_toBytes : c.toBytes.length = c.size := by simp [toBytes, size]

theorem read_eq (offset most : Nat) : c.read offset most = (c.toBytes.drop offset).take most := by
  have hdrop : c.toBytes.drop offset =
      c.bytes.drop offset ++ List.replicate (c.size - max offset c.bytes.length) 0 := by
    rw [toBytes, List.drop_append, List.drop_replicate]
    congr 2
    unfold size
    omega
  rw [hdrop, List.take_append, List.take_replicate]
  show (c.bytes.drop offset).take most ++ _ = _
  congr 2
  simp only [List.length_take, List.length_drop]
  omega

/-- Writing at the end appends, also where zeros stand at the end. -/
theorem toBytes_write (chunk : Bytes) : (c.write c.size chunk).toBytes = c.toBytes ++ chunk := by
  unfold write
  split
  next hplain =>
    obtain ⟨bytes, zeros⟩ := c
    obtain rfl : zeros = 0 := hplain.1
    simp [toBytes]
  next =>
    have hlength := c.length_toBytes
    have hbefore : c.toBytes.take c.size = c.toBytes := List.take_of_length_le (by omega)
    have hafter : c.toBytes.drop (c.size + chunk.length) = [] :=
      List.drop_of_length_le (by omega)
    simp only [hbefore, hafter, hlength, Nat.sub_self, List.replicate_zero, List.append_nil]
    rw [toBytes]
    simp

end Content

namespace Source

def content? : Source → Option Nat
  | .file content _ => some content
  | _ => none

end Source

/-- Neither a directory nor a link: a walk ends there. -/
def Node.IsLeaf (node : Node) : Prop := node.kind ≠ .directory ∧ node.kind ≠ .symlink

theorem Node.isLeaf_file (content : Nat) : (Node.file content).IsLeaf :=
  ⟨by simp [kind], by simp [kind]⟩

namespace Tree

variable {t t' : Tree} {p : Place} {number : Nat} {c : Content} {key target : Key} {e : Entry}

theorem content_setContent (h : number < t.contents.length) :
    (t.setContent number c).content number = c := by
  simp [content, setContent, h]

def rest (t : Tree) : Source → Bytes
  | .bytes rest => rest
  | .file content offset => (t.content content).toBytes.drop offset
  | .unreadable _ => []

theorem rest_congr {source : Source}
    (h : ∀ k, source.content? = some k → t'.contents[k]? = t.contents[k]?) :
    t'.rest source = t.rest source := by
  cases source with
  | file content offset => simp [rest, Tree.content, h content rfl]
  | bytes | unreadable => rfl

/-- What is read is the beginning of what was left, and the source goes on behind it. -/
theorem readSource_eq_ok {most : Nat} {source source' : Source} {chunk : Bytes}
    (h : t.readSource most source = .ok (chunk, source')) :
    chunk = (t.rest source).take most ∧ t.rest source = chunk ++ t.rest source' ∧
      source'.content? = source.content? := by
  cases source with
  | bytes rest =>
    obtain ⟨rfl, rfl⟩ := Prod.mk.inj (Except.ok.inj h)
    exact ⟨rfl, (List.take_append_drop most rest).symm, rfl⟩
  | file content offset =>
    obtain ⟨rfl, rfl⟩ := Prod.mk.inj (Except.ok.inj h)
    have hread := (t.content content).read_eq offset most
    have hprefix : (t.content content).read offset most <+: t.rest (.file content offset) := by
      rw [hread]
      exact List.take_prefix most _
    have hsplit := List.prefix_iff_eq_append.1 hprefix
    refine ⟨hread, ?_, rfl⟩
    rw [← hsplit]
    simp [rest]
  | unreadable => cases h

theorem writeSink_unwritable {chunk : Bytes} {cause : OsError} {sink : Sink}
    (h : t.writeSink chunk (.unwritable cause) = .ok (sink, t')) :
    chunk = [] ∧ sink = .unwritable cause ∧ t' = t := by
  unfold writeSink at h
  split at h
  next hsink => cases hsink
  next hsink =>
    obtain rfl := Sink.unwritable.inj hsink
    split at h
    next hnone =>
      obtain ⟨rfl, rfl⟩ := Prod.mk.inj (Except.ok.inj h)
      exact ⟨hnone, rfl, rfl⟩
    next => cases h

/-- Every file has a content. -/
def Numbered (t : Tree) : Prop :=
  ∀ entry ∈ t.entries, ∀ number, entry.2.node = .file number → number < t.contents.length

def numbers (t : Tree) : Node → Bool
  | .file number => number < t.contents.length
  | _ => true

instance (t : Tree) : Decidable t.Numbered :=
  decidable_of_iff (t.entries.all fun entry => t.numbers entry.2.node) <| by
    rw [List.all_eq_true]
    refine forall₂_congr fun entry _ => ?_
    cases entry.2.node <;> simp [numbers]

theorem Numbered.lt_of_find? (h : t.Numbered) (hfind : t.find? key = some e)
    (hnode : e.node = .file number) : number < t.contents.length := by
  by_cases htop : key = []
  · subst htop
    rw [find?_top] at hfind
    obtain rfl := Option.some.inj hfind
    cases hnode
  · exact h _ (mem_entries_of_find? htop hfind) number hnode

theorem Numbered.setContents (h : t.Numbered) {contents : List Content}
    (hmore : t.contents.length ≤ contents.length) :
    Numbered { t with contents := contents } := fun entry hentry number hnode =>
  Nat.lt_of_lt_of_le (h entry hentry number hnode) hmore

theorem Numbered.put (h : t.Numbered)
    (hnode : ∀ number, e.node = .file number → number < t.contents.length) :
    (t.put key e).Numbered := by
  intro entry hentry
  rcases List.mem_cons.1 hentry with rfl | hold
  · exact hnode
  · exact h entry (List.mem_filter.1 hold).1

theorem Numbered.erase (h : t.Numbered) : (t.erase key).Numbered :=
  fun entry hentry => h entry (List.mem_filter.1 hentry).1

theorem Numbered.move (h : t.Numbered) : (t.move key target).Numbered := by
  intro entry hentry
  obtain ⟨old, hold, rfl⟩ := List.mem_map.1 hentry
  have hnode := h.erase old hold
  dsimp only
  split
  next => exact hnode
  next => exact hnode

theorem Numbered.changed (h : t.Numbered) {result : Except OsError Tree}
    (hresult : ∀ t', result = .ok t' → t'.Numbered) : (t.changed result).2.Numbered := by
  cases result with
  | ok t' => exact hresult t' rfl
  | error => exact h

theorem Numbered.createFile (h : t.Numbered) {opened : Option Nat}
    (hcreated : t.createFile p = .ok (opened, t')) : t'.Numbered := by
  obtain rfl | ⟨key, content, mode, modified, hfound, rfl⟩ | ⟨directory, name, -, rfl⟩ :=
    createFile_eq_ok hcreated
  · exact h
  · have hfind := (walks_of_locateMade hfound).find?_existing (by simp [Node.kind])
    have hold : content < t.contents.length := h.lt_of_find? hfind rfl
    refine (h.setContents ?_).put fun number hnode => ?_
    · simp
    · obtain rfl := Node.file.inj hnode
      simpa [setContent] using hold
  · refine (h.setContents ?_).put fun number hnode => ?_
    · simp
    · obtain rfl := Node.file.inj hnode
      simp

theorem Numbered.perform (h : t.Numbered) (lists : Place → Except OsError Bytes)
    (call : FileCall) : (t.perform lists call).2.Numbered := by
  cases call with
  | look | openSource | list => exact h
  | makeDirectory p =>
    refine h.changed fun t' hmade => ?_
    obtain ⟨directory, name, -, -, rfl⟩ := makeDirectory_eq_ok hmade
    exact h.put fun number hnode => by cases hnode
  | removeDirectory p =>
    refine h.changed fun t' hremoved => ?_
    obtain ⟨directory, name, -, -, rfl⟩ := removeDirectory_eq_ok hremoved
    exact h.erase
  | removeFile p =>
    refine h.changed fun t' hremoved => ?_
    obtain ⟨directory, name, e, -, -, -, rfl⟩ := removeFile_eq_ok hremoved
    exact h.erase
  | rename source target =>
    refine h.changed fun t' hrenamed => ?_
    obtain ⟨sourceDir, sourceName, targetDir, targetName, e, -, -, ⟨-, rfl⟩ | hmoves⟩ :=
      rename_eq_ok hrenamed
    · exact h
    · exact hmoves.tree_eq ▸ h.move
  | openSink p =>
    show (t.openSink p).2.Numbered
    unfold openSink
    split
    next hcreated => exact h.createFile hcreated
    next hcreated => exact h.createFile hcreated
    next => exact h

/-- A leaf stands at `k` where one stood, or nothing. -/
structure Plants (t : Tree) (k : Key) (e : Entry) (t' : Tree) : Prop where
  planted : t'.find? k = some e
  leaf : e.node.IsLeaf
  before : ∀ old, t.find? k = some old → old.node.IsLeaf
  others : ∀ key, key ≠ k → t'.find? key = t.find? key

def Found.LeadsTo (k : Key) : Found → Prop
  | .existing key _ => key = k
  | .missing directory name => directory ++ [name] = k

section Plants

variable {k : Key} {made : Bool} {follow follow' : Key → List Bytes → Except OsError Found}
variable {here : Key} {names : List Bytes} {found : Found} {links : Nat} {name : Bytes}

theorem walkNames_leaf (hname : ¬ (name = [] ∨ name = dot)) (hup : name ≠ dotdot)
    (hlong : ¬ nameLimit < name.length) (hfind : t.find? (here ++ [name]) = some e)
    (hleaf : e.node.IsLeaf) :
    t.walkNames false follow here [name] = .ok (.existing (here ++ [name]) e) := by
  obtain ⟨node, mode, modified⟩ := e
  obtain ⟨hdirectory, hlink⟩ := hleaf
  cases node with
  | directory => exact absurd rfl hdirectory
  | symlink => exact absurd rfl hlink
  | file | other => simp [walkNames, hname, hup, hlong, hfind]

/-- What may be made where it is missing is found as anything else is. -/
theorem walkNames_unmade
    (hfollow : ∀ here names found, follow here names = .ok found →
      follow' here names = .ok found)
    (hwalk : t.walkNames made follow here names = .ok found) :
    t.walkNames false follow' here names = .ok found := by
  fun_induction Tree.walkNames t made follow here names with
  | case1 here => exact hwalk
  | case2 here name rest hname ih =>
    rw [walkNames, if_pos hname]
    exact ih hwalk
  | case3 here rest hname ih =>
    rw [walkNames, if_neg hname, if_pos rfl]
    exact ih hwalk
  | case4 | case5 | case7 | case11 => simp at hwalk
  | case6 here name hskip hup hlong hfind =>
    rw [walkNames, if_neg hskip, if_neg hup, if_neg (by simp), if_neg (by assumption)]
    simp_all
  | case8 here name rest hskip hup hmade hlong mode modified hfind ih =>
    rw [walkNames, if_neg hskip, if_neg hup, if_neg (by simp), if_neg hlong, hfind]
    exact ih hwalk
  | case9 here name rest hskip hup hmade hlong target mode modified hfind =>
    rw [walkNames, if_neg hskip, if_neg hup, if_neg (by simp), if_neg hlong, hfind]
    exact hfollow _ _ _ hwalk
  | case10 here name hskip hup hlong e hdirectory hlink hfind =>
    obtain rfl := Except.ok.inj hwalk
    refine walkNames_leaf hskip hup (by assumption) hfind ?_
    obtain ⟨node, mode, modified⟩ := e
    cases node with
    | directory => exact absurd rfl (hdirectory mode modified)
    | symlink target => exact absurd rfl (hlink target mode modified)
    | file | other => simp [Node.IsLeaf, Node.kind]

theorem walk_unmade (hwalk : t.walk made links here names = .ok found) :
    t.walk false links here names = .ok found := by
  induction links generalizing here names found with
  | zero => exact walkNames_unmade (fun _ _ _ hnone => by cases hnone) hwalk
  | succ left ih => exact walkNames_unmade (fun _ _ _ hrest => ih hrest) hwalk

theorem locate_of_locateMade (hlocate : t.locateMade p = .ok found) : t.locate p = .ok found := by
  obtain ⟨names, hnames, hwalk⟩ := bind_eq_ok.1 hlocate
  exact bind_eq_ok.2 ⟨names, hnames, walk_unmade hwalk⟩

theorem Plants.walkNames (h : t.Plants k e t')
    (hfollow : ∀ here names found, follow here names = .ok found → found.LeadsTo k →
      follow' here names = .ok (.existing k e))
    (hwalk : t.walkNames made follow here names = .ok found) (hleads : found.LeadsTo k) :
    t'.walkNames false follow' here names = .ok (.existing k e) := by
  fun_induction Tree.walkNames t made follow here names with
  | case1 here =>
    obtain rfl := Except.ok.inj hwalk
    obtain rfl : here = k := hleads
    simp [Tree.walkNames, h.planted]
  | case2 here name rest hname ih =>
    rw [Tree.walkNames, if_pos hname]
    exact ih hwalk
  | case3 here rest hname ih =>
    rw [Tree.walkNames, if_neg hname, if_pos rfl]
    exact ih hwalk
  | case4 | case5 | case7 | case11 => simp at hwalk
  | case6 here name hskip hup hlong hfind hmade =>
    obtain rfl := Except.ok.inj hwalk
    obtain rfl : here ++ [name] = k := hleads
    exact walkNames_leaf hskip hup hlong h.planted h.leaf
  | case8 here name rest hskip hup hmade hlong mode modified hfind ih =>
    have hne : here ++ [name] ≠ k := by
      rintro rfl
      exact (h.before _ hfind).1 rfl
    have hfind' := (h.others _ hne).trans hfind
    rw [Tree.walkNames, if_neg hskip, if_neg hup, if_neg (by simp), if_neg hlong, hfind']
    exact ih hwalk
  | case9 here name rest hskip hup hmade hlong target mode modified hfind =>
    have hne : here ++ [name] ≠ k := by
      rintro rfl
      exact (h.before _ hfind).2 rfl
    have hfind' := (h.others _ hne).trans hfind
    rw [Tree.walkNames, if_neg hskip, if_neg hup, if_neg (by simp), if_neg hlong, hfind']
    exact hfollow _ _ _ hwalk hleads
  | case10 here name hskip hup hlong =>
    obtain rfl := Except.ok.inj hwalk
    obtain rfl : here ++ [name] = k := hleads
    exact walkNames_leaf hskip hup (by assumption) h.planted h.leaf

theorem Plants.walk (h : t.Plants k e t') (hwalk : t.walk made links here names = .ok found)
    (hleads : found.LeadsTo k) : t'.walk false links here names = .ok (.existing k e) := by
  induction links generalizing here names found with
  | zero => exact h.walkNames (fun _ _ _ hnone => by cases hnone) hwalk hleads
  | succ left ih => exact h.walkNames (fun _ _ _ hrest hleads => ih hrest hleads) hwalk hleads

theorem Plants.locate (h : t.Plants k e t') (hstart : t'.start = t.start)
    (hlocate : t.locateMade p = .ok found) (hleads : found.LeadsTo k) :
    t'.locate p = .ok (.existing k e) := by
  obtain ⟨names, hnames, hwalk⟩ := bind_eq_ok.1 hlocate
  refine bind_eq_ok.2 ⟨names, hnames, ?_⟩
  have hsame : t'.startOf names = t.startOf names := by
    unfold startOf
    rw [hstart]
  rw [hsame]
  exact h.walk hwalk hleads

end Plants

theorem plants_put {k : Key} (hk : k ≠ []) (hleaf : e.node.IsLeaf)
    (hbefore : ∀ old, t.find? k = some old → old.node.IsLeaf) (contents : List Content) :
    t.Plants k e (({ t with contents := contents } : Tree).put k e) where
  planted := by rw [find?_put hk, if_pos rfl]
  leaf := hleaf
  before := hbefore
  others other hother := by
    rw [find?_put hk, if_neg hother]
    rfl

/-- A file that was opened to be written is found again at its place, and it is empty. -/
theorem openFile_of_createFile (h : t.Numbered)
    (hcreated : t.createFile p = .ok (some number, t')) :
    t'.openFile p = .ok (some number) ∧ t'.contents[number]? = some .empty := by
  obtain ⟨found, hfound, hcreated⟩ := bind_eq_ok.1 hcreated
  split at hcreated
  next => cases hcreated
  next key content mode modified =>
    obtain ⟨hsome, rfl⟩ := Prod.mk.inj (Except.ok.inj hcreated)
    obtain rfl := Option.some.inj hsome
    have hfind := (walks_of_locateMade hfound).find?_existing (Node.isLeaf_file content).1
    have hkey : key ≠ [] := by
      rintro rfl
      simp at hfind
    have hplants := plants_put (e := ⟨.file content, mode, t.now⟩) hkey (Node.isLeaf_file content)
      (fun old hold => Option.some.inj (hfind.symm.trans hold) ▸ Node.isLeaf_file content)
      (t.contents.set content .empty)
    refine ⟨bind_eq_ok.2 ⟨_, hplants.locate rfl hfound rfl, rfl⟩, ?_⟩
    exact List.getElem?_set_self (h.lt_of_find? hfind rfl)
  next => cases hcreated
  next directory name =>
    obtain ⟨hsome, rfl⟩ := Prod.mk.inj (Except.ok.inj hcreated)
    obtain rfl := Option.some.inj hsome
    have hfree := (walks_of_locateMade hfound).find?_missing
    have hplants := plants_put (e := ⟨.file t.contents.length, fileMode, t.now⟩)
      (k := directory ++ [name]) (by simp) (Node.isLeaf_file _)
      (fun old hold => by cases hfree.symm.trans hold) (t.contents ++ [Content.empty])
    refine ⟨bind_eq_ok.2 ⟨_, hplants.locate rfl hfound rfl, rfl⟩, ?_⟩
    exact List.getElem?_concat_length

theorem openFile_of_createNone (hcreated : t.createFile p = .ok (none, t')) :
    t'.openFile p = .ok none := by
  obtain ⟨found, hfound, hcreated⟩ := bind_eq_ok.1 hcreated
  split at hcreated
  next => cases hcreated
  next => cases hcreated
  next key e hdirectory hfile =>
    obtain ⟨-, rfl⟩ := Prod.mk.inj (Except.ok.inj hcreated)
    obtain ⟨node, mode, modified⟩ := e
    cases node with
    | directory => exact absurd rfl (hdirectory mode modified)
    | file content => exact absurd rfl (hfile content mode modified)
    | symlink | other => exact bind_eq_ok.2 ⟨_, locate_of_locateMade hfound, rfl⟩
  next => cases hcreated

/-- Where a file was opened to be written, it is found again, and it is empty; any other node takes
no byte. -/
theorem openSink_eq_ok {sink : Sink} (h : t.Numbered) (hopen : t.openSink p = (.ok sink, t')) :
    (∃ k, sink = .file k 0 ∧ t'.openFile p = .ok (some k) ∧ t'.contents[k]? = some .empty) ∨
      sink = .unwritable .noSpace ∧ t'.openFile p = .ok none := by
  unfold openSink at hopen
  split at hopen
  next k t₁ hcreated =>
    obtain ⟨hsink, rfl⟩ := Prod.mk.inj hopen
    obtain rfl := Except.ok.inj hsink
    exact .inl ⟨k, rfl, openFile_of_createFile h hcreated⟩
  next t₁ hcreated =>
    obtain ⟨hsink, rfl⟩ := Prod.mk.inj hopen
    obtain rfl := Except.ok.inj hsink
    exact .inr ⟨rfl, openFile_of_createNone hcreated⟩
  next => cases hopen

end Tree

end FtpServer
