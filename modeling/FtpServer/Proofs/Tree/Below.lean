import FtpServer.Proofs.Tree.Walks

/-!
# Walking below a directory

A tree in which nothing changed but below the directory `k`, and which has no link there, leads the
names of `k` to `k` or nowhere, and plain names behind them further down.
-/

namespace FtpServer.Tree

open Text

/-- Nothing changed but strictly below `k`, and no link is at or below `k`. -/
structure KeepsRoot (before : Tree) (k : Key) (t : Tree) : Prop where
  start_eq : t.start = before.start
  find?_eq : ∀ key, ¬ (k <+: key ∧ key ≠ k) → t.find? key = before.find? key
  noLink : ∀ key e, (key, e) ∈ t.entries → k <+: key → e.node.kind ≠ .symlink

def Found.Below (k : Key) : Found → Prop
  | .existing key _ => k <+: key
  | .missing directory _ => k <+: directory

variable {before t : Tree} {k here directory : Key} {links : Nat} {names rest : List Bytes}
variable {name : Bytes} {found : Found} {e : Entry}

theorem KeepsRoot.noLink_find? (h : KeepsRoot before k t) {key : Key} (hk : k <+: key)
    (hfind : t.find? key = some e) : e.node.kind ≠ .symlink := by
  by_cases htop : key = []
  · subst htop
    rw [find?_top, Option.some.injEq] at hfind
    simp [← hfind, Node.kind]
  · exact h.noLink key e (mem_entries_of_find? htop hfind) hk

theorem prefix_snoc (h : k <+: here) (name : Bytes) : k <+: here ++ [name] :=
  h.trans (List.prefix_append ..)

theorem snoc_ne_of_prefix (h : k <+: here) (name : Bytes) : here ++ [name] ≠ k := by
  intro heq
  have hlength := h.length_le
  rw [← heq, List.length_append, List.length_singleton] at hlength
  omega

theorem KeepsRoot.walks_below (h : KeepsRoot before k t) (hhere : k <+: here)
    (hnames : ∀ name ∈ names, StepsDown name) (hwalk : Walks t links here names found) :
    found.Below k := by
  induction hwalk with
  | arrived => exact hhere
  | skip hskip _ _ => exact absurd hskip (hnames _ List.mem_cons_self).notSkipped
  | up _ _ => exact absurd rfl (hnames _ List.mem_cons_self).notDotDot
  | free => exact hhere
  | down _ _ _ ih =>
    exact ih (prefix_snoc hhere _) fun n hn => hnames n (List.mem_cons_of_mem _ hn)
  | link _ hfind _ _ => exact absurd rfl (h.noLink_find? (prefix_snoc hhere _) hfind)
  | leaf => exact prefix_snoc hhere _

/-- `key` leads to what was found, or is free in a directory. -/
def Found.IsAt (t : Tree) (key : Key) : Found → Prop
  | .existing k e => k = key ∧ t.find? key = some e
  | .missing directory name =>
    directory ++ [name] = key ∧ t.isDirectory directory = true ∧ t.find? key = none

theorem isDirectory_iff :
    t.isDirectory k = true ↔ ∃ mode modified, t.find? k = some ⟨.directory, mode, modified⟩ := by
  unfold isDirectory
  split
  next mode modified hfind => simp [hfind]
  next hother =>
    refine ⟨fun h => (by cases h), ?_⟩
    rintro ⟨mode, modified, hfind⟩
    exact absurd hfind (hother mode modified)

theorem KeepsRoot.walks_exact (h : KeepsRoot before k t) (hhere : k <+: here)
    (hdirectory : t.isDirectory here = true) (hnames : ∀ name ∈ names, StepsDown name)
    (hwalk : Walks t links here names found) : found.IsAt t (here ++ names) := by
  induction hwalk with
  | arrived links here =>
    obtain ⟨mode, modified, hfind⟩ := isDirectory_iff.1 hdirectory
    simp [Found.IsAt, hfind]
  | skip hskip _ _ => exact absurd hskip (hnames _ List.mem_cons_self).notSkipped
  | up _ _ => exact absurd rfl (hnames _ List.mem_cons_self).notDotDot
  | free _ hfree => exact ⟨rfl, hdirectory, hfree⟩
  | down _ hfind _ ih =>
    have hrest := ih (prefix_snoc hhere _) (isDirectory_iff.2 ⟨_, _, hfind⟩)
      fun n hn => hnames n (List.mem_cons_of_mem _ hn)
    rwa [List.append_assoc] at hrest
  | link _ hfind _ _ => exact absurd rfl (h.noLink_find? (prefix_snoc hhere _) hfind)
  | leaf _ hfind => exact ⟨rfl, hfind⟩

theorem KeepsRoot.find?_link (h : KeepsRoot before k t) (hbefore : KeepsRoot before k before)
    {key : Key} (hfind : t.find? key = some e ∨ before.find? key = some e)
    (hlink : e.node.kind = .symlink) : t.find? key = before.find? key := by
  refine h.find?_eq key fun hbelow => ?_
  rcases hfind with hfind | hfind
  · exact h.noLink_find? hbelow.1 hfind hlink
  · exact hbefore.noLink_find? hbelow.1 hfind hlink

theorem KeepsRoot.find?_self (h : KeepsRoot before k t) : t.find? k = before.find? k :=
  h.find?_eq k fun hbelow => hbelow.2 rfl

theorem KeepsRoot.isDirectory (h : KeepsRoot before k t) (hdirectory : before.isDirectory k) :
    t.isDirectory k := by
  rw [isDirectory_iff] at hdirectory ⊢
  rwa [h.find?_self]

/-- Names that once led to `k` lead there, or nowhere: both walks go through the same places. -/
theorem KeepsRoot.walks_arrives (h : KeepsRoot before k t) (hbefore : KeepsRoot before k before)
    (hdirectory : before.isDirectory k) (hroot : Walks before links here names (.existing k e))
    (hwalk : Walks t links here (names ++ rest) found) : ∃ left, Walks t left k rest found := by
  obtain ⟨mode, modified, hk⟩ := isDirectory_iff.1 hdirectory
  have hkt : t.find? k = some ⟨.directory, mode, modified⟩ := h.find?_self.trans hk
  generalize hend : Found.existing k e = root at hroot
  induction hroot with
  | arrived links here =>
    obtain ⟨rfl, -⟩ := Found.existing.inj hend
    exact ⟨links, hwalk⟩
  | @skip _ _ _ more _ hskip _ ih =>
    rw [List.cons_append] at hwalk
    generalize hall : more ++ rest = all at hwalk
    cases hwalk with
    | skip _ hwalk => exact ih (hall ▸ hwalk) hend
    | up => exact absurd hskip (by decide)
    | free hname | down hname | link hname | leaf hname => exact absurd hskip hname.notSkipped
  | @up _ _ more _ _ ih =>
    rw [List.cons_append] at hwalk
    generalize hall : more ++ rest = all at hwalk
    cases hwalk with
    | skip hskip => exact absurd hskip (by decide)
    | up hwalk => exact ih (hall ▸ hwalk) hend
    | free hname | down hname | link hname | leaf hname => exact absurd rfl hname.notDotDot
  | free => cases hend
  | @down links here name more _ _ _ hname hfind hmore ih =>
    -- Where the names are used up, the walk stands at `k`.
    rw [List.cons_append] at hwalk
    generalize hall : more ++ rest = all at hwalk
    have hlast : all = [] → here ++ [name] = k := by
      intro hnil
      rw [← hall] at hnil
      obtain ⟨rfl, -⟩ := List.append_eq_nil_iff.1 hnil
      cases hmore
      exact (Found.existing.inj hend).1.symm
    cases hwalk with
    | skip hskip => exact absurd hskip hname.notSkipped
    | up => exact absurd rfl hname.notDotDot
    | free _ hfree => simp [hlast rfl, hkt] at hfree
    | down _ _ hwalk => exact ih (hall ▸ hwalk) hend
    | link _ hlink =>
      rw [h.find?_link hbefore (.inl hlink) rfl, hfind] at hlink
      cases hlink
    | leaf _ hleaf hother =>
      rw [hlast rfl, hkt] at hleaf
      exact absurd (Option.some.inj hleaf ▸ rfl) hother
  | @link _ _ _ more _ _ _ _ hname hfind _ ih =>
    have hsame := h.find?_link hbefore (.inr hfind) rfl
    rw [List.cons_append] at hwalk
    generalize hall : more ++ rest = all at hwalk
    cases hwalk with
    | skip hskip => exact absurd hskip hname.notSkipped
    | up => exact absurd rfl hname.notDotDot
    | free _ hfree => simp [hsame, hfind] at hfree
    | down _ hdown => simp [hsame, hfind] at hdown
    | link _ hlink hwalk =>
      rw [hsame, hfind] at hlink
      cases hlink
      rw [← hall, ← List.append_assoc] at hwalk
      exact ih hwalk hend
    | leaf _ hleaf _ hother =>
      rw [hsame, hfind] at hleaf
      exact absurd (Option.some.inj hleaf ▸ rfl) hother
  | leaf _ hfind hother =>
    obtain ⟨rfl, -⟩ := Found.existing.inj hend
    rw [hk] at hfind
    exact absurd (Option.some.inj hfind ▸ rfl) hother

section Changes

variable {key source target : Key}

theorem KeepsRoot.setContents (h : KeepsRoot before k t) (contents : List Content) :
    KeepsRoot before k { t with contents := contents } :=
  ⟨h.start_eq, h.find?_eq, h.noLink⟩

theorem KeepsRoot.put (h : KeepsRoot before k t) (hbelow : k <+: key) (hne : key ≠ k)
    (hlink : e.node.kind ≠ .symlink) : KeepsRoot before k (t.put key e) := by
  have htop : key ≠ [] := fun hnil => hne (by simpa [hnil, eq_comm] using hbelow)
  refine ⟨h.start_eq, fun other hother => ?_, fun other o ho hk => ?_⟩
  · rw [find?_put htop, if_neg (by rintro rfl; exact hother ⟨hbelow, hne⟩), h.find?_eq other hother]
  · rcases List.mem_cons.1 ho with heq | hold
    · obtain ⟨rfl, rfl⟩ := Prod.mk.inj heq
      exact hlink
    · exact h.noLink other o (List.mem_filter.1 hold).1 hk

theorem KeepsRoot.erase (h : KeepsRoot before k t) (hbelow : k <+: key) (hne : key ≠ k) :
    KeepsRoot before k (t.erase key) := by
  have htop : key ≠ [] := fun hnil => hne (by simpa [hnil, eq_comm] using hbelow)
  refine ⟨h.start_eq, fun other hother => ?_, fun other o ho hk => ?_⟩
  · rw [find?_erase htop, if_neg (by rintro rfl; exact hother ⟨hbelow, hne⟩), h.find?_eq other hother]
  · exact h.noLink other o (List.mem_filter.1 ho).1 hk

theorem KeepsRoot.move (h : KeepsRoot before k t) (hsource : k <+: source) (hsourceNe : source ≠ k)
    (htarget : k <+: target) (htargetNe : target ≠ k) :
    KeepsRoot before k (t.move source target) := by
  -- Whatever is not strictly below `k` is not below a key that is.
  have hout : ∀ {other key : Key}, ¬ (k <+: other ∧ other ≠ k) → k <+: key → key ≠ k →
      ¬ key <+: other := by
    intro other key hother hkey hne hdown
    refine hother ⟨hkey.trans hdown, fun heq => hne ?_⟩
    exact (hdown.trans (heq ▸ List.prefix_rfl)).eq_of_length_le hkey.length_le
  refine ⟨h.start_eq, fun other hother => ?_, fun other o ho hk => ?_⟩
  · rw [find?_move (hout hother hsource hsourceNe) (hout hother htarget htargetNe),
      h.find?_eq other hother]
  · obtain ⟨⟨old, o'⟩, hold, heq⟩ := List.mem_map.1 ho
    have hentry := (List.mem_filter.1 hold).1
    dsimp only at heq
    split at heq
    next hmoved =>
      obtain ⟨-, rfl⟩ := Prod.mk.inj heq
      exact h.noLink old o' hentry (hsource.trans hmoved)
    next =>
      obtain ⟨rfl, rfl⟩ := Prod.mk.inj heq
      exact h.noLink old o' hentry hk

end Changes

end FtpServer.Tree
