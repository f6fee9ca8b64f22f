import FtpServer.Proofs.Tree.RootKept
import Mathlib.Data.List.Induction

/-!
# Trees whose nodes lie in directories

No call takes away a directory with something in it: a directory that is neither removed nor renamed
is there after the call, and what lies below a renamed one is found below its new name.
-/

namespace FtpServer.Tree

open Text

def Nested (t : Tree) : Prop :=
  ∀ key name, t.find? (key ++ [name]) ≠ none → t.isDirectory key = true

variable {t t' : Tree} {key k source target parent : Key} {name : Bytes} {e : Entry}

theorem isDirectory_congr (h : t'.find? key = t.find? key) :
    t'.isDirectory key = t.isDirectory key := by
  simp [isDirectory, h]

theorem isDirectory_of_entry (h : t.find? key = some e) (he : e.node = .directory) :
    t.isDirectory key = true := by
  obtain ⟨node, mode, modified⟩ := e
  obtain rfl : node = .directory := he
  exact isDirectory_iff.2 ⟨mode, modified, h⟩

theorem find?_ne_none_of_isDirectory (h : t.isDirectory key = true) : t.find? key ≠ none := by
  obtain ⟨mode, modified, hfind⟩ := isDirectory_iff.1 h
  simp [hfind]

theorem Nested.nothing_below (h : t.Nested) (hk : t.isDirectory k ≠ true) (hbelow : k <+: key)
    (hne : key ≠ k) : t.find? key = none := by
  obtain ⟨rest, rfl⟩ := hbelow
  induction rest using List.reverseRecOn with
  | nil => simp at hne
  | append_singleton init last ih =>
    by_contra hfound
    rw [← List.append_assoc] at hfound
    have hparent := h _ _ hfound
    by_cases hinit : init = []
    · rw [hinit, List.append_nil] at hparent
      exact hk hparent
    · exact find?_ne_none_of_isDirectory hparent (ih (by simpa using hinit))

theorem Nested.nothing_in_empty (h : t.Nested) (hempty : t.children k = []) (hbelow : k <+: key)
    (hne : key ≠ k) : t.find? key = none := by
  have hin : ∀ name, t.find? (k ++ [name]) = none := fun name => by
    by_contra hfound
    obtain ⟨e, he⟩ := Option.ne_none_iff_exists'.1 hfound
    have hmem := mem_entries_of_find? (by simp) he
    simp only [children, List.filterMap_eq_nil_iff] at hempty
    simpa using hempty _ hmem
  obtain ⟨rest, rfl⟩ := hbelow
  cases rest with
  | nil => simp at hne
  | cons name more =>
    cases more with
    | nil => exact hin name
    | cons next more =>
      have hnot : t.isDirectory (k ++ [name]) ≠ true := fun hd =>
        find?_ne_none_of_isDirectory hd (hin name)
      exact h.nothing_below hnot ⟨next :: more, by simp⟩ (by simp)

theorem Nested.setContents (h : t.Nested) (contents : List Content) :
    Nested { t with contents := contents } := h

theorem Nested.put (h : t.Nested) (hparent : t.isDirectory parent = true)
    (hkeeps : t.isDirectory (parent ++ [name]) = true → e.node = .directory) :
    (t.put (parent ++ [name]) e).Nested := by
  have hfind : ∀ key, (t.put (parent ++ [name]) e).find? key =
      if key = parent ++ [name] then some e else t.find? key := fun _ => find?_put (by simp)
  have hstays : ∀ key, t.isDirectory key = true →
      (t.put (parent ++ [name]) e).isDirectory key = true := fun key hkey => by
    by_cases hself : key = parent ++ [name]
    · subst hself
      exact isDirectory_of_entry ((hfind _).trans (if_pos rfl)) (hkeeps hkey)
    · rw [isDirectory_congr ((hfind key).trans (if_neg hself))]
      exact hkey
  intro key' name' hfound
  by_cases hself : key' ++ [name'] = parent ++ [name]
  · obtain ⟨rfl, -⟩ := List.append_inj' hself rfl
    exact hstays _ hparent
  · rw [hfind, if_neg hself] at hfound
    exact hstays _ (h _ _ hfound)

theorem isDirectory_put (hkey : key ≠ []) (hkeeps : t.isDirectory key = true → e.node = .directory)
    (hk : t.isDirectory k = true) : (t.put key e).isDirectory k = true := by
  by_cases hself : k = key
  · subst hself
    exact isDirectory_of_entry ((find?_put hkey).trans (if_pos rfl)) (hkeeps hk)
  · rwa [isDirectory_congr ((find?_put hkey).trans (if_neg hself))]

theorem isDirectory_erase (hkey : key ≠ []) (hne : k ≠ key) :
    (t.erase key).isDirectory k = t.isDirectory k :=
  isDirectory_congr ((find?_erase hkey).trans (if_neg hne))

theorem Nested.erase (h : t.Nested) (hkey : key ≠ [])
    (hnothing : ∀ other, key <+: other → other ≠ key → t.find? other = none) :
    (t.erase key).Nested := by
  intro key' name' hfound
  rw [find?_erase hkey] at hfound
  split at hfound
  next => exact absurd rfl hfound
  next =>
    have hne : key' ≠ key := by
      rintro rfl
      exact hfound (hnothing _ (List.prefix_append ..) (by simp))
    rw [isDirectory_erase hkey hne]
    exact h _ _ hfound

section Moving

variable (hnested : t.Nested) (hmoves : t.Moves source target e t')

include hnested hmoves

theorem Moves.nothing_below (hbelow : target <+: key) (hne : key ≠ target) :
    t.find? key = none := by
  by_cases hdirectory : t.isDirectory target = true
  · obtain ⟨mode, modified, hold⟩ := isDirectory_iff.1 hdirectory
    have hcheck := hmoves.replaces _ hold
    refine hnested.nothing_in_empty ?_ hbelow hne
    unfold checkReplace at hcheck
    split at hcheck
    next =>
      split at hcheck
      next hempty => exact List.isEmpty_iff.1 hempty
      next => cases hcheck
    next hother => exact absurd rfl hother
    next => cases hcheck
    next hother _ => exact absurd rfl hother
  · exact hnested.nothing_below hdirectory hbelow hne

omit hnested in
theorem Moves.directory (hdirectory : t.isDirectory target = true) : e.node = .directory := by
  obtain ⟨mode, modified, hold⟩ := isDirectory_iff.1 hdirectory
  have hcheck := hmoves.replaces _ hold
  unfold checkReplace at hcheck
  split at hcheck
  next hsource _ => exact hsource
  next hother => exact absurd rfl hother
  next => cases hcheck
  next hother _ => exact absurd rfl hother

theorem Moves.find?_target (hsource : source ≠ []) (htarget : target ≠ []) (rest : Key) :
    t'.find? (target ++ rest) = t.find? (source ++ rest) := by
  rw [hmoves.tree_eq]
  exact find?_move_target hsource htarget hmoves.apart
    (fun _ hbelow hne => hmoves.nothing_below hnested hbelow hne) rest

omit hnested in
theorem Moves.find?_elsewhere (hsource : ¬ source <+: key) (htarget : ¬ target <+: key) :
    t'.find? key = t.find? key := by
  rw [hmoves.tree_eq]
  exact find?_move hsource htarget

/-- A directory that does not go with the move stays where it is. -/
theorem Moves.isDirectory_stays (hsource : source ≠ []) (htarget : target ≠ [])
    (hk : t.isDirectory k = true) (hout : ¬ source <+: k) : t'.isDirectory k = true := by
  by_cases hbelow : target <+: k
  · -- Only the replaced directory itself can lie there, and another one takes its place.
    have hself : k = target := by
      by_contra hne
      exact find?_ne_none_of_isDirectory hk (hmoves.nothing_below hnested hbelow hne)
    subst hself
    refine isDirectory_of_entry (e := e) ?_ (hmoves.directory hk)
    have hnew := hmoves.find?_target hnested hsource htarget []
    simpa [hmoves.found] using hnew
  · rw [isDirectory_congr (hmoves.find?_elsewhere hout hbelow)]
    exact hk

theorem Moves.nested {targetDir : Key} {targetName : Bytes} (hsource : source ≠ [])
    (htarget : target = targetDir ++ [targetName]) (hparent : t.isDirectory targetDir = true) :
    t'.Nested := by
  have hne : target ≠ [] := by simp [htarget]
  intro key name hfound
  by_cases hin : target <+: key ++ [name]
  · obtain ⟨rest, hrest⟩ := hin
    rcases List.eq_nil_or_concat rest with rfl | ⟨init, last, rfl⟩
    · rw [List.append_nil, htarget] at hrest
      obtain ⟨rfl, -⟩ := List.append_inj' hrest rfl
      refine hmoves.isDirectory_stays hnested hsource hne hparent fun hbelow => ?_
      exact hmoves.apart (hbelow.trans (htarget ▸ List.prefix_append ..))
    · rw [List.concat_eq_append, ← List.append_assoc] at hrest
      obtain ⟨rfl, hlast⟩ := List.append_inj' hrest rfl
      rw [← hlast, List.append_assoc, hmoves.find?_target hnested hsource hne,
        ← List.append_assoc] at hfound
      have hold := hnested _ _ hfound
      have hnew := hmoves.find?_target hnested hsource hne init
      unfold isDirectory at hold ⊢
      rw [hnew]
      exact hold
  · by_cases hfrom : source <+: key ++ [name]
    · rw [hmoves.tree_eq] at hfound
      exact absurd (find?_move_source hsource hmoves.apart' hmoves.apart hfrom) hfound
    · rw [hmoves.find?_elsewhere hfrom hin] at hfound
      have hold := hnested _ _ hfound
      refine hmoves.isDirectory_stays hnested hsource hne hold fun hbelow => ?_
      exact hfrom (hbelow.trans (List.prefix_append ..))

end Moving

end FtpServer.Tree
