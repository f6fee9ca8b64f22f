import FtpServer.Tree

/-!
# What changes of a tree leave where it was

Each change of a tree says what is found at every name afterwards.
-/

namespace FtpServer.Tree

variable {t : Tree} {k key source target : Key} {e : Entry}

theorem lookup_filter_ne {l : List (Key × Entry)} (h : key ≠ k) :
    (l.filter fun (other, _) => other ≠ k).lookup key = l.lookup key := by
  induction l with
  | nil => rfl
  | cons entry rest ih =>
    obtain ⟨other, e⟩ := entry
    by_cases hother : other = k
    · subst hother
      have hne : (key == other) = false := by simpa using h
      simpa [List.lookup_cons, hne] using ih
    · rw [List.filter_cons_of_pos (by simpa using hother), List.lookup_cons, List.lookup_cons, ih]

theorem lookup_filter_self {l : List (Key × Entry)} :
    (l.filter fun (other, _) => other ≠ k).lookup k = none := by
  rw [List.lookup_eq_none_iff]
  intro entry hentry
  have hne : entry.1 ≠ k := by simpa using (List.mem_filter.1 hentry).2
  simpa using hne.symm

theorem find?_put (hk : k ≠ []) :
    (t.put k e).find? key = if key = k then some e else t.find? key := by
  unfold find? put
  by_cases hkey : key = k
  · simp [hkey, hk]
  · have hne : (key == k) = false := by simpa using hkey
    simp only [List.lookup_cons, hne, hkey, lookup_filter_ne hkey, if_false]

theorem find?_erase (hk : k ≠ []) :
    (t.erase k).find? key = if key = k then none else t.find? key := by
  unfold find? erase
  by_cases hkey : key = k
  · subst hkey
    simp only [hk, lookup_filter_self, if_true, if_false]
  · simp only [hkey, lookup_filter_ne hkey, if_false]

theorem find?_move (hsource : ¬ source <+: key) (htarget : ¬ target <+: key) :
    (t.move source target).find? key = t.find? key := by
  have hkey : key ≠ target := fun h => htarget (h ▸ List.prefix_rfl)
  have hmap : ∀ l : List (Key × Entry),
      (l.map fun (other, e) =>
        if source <+: other then (target ++ other.drop source.length, e) else (other, e)).lookup key
        = l.lookup key := by
    intro l
    induction l with
    | nil => rfl
    | cons entry rest ih =>
      obtain ⟨other, e⟩ := entry
      by_cases hother : source <+: other
      · have hmoved : (key == target ++ other.drop source.length) = false := by
          simp only [beq_eq_false_iff_ne]
          intro h
          exact htarget (h ▸ List.prefix_append ..)
        have hold : (key == other) = false := by
          simp only [beq_eq_false_iff_ne]
          intro h
          exact hsource (h ▸ hother)
        simp [hother, List.lookup_cons, hmoved, hold, ih]
      · simp [hother, List.lookup_cons, ih]
  unfold find?
  split
  next => rfl
  next => rw [move, hmap, erase, lookup_filter_ne hkey]

theorem mem_entries_of_find? (hk : key ≠ []) (h : t.find? key = some e) : (key, e) ∈ t.entries := by
  unfold find? at h
  rw [if_neg hk] at h
  obtain ⟨l₁, l₂, hl, -⟩ := List.lookup_eq_some_iff.1 h
  simp [hl]

theorem find?_ne_none_of_mem (h : (key, e) ∈ t.entries) : t.find? key ≠ none := by
  unfold find?
  split
  next => simp
  next =>
    intro hnone
    simpa using List.lookup_eq_none_iff.1 hnone (key, e) h

/-- What lay at or below the one end of a move lies at or below the other. -/
theorem find?_move_target (hsource : source ≠ []) (htarget : target ≠ [])
    (hapart : ¬ source <+: target)
    (hfree : ∀ key, target <+: key → key ≠ target → t.find? key = none) (rest : Key) :
    (t.move source target).find? (target ++ rest) = t.find? (source ++ rest) := by
  have hmap : ∀ l : List (Key × Entry), (∀ entry ∈ l, entry.1 ≠ target ++ rest) →
      (l.map fun (other, e) =>
        if source <+: other then (target ++ other.drop source.length, e) else (other, e)).lookup
          (target ++ rest) = l.lookup (source ++ rest) := by
    intro l hl
    induction l with
    | nil => rfl
    | cons entry more ih =>
      obtain ⟨other, e⟩ := entry
      have hother : other ≠ target ++ rest := hl (other, e) List.mem_cons_self
      have hmore := ih fun entry hentry => hl entry (List.mem_cons_of_mem _ hentry)
      by_cases hbelow : source <+: other
      · obtain ⟨behind, rfl⟩ := hbelow
        have hsame : (target ++ rest == target ++ behind) = (source ++ rest == source ++ behind) := by
          rw [Bool.eq_iff_iff]
          simp
        simp [List.lookup_cons, hmore, hsame]
      · have hne : (source ++ rest == other) = false := by
          simp only [beq_eq_false_iff_ne]
          rintro rfl
          exact hbelow (List.prefix_append _ _)
        have hne' : (target ++ rest == other) = false := by
          simpa only [beq_eq_false_iff_ne] using hother.symm
        simp only [List.map_cons, hbelow, if_false, List.lookup_cons, hne, hne', hmore]
  have hout : source ++ rest ≠ target := fun h => hapart (h ▸ List.prefix_append ..)
  have hgone : ∀ entry ∈ (t.erase target).entries, entry.1 ≠ target ++ rest := by
    rintro ⟨other, e⟩ hentry rfl
    obtain ⟨hold, hother⟩ := List.mem_filter.1 hentry
    refine find?_ne_none_of_mem hold (hfree _ (List.prefix_append ..) ?_)
    simpa using hother
  have hlookup := hmap (t.erase target).entries hgone
  rw [erase, lookup_filter_ne hout] at hlookup
  unfold find? move
  rw [if_neg (by simp [htarget]), if_neg (by simp [hsource])]
  exact hlookup

theorem find?_move_source (hsource : source ≠ []) (hapart : ¬ target <+: source)
    (hapart' : ¬ source <+: target) (hkey : source <+: key) :
    (t.move source target).find? key = none := by
  have htop : key ≠ [] := by
    rintro rfl
    exact hsource (List.prefix_nil.1 hkey)
  unfold find? move
  rw [if_neg htop, List.lookup_eq_none_iff]
  intro entry hentry
  obtain ⟨⟨other, e⟩, -, rfl⟩ := List.mem_map.1 hentry
  dsimp only
  split
  next hmoved =>
    refine bne_iff_ne.2 ?_
    rintro rfl
    rcases List.prefix_or_prefix_of_prefix hkey (List.prefix_append target _) with h | h
    · exact hapart' h
    · exact hapart h
  next hstays =>
    refine bne_iff_ne.2 ?_
    rintro rfl
    exact hstays hkey

end FtpServer.Tree
