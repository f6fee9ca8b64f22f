/-!
# Text cut at a separator

`split sep cs` is the list of the parts of `cs` between separators: never empty, and one longer
than the number of separators.  `join` puts the separators back.
-/

namespace FtpServer.Text

variable {α : Type} [DecidableEq α]

def split (sep : α) : List α → List (List α)
  | [] => [[]]
  | c :: rest =>
    if c = sep then [] :: split sep rest
    else
      match split sep rest with
      | [] => [[c]]
      | part :: parts => (c :: part) :: parts

def join (sep : α) : List (List α) → List α
  | [] => []
  | [part] => part
  | part :: parts => part ++ sep :: join sep parts

@[simp] theorem split_nil (sep : α) : split sep [] = [[]] := rfl

theorem split_ne_nil (sep : α) (cs : List α) : split sep cs ≠ [] := by
  cases cs with
  | nil => simp
  | cons c rest =>
    simp only [split]
    split <;> simp
    split <;> simp

@[simp] theorem split_sep (sep : α) (rest : List α) :
    split sep (sep :: rest) = [] :: split sep rest := by
  simp [split]

theorem join_split (sep : α) (cs : List α) : join sep (split sep cs) = cs := by
  induction cs with
  | nil => rfl
  | cons c rest ih =>
    have hne := split_ne_nil sep rest
    simp only [split]
    split
    next h =>
      cases hs : split sep rest with
      | nil => exact absurd hs hne
      | cons part parts => rw [hs] at ih; simp [join, ih, h]
    next h =>
      cases hs : split sep rest with
      | nil => exact absurd hs hne
      | cons part parts =>
        rw [hs] at ih
        cases parts with
        | nil => simp_all [join]
        | cons next more => simp_all [join]

variable {sep : α} {part : List α}

omit [DecidableEq α] in
theorem mem_join {a : α} {parts : List (List α)} (h : a ∈ join sep parts) :
    a = sep ∨ ∃ part ∈ parts, a ∈ part := by
  fun_induction join sep parts with
  | case1 => cases h
  | case2 part => exact .inr ⟨part, List.mem_singleton_self part, h⟩
  | case3 part parts hparts ih =>
    simp only [List.mem_append, List.mem_cons] at h
    rcases h with h | rfl | h
    · exact .inr ⟨part, List.mem_cons_self, h⟩
    · exact .inl rfl
    · rcases ih h with rfl | ⟨part', hpart', h⟩
      · exact .inl rfl
      · exact .inr ⟨part', List.mem_cons_of_mem _ hpart', h⟩

theorem split_append_sep (sep : α) (cs rest : List α) :
    split sep (cs ++ sep :: rest) = split sep cs ++ split sep rest := by
  induction cs with
  | nil => simp
  | cons c cs ih =>
    rw [List.cons_append, split, split, ih]
    by_cases hc : c = sep
    · simp [hc]
    · cases hcs : split sep cs with
      | nil => exact absurd hcs (split_ne_nil sep cs)
      | cons part parts => simp [hc]

/-- What holds no separator goes into the first part of what follows. -/
theorem split_append_of_not_mem (h : sep ∉ part) (rest : List α) :
    split sep (part ++ rest) = (split sep rest).modifyHead (part ++ ·) := by
  induction part with
  | nil =>
    cases hrest : split sep rest <;> simp [hrest]
  | cons c part ih =>
    have hc : c ≠ sep := (List.ne_of_not_mem_cons h).symm
    rw [List.cons_append, split, if_neg hc, ih (List.not_mem_of_not_mem_cons h)]
    cases hrest : split sep rest with
    | nil => exact absurd hrest (split_ne_nil sep rest)
    | cons next parts => simp

theorem split_of_not_mem (h : sep ∉ part) : split sep part = [part] := by
  simpa using split_append_of_not_mem h []

theorem not_mem_of_mem_split {cs : List α} (h : part ∈ split sep cs) : sep ∉ part := by
  induction cs generalizing part with
  | nil => simp_all
  | cons c cs ih =>
    by_cases hc : c = sep
    · simp only [hc, split_sep, List.mem_cons] at h
      rcases h with rfl | h
      · simp
      · exact ih h
    · obtain ⟨first, parts, hparts⟩ := List.exists_cons_of_ne_nil (split_ne_nil sep cs)
      rw [split, if_neg hc, hparts] at h
      simp only [hparts, List.mem_cons] at h ih
      rcases h with rfl | h
      · have hfirst := ih (.inl rfl)
        simp [hfirst, Ne.symm hc]
      · exact ih (.inr h)

omit [DecidableEq α] in
theorem join_eq_intercalate (sep : α) (parts : List (List α)) :
    join sep parts = [sep].intercalate parts := by
  fun_induction join sep parts with
  | case1 => rfl
  | case2 part => simp
  | case3 part parts hparts ih =>
    rw [List.intercalate_cons_of_ne_nil (fun h => hparts h), ih]
    simp

theorem split_join {parts : List (List α)} (hne : parts ≠ [])
    (h : ∀ part ∈ parts, sep ∉ part) : split sep (join sep parts) = parts := by
  fun_induction join sep parts with
  | case1 => exact absurd rfl hne
  | case2 part => exact split_of_not_mem (h part List.mem_cons_self)
  | case3 part parts hparts ih =>
    rw [split_append_sep, split_of_not_mem (h part List.mem_cons_self),
      ih (fun h => hparts h) fun part hpart => h part (List.mem_cons_of_mem _ hpart)]
    rfl

end FtpServer.Text
