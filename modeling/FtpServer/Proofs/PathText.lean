import FtpServer.Proofs.PlainPaths
import Mathlib.Data.List.Infix

/-!
# Paths and their texts

Plain names hold no slash, so the text of a path tells its segments: one path lies within another
exactly where its segments begin with those of the other.
-/

namespace FtpServer

namespace Path

variable {xs ys : List String} {p a wd source target : Path}

def slashed (segments : List String) : List Char := segments.flatMap fun s => '/' :: s.toList

@[simp] theorem slashed_nil : slashed [] = [] := rfl

@[simp] theorem slashed_cons (name : String) (rest : List String) :
    slashed (name :: rest) = '/' :: (name.toList ++ slashed rest) := by simp [slashed]

@[simp] theorem slashed_append (xs ys : List String) :
    slashed (xs ++ ys) = slashed xs ++ slashed ys := by simp [slashed]

def EndsPart (cs : List Char) : Prop := cs = [] ∨ cs.head? = some '/'

theorem endsPart_slashed (segments : List String) : EndsPart (slashed segments) := by
  cases segments with
  | nil => exact .inl rfl
  | cons name rest => exact .inr (by simp)

theorem EndsPart.append {cs ds : List Char} (hcs : EndsPart cs) (hds : EndsPart ds) :
    EndsPart (cs ++ ds) := by
  rcases hcs with rfl | hcs
  · exact hds
  · exact .inr (by simp [hcs])

theorem takeWhile_part {part after : List Char} (hpart : '/' ∉ part) (hafter : EndsPart after) :
    (part ++ after).takeWhile (· ≠ '/') = part := by
  have hall : ∀ c ∈ part, decide (c ≠ '/') = true := fun c hc =>
    decide_eq_true fun heq => hpart (heq ▸ hc)
  rw [List.takeWhile_append_of_pos hall]
  rcases hafter with rfl | hslash
  · simp
  · obtain ⟨rest, rfl⟩ := List.head?_eq_some_iff.1 hslash
    simp

theorem part_eq_of_append {part part' after after' : List Char} (hpart : '/' ∉ part)
    (hpart' : '/' ∉ part') (hafter : EndsPart after) (hafter' : EndsPart after')
    (h : part ++ after = part' ++ after') : part = part' ∧ after = after' := by
  have hsame : part = part' := by
    rw [← takeWhile_part hpart hafter, h, takeWhile_part hpart' hafter']
  subst hsame
  exact ⟨rfl, List.append_cancel_left h⟩

/-- A text that goes on at the end of a part goes on with whole segments. -/
theorem prefix_of_slashed (hxs : ∀ name ∈ xs, IsPlainName name) (hys : ∀ name ∈ ys, IsPlainName name)
    {after : List Char} (hafter : EndsPart after) (h : slashed ys = slashed xs ++ after) :
    xs <+: ys := by
  induction xs generalizing ys with
  | nil => exact List.nil_prefix
  | cons x xs ih =>
    cases ys with
    | nil => simp at h
    | cons y ys =>
      simp only [slashed_cons, List.cons_append, List.cons.injEq, true_and, List.append_assoc] at h
      obtain ⟨hname, hrest⟩ := part_eq_of_append (hys y List.mem_cons_self).noSlash
        (hxs x List.mem_cons_self).noSlash (endsPart_slashed ys)
        ((endsPart_slashed xs).append hafter) h
      obtain rfl : y = x := String.toList_inj.1 hname
      rw [List.cons_prefix_cons]
      exact ⟨rfl, ih (fun n hn => hxs n (List.mem_cons_of_mem _ hn))
        (fun n hn => hys n (List.mem_cons_of_mem _ hn)) hrest⟩

theorem chars_eq_slashed (h : p.segments ≠ []) : p.chars = slashed p.segments := by
  simp [chars, isRoot, slashed, h]

theorem chars_root (h : p.segments = []) : p.chars = ['/'] := by
  simp [chars, isRoot, h]

/-- The text of a path that is not the root has a character behind its first slash. -/
theorem length_chars (hp : p.IsPlain) (h : p.segments ≠ []) : 1 < p.chars.length := by
  obtain ⟨name, rest, hsegments⟩ := List.exists_cons_of_ne_nil h
  have hname : name.toList ≠ [] := by
    have hplain := hp name (by simp [hsegments])
    simpa using hplain.nonempty
  have hlength : 0 < name.toList.length := List.length_pos_iff.2 hname
  rw [chars_eq_slashed h, hsegments]
  simp only [slashed_cons, List.length_cons, List.length_append]
  omega

/-- The test compares texts: that of `a`, and what goes on behind it. -/
theorem within_iff_append : p.within a = true ↔
    a.segments = [] ∨ ∃ after, EndsPart after ∧ p.chars = a.chars ++ after := by
  simp only [within, isRoot, Bool.or_eq_true, Bool.and_eq_true, List.isEmpty_iff, beq_iff_eq,
    List.isPrefixOf_iff_prefix, or_assoc]
  refine or_congr_right ⟨?_, ?_⟩
  · rintro (heq | ⟨⟨after, hafter⟩, hslash⟩)
    · exact ⟨[], .inl rfl, by simp [heq]⟩
    · rw [← hafter, List.drop_left] at hslash
      exact ⟨after, .inr hslash, hafter.symm⟩
  · rintro ⟨after, rfl | hslash, hafter⟩
    · exact .inl (by simpa using hafter)
    · refine .inr ⟨⟨after, hafter.symm⟩, ?_⟩
      rw [hafter, List.drop_left]
      exact hslash

/-- One path lies within another where its segments begin with those of the other. -/
theorem within_iff (hp : p.IsPlain) (ha : a.IsPlain) :
    p.within a = true ↔ a.segments <+: p.segments := by
  rw [within_iff_append]
  by_cases haroot : a.segments = []
  · simp [haroot]
  simp only [haroot, false_or]
  by_cases hproot : p.segments = []
  · have hlength := length_chars ha haroot
    simp only [hproot, List.prefix_nil, haroot, iff_false]
    rintro ⟨after, -, hafter⟩
    have hshort := congrArg List.length hafter
    rw [chars_root hproot, List.length_append, List.length_singleton] at hshort
    omega
  · rw [chars_eq_slashed hproot, chars_eq_slashed haroot]
    constructor
    · rintro ⟨after, hends, hafter⟩
      exact prefix_of_slashed ha hp hends hafter
    · rintro ⟨rest, hrest⟩
      exact ⟨slashed rest, endsPart_slashed rest, by rw [← hrest, slashed_append]⟩

theorem segments_afterRename (hwd : wd.IsPlain) (hsource : source.IsPlain) :
    (wd.afterRename source target).segments =
      if source.segments <+: wd.segments then
        target.segments ++ wd.segments.drop source.segments.length
      else wd.segments := by
  unfold afterRename rebase
  by_cases h : source.segments <+: wd.segments
  · simp [(within_iff hwd hsource).2 h, h]
  · have hnot : wd.within source ≠ true := fun hwithin => h ((within_iff hwd hsource).1 hwithin)
    simp [hnot, h]

end Path

end FtpServer
