import FtpServer.Proofs.PathText

/-!
# Paths kept as texts

A path can be kept as its text alone, which is cut at its slashes whenever its segments are needed and
put together again from what becomes of them.  Done to the texts of plain paths, every operation
comes to the text of what the operation on segments gives.
-/

namespace FtpServer

open Text

namespace Path

variable {p : Path} {names : List String}

theorem split_slashed (h : ∀ name ∈ names, '/' ∉ name.toList) :
    split '/' (slashed names) = [] :: names.map String.toList := by
  induction names with
  | nil => rfl
  | cons name rest ih =>
    have hrest := ih fun n hn => h n (List.mem_cons_of_mem name hn)
    rw [slashed_cons, split_sep, split_append_of_not_mem (h name List.mem_cons_self), hrest]
    simp

theorem IsPlain.noSlash (hp : p.IsPlain) : ∀ name ∈ p.segments, '/' ∉ name.toList :=
  fun name hname => (hp name hname).noSlash

theorem foldl_follow_names (h : ∀ name ∈ names, IsPlainName name) (segments : List String) :
    names.foldl follow segments = segments ++ names := by
  induction names generalizing segments with
  | nil => simp
  | cons name rest ih =>
    have hname := h name List.mem_cons_self
    have hdown : follow segments name = segments ++ [name] := by
      simp [follow, hname.nonempty, hname.notDot, hname.notDotDot]
    rw [List.foldl_cons, hdown, ih (fun n hn => h n (List.mem_cons_of_mem name hn))]
    simp

@[simp] theorem head?_chars (p : Path) : p.chars.head? = some '/' := by
  by_cases hroot : p.segments = []
  · simp [chars_root hroot]
  · obtain ⟨name, rest, hsegments⟩ := List.exists_cons_of_ne_nil hroot
    simp [chars_eq_slashed hroot, hsegments]

/-- The parts of the text of a path lead from the top to where the path lies. -/
theorem IsPlain.split_chars (hp : p.IsPlain) :
    (split '/' p.chars).map String.ofList = "" :: (if p.segments = [] then [""] else p.segments) := by
  by_cases hroot : p.segments = []
  · rw [chars_root hroot, if_pos hroot]
    rfl
  · rw [chars_eq_slashed hroot, if_neg hroot, split_slashed hp.noSlash]
    simp

/-- A plain path is found by its own text, from wherever it is looked for. -/
theorem IsPlain.resolve_self (hp : p.IsPlain) (wd : Path) : wd.resolve p.text = some p := by
  have hchars : p.text.toList = p.chars := String.toList_ofList
  rw [resolve_eq_some_iff, hchars]
  constructor
  · intro part hpart c hc
    have hname : String.ofList part ∈ (split '/' p.chars).map String.ofList :=
      List.mem_map_of_mem hpart
    have hc' : c ∈ (String.ofList part).toList := by simpa using hc
    rw [hp.split_chars, List.mem_cons] at hname
    split at hname
    next =>
      have hempty : String.ofList part = "" := by simpa using hname
      simp [hempty] at hc'
    next =>
      rcases hname with hempty | hname
      · simp [hempty] at hc'
      · exact (hp _ hname).plain c hc'
  · have hbase : base wd p.text = [] := by simp [base, hchars]
    have hfollowed : (if p.segments = [] then [""] else p.segments).foldl follow (follow [] "") =
        p.segments := by
      by_cases hroot : p.segments = []
      · simp [hroot, follow]
      · simp [hroot, follow, foldl_follow_names hp]
    rw [hp.split_chars, hbase, List.foldl_cons, hfollowed]

end Path

namespace PathText

variable {names : List String} {p wd a source target : Path}

/-- What stands between the slashes of a text; empty parts do not count. -/
def segments (text : String) : List String :=
  ((split '/' text.toList).filter (!·.isEmpty)).map String.ofList

/-- The text of a path has a slash before each segment, which at the root is there already. -/
def add (text segment : String) : String :=
  if 1 < text.length then text ++ "/" ++ segment else text ++ segment

def ofSegments (segments : List String) : String := segments.foldl add "/"

def parent (text : String) : String := ofSegments (segments text).dropLast

def resolve (wd rel : String) : Option String :=
  let parts := split '/' rel.toList
  let start := if rel.toList.head? = some '/' then [] else segments wd
  if parts.all (·.all Path.isPlain) then
    some (ofSegments ((parts.map String.ofList).foldl Path.follow start))
  else none

def within (text ancestor : String) : Bool :=
  ancestor == "/" || text == ancestor
    || (ancestor.toList.isPrefixOf text.toList
      && (text.toList.drop ancestor.length).head? == some '/')

def rebase (text source target : String) : Option String :=
  if within text source then
    some (ofSegments (segments target ++ (segments text).drop (segments source).length))
  else none

@[simp] theorem segments_text (hp : p.IsPlain) : segments p.text = p.segments := by
  by_cases hroot : p.segments = []
  · simp [segments, Path.text, Path.chars_root hroot, hroot, split]
  · have hfilter : (p.segments.map String.toList).filter (!·.isEmpty) =
        p.segments.map String.toList := by
      apply List.filter_eq_self.2
      intro part hpart
      obtain ⟨name, hname, rfl⟩ := List.mem_map.1 hpart
      have hne := (hp name hname).nonempty
      simpa using hne
    rw [segments, Path.text, String.toList_ofList, Path.chars_eq_slashed hroot,
      Path.split_slashed hp.noSlash]
    simp [hfilter]

theorem foldl_add (names : List String) {text : String} (h : 1 < text.length) :
    names.foldl add text = text ++ String.ofList (Path.slashed names) := by
  induction names generalizing text with
  | nil => simp
  | cons name rest ih =>
    have hadd : add text name = text ++ "/" ++ name := if_pos h
    have hlength : 1 < (add text name).length := by
      rw [hadd, String.length_append, String.length_append]
      omega
    rw [List.foldl_cons, ih hlength, hadd, ← String.toList_inj]
    simp

@[simp] theorem ofSegments_eq (h : ∀ name ∈ names, IsPlainName name) :
    ofSegments names = Path.text ⟨names⟩ := by
  cases names with
  | nil => rfl
  | cons name rest =>
    have hname := (h name List.mem_cons_self).nonempty
    have hadd : add "/" name = "/" ++ name := rfl
    have hlength : 1 < ("/" ++ name).length := by
      have hpos : 0 < name.length := by
        rw [← String.length_toList, List.length_pos_iff]
        simpa using hname
      rw [String.length_append]
      exact Nat.lt_add_of_pos_right hpos
    rw [ofSegments, List.foldl_cons, hadd, foldl_add rest hlength, ← String.toList_inj]
    simp [Path.text, Path.chars, Path.isRoot, Path.slashed]

theorem parent_text (hp : p.IsPlain) : parent p.text = p.parent.text := by
  rw [parent, segments_text hp]
  exact ofSegments_eq hp.parent

theorem resolve_text (hwd : wd.IsPlain) (rel : String) :
    resolve wd.text rel = (wd.resolve rel).map Path.text := by
  have hstart : (if rel.toList.head? = some '/' then [] else segments wd.text) = wd.base rel := by
    rw [segments_text hwd, Path.base]
  cases hresolve : wd.resolve rel with
  | none =>
    simp only [Path.resolve] at hresolve
    split at hresolve
    next => cases hresolve
    next hparts => simp only [resolve, if_neg hparts, Option.map_none]
  | some p =>
    have hp := hwd.resolve hresolve
    obtain ⟨hparts, rfl⟩ := Path.resolve_eq_some_iff.1 hresolve
    have hall : (split '/' rel.toList).all (·.all Path.isPlain) = true := by
      simpa [List.all_eq_true] using hparts
    simp only [resolve, if_pos hall, hstart, Option.map_some]
    rw [ofSegments_eq hp]

theorem text_eq_root (ha : a.IsPlain) : a.text = "/" ↔ a.isRoot = true := by
  constructor
  · intro htext
    by_contra hroot
    have hsegments : a.segments ≠ [] := by simpa [Path.isRoot] using hroot
    have hlength := Path.length_chars ha hsegments
    have hchars : a.chars = ['/'] := by
      rw [← String.toList_ofList (l := a.chars), ← Path.text, htext]
      rfl
    simp [hchars] at hlength
  · intro hroot
    rw [Path.text, Path.chars, if_pos hroot]

theorem within_text (ha : a.IsPlain) : within p.text a.text = p.within a := by
  have hroot : (a.text == "/") = a.isRoot := by
    rw [Bool.eq_iff_iff, beq_iff_eq]
    exact text_eq_root ha
  have hsame : (p.text == a.text) = (p.chars == a.chars) := by
    rw [Bool.eq_iff_iff, beq_iff_eq, beq_iff_eq, ← String.toList_inj]
    simp only [Path.text, String.toList_ofList]
  have hlength : a.text.length = a.chars.length := by
    rw [← String.length_toList, Path.text, String.toList_ofList]
  rw [within, Path.within, hroot, hsame, hlength]
  simp only [Path.text, String.toList_ofList]

theorem rebase_text (hp : p.IsPlain) (hsource : source.IsPlain) (htarget : target.IsPlain) :
    rebase p.text source.text target.text = (p.rebase source target).map Path.text := by
  rw [rebase, within_text hsource, segments_text hp, segments_text hsource, segments_text htarget,
    Path.rebase]
  split
  next hwithin =>
    have hrebase : p.rebase source target =
        some ⟨target.segments ++ p.segments.drop source.segments.length⟩ := if_pos hwithin
    rw [ofSegments_eq (hp.rebase htarget hrebase)]
    rfl
  next => rfl

end PathText

end FtpServer
