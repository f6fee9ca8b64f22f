import FtpServer.Proofs.TextPaths

/-!
# Canonical paths

The paths that the operations lead to are those of plain names, and each of them has one text only:
it begins with a slash, ends in one at the root alone, and its segments can be read off it.  On the
host such a path lies as many components below the server root as it has segments, so that no two
paths lie at one place.
-/

namespace FtpServer

open Text

variable {p q : Path} {name : String} {names : List String}

namespace Path

/-- The paths that the operations lead to from the root. -/
inductive Arises : Path → Prop
  | root : Arises root
  | resolve {p q : Path} (rel : String) (hp : Arises p) (h : p.resolve rel = some q) : Arises q
  | parent {p : Path} (hp : Arises p) : Arises p.parent
  | rebase {p source target q : Path} (hp : Arises p) (hsource : Arises source)
      (htarget : Arises target) (h : p.rebase source target = some q) : Arises q

theorem Arises.isPlain (hp : p.Arises) : p.IsPlain := by
  induction hp with
  | root => exact root_isPlain
  | resolve rel _ h ih => exact ih.resolve h
  | parent _ ih => exact ih.parent
  | rebase _ _ _ h ih _ ihtarget => exact ih.rebase ihtarget h

theorem IsPlain.getLast?_chars (hp : p.IsPlain) (hroot : p.segments ≠ []) :
    p.chars.getLast? ≠ some '/' := by
  rcases List.eq_nil_or_concat p.segments with hnil | ⟨before, last, hlast⟩
  · exact absurd hnil hroot
  · have hname := hp last (by simp [hlast])
    have hne : last.toList ≠ [] := by simpa using hname.nonempty
    have hchars : p.chars = (slashed before ++ ['/']) ++ last.toList := by
      simp [chars_eq_slashed hroot, hlast]
    rw [hchars, List.getLast?_append_of_ne_nil _ hne]
    intro hslash
    exact hname.noSlash (List.mem_of_getLast? hslash)

end Path

namespace Place

inductive Component
  | top
  | here
  | up
  | name (name : String)
  deriving DecidableEq, Repr

/-- The component that a part between slashes stands for; nothing and a dot stand for none. -/
def component? (part : List Char) : Option Component :=
  if part = [] ∨ part = ['.'] then none
  else if part = ['.', '.'] then some .up
  else some (.name (String.ofList part))

/-- What a name on the host begins with: a slash there is the top, and only there a dot counts. -/
def front (cs : List Char) : List Component :=
  if cs.head? = some '/' then [.top]
  else if (split '/' cs).head? = some ['.'] then [.here]
  else []

def components (text : String) : List Component :=
  front text.toList ++ (split '/' text.toList).filterMap component?

theorem component?_name (h : IsPlainName name) : component? name.toList = some (.name name) := by
  have hempty : name.toList ≠ [] := by simpa using h.nonempty
  have hdot : name.toList ≠ ['.'] := fun heq => h.notDot (String.toList_inj.1 heq)
  have hdotdot : name.toList ≠ ['.', '.'] := fun heq => h.notDotDot (String.toList_inj.1 heq)
  simp [component?, hempty, hdot, hdotdot]

theorem components_name (h : IsPlainName name) : components name = [.name name] := by
  have hslash : name.toList.head? ≠ some '/' := fun heq => h.noSlash (List.mem_of_mem_head? heq)
  have hdot : name.toList ≠ ['.'] := fun heq => h.notDot (String.toList_inj.1 heq)
  have hsplit : split '/' name.toList = [name.toList] := split_of_not_mem h.noSlash
  simp [components, front, hslash, hsplit, hdot, component?_name h]

theorem front_append_slash (cs rest : List Char) :
    front (cs ++ '/' :: rest) = front (cs ++ ['/']) := by
  have hhead : (cs ++ '/' :: rest).head? = (cs ++ ['/']).head? := by
    cases cs <;> rfl
  have hparts : (split '/' (cs ++ '/' :: rest)).head? = (split '/' (cs ++ ['/'])).head? := by
    obtain ⟨part, parts, hcs⟩ := List.exists_cons_of_ne_nil (split_ne_nil '/' cs)
    simp [split_append_sep, hcs]
  rw [front, front, hhead, hparts]

theorem front_snoc_slash {cs : List Char} (hcs : cs ≠ []) : front (cs ++ ['/']) = front cs := by
  have hhead : (cs ++ ['/']).head? = cs.head? := List.head?_append_of_ne_nil _ hcs
  have hparts : (split '/' (cs ++ ['/'])).head? = (split '/' cs).head? := by
    obtain ⟨part, parts, hsplit⟩ := List.exists_cons_of_ne_nil (split_ne_nil '/' cs)
    simp [split_append_sep, hsplit]
  rw [front, front, hhead, hparts]

theorem components_slash_name (h : IsPlainName name) (cs : List Char) :
    components (String.ofList (cs ++ '/' :: name.toList)) =
      front (cs ++ ['/']) ++ (split '/' cs).filterMap component? ++ [.name name] := by
  have hsplit : split '/' name.toList = [name.toList] := split_of_not_mem h.noSlash
  rw [components, String.toList_ofList, front_append_slash, split_append_sep, hsplit]
  simp [component?_name h]

theorem components_push (h : IsPlainName name) (text : String) :
    components (push text name) = components text ++ [.name name] := by
  unfold push
  split
  next hends =>
    rcases hends with rfl | hslash
    · rw [String.empty_append, components_name h]
      rfl
    · obtain ⟨cs, hcs⟩ := List.getLast?_eq_some_iff.1 hslash
      have htext : text ++ name = String.ofList (cs ++ '/' :: name.toList) := by
        rw [← String.toList_inj]
        simp [hcs]
      rw [htext, components_slash_name h, components, hcs, split_append_sep]
      simp [component?]
  next hopen =>
    obtain ⟨hne, -⟩ := not_or.1 hopen
    have hcs : text.toList ≠ [] := by simpa using hne
    have htext : text ++ "/" ++ name = String.ofList (text.toList ++ '/' :: name.toList) := by
      rw [← String.toList_inj]
      simp
    rw [htext, components_slash_name h, front_snoc_slash hcs, components]

theorem components_foldl_push (h : ∀ name ∈ names, IsPlainName name) (text : String) :
    components (names.foldl push text) = components text ++ names.map .name := by
  induction names generalizing text with
  | nil => simp
  | cons name rest ih =>
    rw [List.foldl_cons, ih fun n hn => h n (List.mem_cons_of_mem name hn),
      components_push (h name List.mem_cons_self)]
    simp

/-- The components of a path's place are those of the server root and then the path's segments. -/
theorem components_place (hp : p.IsPlain) (root : String) :
    components (p.place root).text = components root ++ p.segments.map .name :=
  components_foldl_push hp root

theorem place_inj (hp : p.IsPlain) (hq : q.IsPlain) (root : String)
    (h : components (p.place root).text = components (q.place root).text) : p = q := by
  rw [components_place hp, components_place hq, List.append_cancel_left_eq] at h
  have hnames : Function.Injective Component.name := fun _ _ heq => Component.name.inj heq
  exact congrArg Path.mk (List.map_injective_iff.2 hnames h)

end Place

namespace PathText

/-- The texts that the operations lead to from that of the root. -/
inductive Arises : String → Prop
  | root : Arises "/"
  | resolve {text result : String} (rel : String) (htext : Arises text)
      (h : resolve text rel = some result) : Arises result
  | parent {text : String} (htext : Arises text) : Arises (parent text)
  | rebase {text source target result : String} (htext : Arises text) (hsource : Arises source)
      (htarget : Arises target) (h : rebase text source target = some result) : Arises result

theorem arises_iff {text : String} : Arises text ↔ ∃ p : Path, p.Arises ∧ p.text = text := by
  constructor
  · intro htext
    induction htext with
    | root => exact ⟨Path.root, .root, rfl⟩
    | resolve rel _ h ih =>
      obtain ⟨p, hp, rfl⟩ := ih
      rw [resolve_text hp.isPlain, Option.map_eq_some_iff] at h
      obtain ⟨q, hq, rfl⟩ := h
      exact ⟨q, .resolve rel hp hq, rfl⟩
    | parent _ ih =>
      obtain ⟨p, hp, rfl⟩ := ih
      exact ⟨p.parent, .parent hp, (parent_text hp.isPlain).symm⟩
    | rebase _ _ _ h ih ihsource ihtarget =>
      obtain ⟨p, hp, rfl⟩ := ih
      obtain ⟨source, hsource, rfl⟩ := ihsource
      obtain ⟨target, htarget, rfl⟩ := ihtarget
      rw [rebase_text hp.isPlain hsource.isPlain htarget.isPlain, Option.map_eq_some_iff] at h
      obtain ⟨q, hq, rfl⟩ := h
      exact ⟨q, .rebase hp hsource htarget hq, rfl⟩
  · rintro ⟨p, hp, rfl⟩
    have hresolve : resolve "/" p.text = some p.text := by
      rw [← Path.text_root, resolve_text Path.root_isPlain, hp.isPlain.resolve_self]
      rfl
    exact .resolve p.text .root hresolve

/-- A text that tells a path: it begins with a slash, ends in one where it is nothing else, and has
plain names between its slashes. -/
structure IsCanonical (text : String) : Prop where
  slash : text.toList.head? = some '/'
  openEnd : text.toList.getLast? = some '/' → text = "/"
  names : ∀ name ∈ segments text, IsPlainName name

theorem isCanonical_text (hp : p.IsPlain) : IsCanonical p.text := by
  have hchars : p.text.toList = p.chars := String.toList_ofList
  refine ⟨?_, ?_, ?_⟩
  · rw [hchars, Path.head?_chars]
  · intro hslash
    by_contra hroot
    have hsegments : p.segments ≠ [] := fun hnil => hroot (by rw [Path.text, Path.chars_root hnil])
    exact hp.getLast?_chars hsegments (hchars ▸ hslash)
  · rw [segments_text hp]
    exact hp

end PathText

namespace Path

theorem text_inj (hp : p.IsPlain) (hq : q.IsPlain) : p.text = q.text ↔ p.segments = q.segments := by
  constructor
  · intro htext
    rw [← PathText.segments_text hp, htext, PathText.segments_text hq]
  · intro hsegments
    rw [text, chars, isRoot, hsegments, text, chars, isRoot]

/-- However a path arises, its text is in canonical form and tells its segments, and its place on
the host lies exactly these below the server root. -/
theorem arising_paths_canonical (root : String) :
    (Path.root.place root).text = root ∧
    (∀ text, PathText.Arises text ↔ ∃ p : Path, p.Arises ∧ p.text = text) ∧
    ∀ p : Path, p.Arises →
      PathText.IsCanonical p.text ∧
      PathText.segments p.text = p.segments ∧
      Place.components (p.place root).text = Place.components root ++ p.segments.map .name ∧
      ∀ q : Path, q.Arises →
        (p.text = q.text ↔ p.segments = q.segments) ∧
        (Place.components (p.place root).text = Place.components (q.place root).text → p = q) := by
  refine ⟨rfl, fun text => PathText.arises_iff, ?_⟩
  intro p hp
  have hplain := hp.isPlain
  refine ⟨PathText.isCanonical_text hplain, PathText.segments_text hplain,
    Place.components_place hplain root, ?_⟩
  intro q hq
  exact ⟨text_inj hplain hq.isPlain, Place.place_inj hplain hq.isPlain root⟩

/-- A path that follows a renamed directory out of a longer one. -/
theorem arising_paths_canonical_rebased :
    PathText.Arises "/ab/c" ∧ PathText.IsCanonical "/ab/c" ∧
      Place.components (Place.text ⟨"./srv/", ["ab", "c"]⟩) =
        [.here, .name "srv", .name "ab", .name "c"] := by
  have hold : Arises ⟨["a", "b", "c"]⟩ := .resolve "a//b/./x/../c" .root (by decide +kernel)
  have hsource : Arises ⟨["a", "b"]⟩ := .resolve "/a/b/" .root (by decide +kernel)
  have htarget : Arises ⟨["ab"]⟩ := .resolve "../ab" .root (by decide +kernel)
  have harises : Arises ⟨["ab", "c"]⟩ := .rebase hold hsource htarget (by decide +kernel)
  obtain ⟨-, htexts, hpaths⟩ := arising_paths_canonical "./srv/"
  obtain ⟨hcanonical, -, hcomponents, -⟩ := hpaths _ harises
  have htext : text ⟨["ab", "c"]⟩ = "/ab/c" := by decide +kernel
  rw [htext] at hcanonical
  refine ⟨(htexts "/ab/c").2 ⟨_, harises, htext⟩, hcanonical, ?_⟩
  exact hcomponents.trans (by decide +kernel)

end Path

end FtpServer
