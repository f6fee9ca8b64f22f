import FtpServer.Proofs.CanonicalPaths

/-!
# Laws of resolution and of rebasing

Resolution follows the parts of its argument one after the other, so that an argument cut at a slash
is resolved piece by piece.  Rebasing puts one beginning of a path in the place of another, and the
text test on which it rests asks for just that beginning.
-/

namespace FtpServer

namespace Path

open Text

variable {wd p q source target : Path} {a b rel : String}

theorem base_of_slash (h : rel.toList.head? = some '/') (wd : Path) : base wd rel = [] := if_pos h

theorem base_of_not_slash (h : rel.toList.head? ≠ some '/') (wd : Path) :
    base wd rel = wd.segments := if_neg h

theorem base_append (ha : a ≠ "") (wd : Path) (b : String) : base wd (a ++ b) = base wd a := by
  have hne : a.toList ≠ [] := by simpa using ha
  have hhead : (a ++ b).toList.head? = a.toList.head? := by
    rw [String.toList_append, List.head?_append_of_ne_nil _ hne]
  rw [base, base, hhead]

/-- Resolution succeeds where no part of the argument holds a character that is not plain: whether
a later part takes it back does not count, nor does where it is resolved from. -/
theorem isSome_resolve (wd : Path) (rel : String) :
    (wd.resolve rel).isSome = true ↔
      ∀ part ∈ split '/' rel.toList, ∀ c ∈ part, isPlain c = true := by
  rw [Option.isSome_iff_exists]
  constructor
  · rintro ⟨p, hp⟩
    exact (resolve_eq_some_iff.1 hp).1
  · intro hparts
    exact ⟨_, resolve_eq_some_iff.2 ⟨hparts, rfl⟩⟩

theorem resolve_of_slash (h : rel.toList.head? = some '/') (wd other : Path) :
    wd.resolve rel = other.resolve rel := by
  simp only [resolve, base_of_slash h]

/-- An argument that is cut at a slash is resolved piece by piece. -/
theorem resolve_append (ha : a ≠ "") (hb : b.toList.head? ≠ some '/') (wd : Path) :
    wd.resolve (a ++ "/" ++ b) = (wd.resolve a).bind (·.resolve b) := by
  have hchars : (a ++ "/" ++ b).toList = a.toList ++ '/' :: b.toList := by simp
  have hbase : base wd (a ++ "/" ++ b) = base wd a := by
    rw [String.append_assoc, base_append ha]
  simp only [resolve, hchars, hbase, split_append_sep, List.all_append, List.map_append,
    List.foldl_append]
  by_cases hparts : (split '/' a.toList).all (·.all isPlain) = true
  · simp [hparts, base_of_not_slash hb]
  · simp [hparts]

/-- An argument of one part is followed from where it is resolved. -/
theorem resolve_part (h : rel.toList.all isPlain = true) (wd : Path) :
    wd.resolve rel = some ⟨follow wd.segments rel⟩ := by
  have hslash : '/' ∉ rel.toList := fun hmem => by
    cases List.all_eq_true.1 h _ hmem
  have hbase : base wd rel = wd.segments :=
    base_of_not_slash (fun hhead => hslash (List.mem_of_mem_head? hhead)) wd
  have hparts : split '/' rel.toList = [rel.toList] := split_of_not_mem hslash
  rw [resolve_eq_some_iff, hparts, hbase]
  constructor
  · simpa using h
  · simp

theorem resolve_dot (wd : Path) : wd.resolve "." = some wd := resolve_part (by decide) wd

theorem resolve_dotdot (wd : Path) : wd.resolve ".." = some wd.parent :=
  resolve_part (by decide) wd

/-- What an argument comes to: whether it is resolved at all, from where, in how many pieces, and
that every path is the answer to its own text. -/
theorem resolution_laws (hwd : wd.IsPlain) :
    (∀ rel, (wd.resolve rel).isSome = true ↔
      ∀ part ∈ split '/' rel.toList, ∀ c ∈ part, isPlain c = true) ∧
    (∀ rel, rel.toList.head? = some '/' → ∀ other : Path, wd.resolve rel = other.resolve rel) ∧
    (∀ a b, a ≠ "" → b.toList.head? ≠ some '/' →
      wd.resolve (a ++ "/" ++ b) = (wd.resolve a).bind (·.resolve b)) ∧
    wd.resolve "." = some wd ∧
    wd.resolve ".." = some wd.parent ∧
    (∀ q : Path, q.IsPlain → wd.resolve q.text = some q) ∧
    ∀ rel, PathText.resolve wd.text rel = (wd.resolve rel).map text := by
  refine ⟨isSome_resolve wd, ?_, ?_, resolve_dot wd, resolve_dotdot wd, ?_, ?_⟩
  · intro rel hslash other
    exact resolve_of_slash hslash wd other
  · intro a b ha hb
    exact resolve_append ha hb wd
  · intro q hq
    exact hq.resolve_self wd
  · intro rel
    exact PathText.resolve_text hwd rel

/-- From a directory with two names, a way up and down again, and one with a part that is refused
although it is left at once. -/
theorem resolution_laws_up_and_down :
    resolve ⟨["a", "b"]⟩ "../..././/c" = some ⟨["a", "...", "c"]⟩ ∧
      resolve ⟨["a", "b"]⟩ "x y/../c" = none := by
  have hwd : IsPlain ⟨["a", "b"]⟩ := Arises.isPlain (.resolve "a/b" .root (by decide +kernel))
  obtain ⟨hsome, -, happend, -, hup, -, -⟩ := resolution_laws hwd
  constructor
  · have hcut := happend ".." "..././/c" (by decide) (by decide)
    have hhere : ".." ++ "/" ++ "..././/c" = "../..././/c" := by decide
    rw [hhere, hup, Option.bind_some] at hcut
    exact hcut.trans (by decide +kernel)
  · have hpart : ['x', ' ', 'y'] ∈ split '/' "x y/../c".toList := by decide
    have hrefused := mt (hsome "x y/../c").1 fun hplain => by
      cases hplain _ hpart ' ' (by decide)
    simpa using hrefused

/-- Rebasing cuts one beginning off and puts another before what is left. -/
theorem rebase_eq_some_iff (hp : p.IsPlain) (hsource : source.IsPlain) :
    p.rebase source target = some q ↔
      ∃ rest, p.segments = source.segments ++ rest ∧ q.segments = target.segments ++ rest := by
  constructor
  · intro h
    unfold rebase at h
    split at h
    next hwithin =>
      obtain rfl := Option.some.inj h
      obtain ⟨rest, hrest⟩ := (within_iff hp hsource).1 hwithin
      exact ⟨rest, hrest.symm, by simp [← hrest]⟩
    next => cases h
  · rintro ⟨rest, hrest, hq⟩
    have hwithin : p.within source = true := (within_iff hp hsource).2 ⟨rest, hrest.symm⟩
    have hmoved : q = ⟨target.segments ++ p.segments.drop source.segments.length⟩ := by
      apply congrArg mk
      rw [hq, hrest, List.drop_left]
    rw [rebase, if_pos hwithin, hmoved]

theorem isSome_rebase (p source target : Path) :
    (p.rebase source target).isSome = p.within source := by
  unfold rebase
  split
  next hwithin => simp [hwithin]
  next hwithin => simp [hwithin]

theorem within_of_rebase (hp : p.IsPlain) (hsource : source.IsPlain) (htarget : target.IsPlain)
    (h : p.rebase source target = some q) : q.within target = true := by
  obtain ⟨rest, -, hrest⟩ := (rebase_eq_some_iff hp hsource).1 h
  exact (within_iff (hp.rebase htarget h) htarget).2 ⟨rest, hrest.symm⟩

theorem rebase_back (hp : p.IsPlain) (hsource : source.IsPlain) (htarget : target.IsPlain)
    (h : p.rebase source target = some q) : q.rebase target source = some p := by
  obtain ⟨rest, hold, hnew⟩ := (rebase_eq_some_iff hp hsource).1 h
  exact (rebase_eq_some_iff (hp.rebase htarget h) htarget).2 ⟨rest, hnew, hold⟩

theorem afterRename_of_rebase (h : p.rebase source target = some q) :
    p.afterRename source target = q := by
  simp [afterRename, h]

theorem afterRename_of_not_within (h : p.within source = false) :
    p.afterRename source target = p := by
  simp [afterRename, rebase, h]

/-- The test on texts, what is rebased, and the directory that follows a renamed one all go by the
beginnings of segment lists. -/
theorem rebasing_laws (hp : p.IsPlain) (hsource : source.IsPlain) (htarget : target.IsPlain) :
    (p.within source = true ↔ source.segments <+: p.segments) ∧
    PathText.within p.text source.text = p.within source ∧
    PathText.rebase p.text source.text target.text = (p.rebase source target).map text ∧
    (p.rebase source target).isSome = p.within source ∧
    (∀ q, p.rebase source target = some q →
      (∃ rest, p.segments = source.segments ++ rest ∧ q.segments = target.segments ++ rest) ∧
      q.within target = true ∧
      q.rebase target source = some p ∧
      p.afterRename source target = q) ∧
    (p.within source = false → p.afterRename source target = p) := by
  refine ⟨within_iff hp hsource, PathText.within_text hsource,
    PathText.rebase_text hp hsource htarget, isSome_rebase p source target, ?_,
    afterRename_of_not_within⟩
  intro q hq
  exact ⟨(rebase_eq_some_iff hp hsource).1 hq, within_of_rebase hp hsource htarget hq,
    rebase_back hp hsource htarget hq, afterRename_of_rebase hq⟩

/-- A directory taken below itself, and a sibling with a longer name that stays. -/
theorem rebasing_laws_below_itself :
    afterRename ⟨["a", "b"]⟩ ⟨["a"]⟩ ⟨["a", "c"]⟩ = ⟨["a", "c", "b"]⟩ ∧
      rebase ⟨["a", "c", "b"]⟩ ⟨["a", "c"]⟩ ⟨["a"]⟩ = some ⟨["a", "b"]⟩ ∧
      afterRename ⟨["ab"]⟩ ⟨["a"]⟩ ⟨["a", "c"]⟩ = ⟨["ab"]⟩ := by
  have hinside : IsPlain ⟨["a", "b"]⟩ := Arises.isPlain (.resolve "a/b" .root (by decide +kernel))
  have hsibling : IsPlain ⟨["ab"]⟩ := Arises.isPlain (.resolve "ab" .root (by decide +kernel))
  have hsource : IsPlain ⟨["a"]⟩ := Arises.isPlain (.resolve "a" .root (by decide +kernel))
  have htarget : IsPlain ⟨["a", "c"]⟩ := Arises.isPlain (.resolve "a/c" .root (by decide +kernel))
  obtain ⟨-, -, -, -, hmoved, -⟩ := rebasing_laws hinside hsource htarget
  obtain ⟨-, -, -, -, -, hstays⟩ := rebasing_laws hsibling hsource htarget
  obtain ⟨-, -, hback, hfollows⟩ := hmoved ⟨["a", "c", "b"]⟩ (by decide +kernel)
  exact ⟨hfollows, hback, hstays (by decide +kernel)⟩

end Path

end FtpServer
