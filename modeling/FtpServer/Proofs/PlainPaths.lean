import FtpServer.Client

/-!
# Paths of plain names

Every path that a session ever holds consists of names that lead exactly one level down: resolution
lets no other name through, and the rules for removed and renamed directories only cut such paths
and put them together.
-/

namespace FtpServer

open Text

/-- A name that leads one level down wherever it is followed. -/
structure IsPlainName (name : String) : Prop where
  nonempty : name ≠ ""
  notDot : name ≠ "."
  notDotDot : name ≠ ".."
  noSlash : '/' ∉ name.toList
  plain : ∀ c ∈ name.toList, Path.isPlain c = true

theorem isPlainName_of_all {name : String} (hplain : ∀ c ∈ name.toList, Path.isPlain c = true)
    (hne : name ≠ "") (hdot : name ≠ ".") (hdotdot : name ≠ "..") : IsPlainName name := by
  refine ⟨hne, hdot, hdotdot, fun hslash => ?_, hplain⟩
  exact absurd (hplain '/' hslash) (by decide)

namespace Path

def IsPlain (p : Path) : Prop := ∀ name ∈ p.segments, IsPlainName name

theorem root_isPlain : root.IsPlain := by simp [IsPlain]

/-- Following parts of plain characters keeps the segments plain. -/
theorem foldl_follow_plain {parts segments : List String}
    (hparts : ∀ part ∈ parts, ∀ c ∈ part.toList, isPlain c = true)
    (hsegments : ∀ name ∈ segments, IsPlainName name) :
    ∀ name ∈ parts.foldl follow segments, IsPlainName name := by
  induction parts generalizing segments with
  | nil => exact hsegments
  | cons part parts ih =>
    refine ih (fun q hq => hparts q (List.mem_cons_of_mem part hq)) fun name hname => ?_
    unfold follow at hname
    split at hname
    next => exact hsegments name hname
    next hskip =>
      obtain ⟨hne, hdot⟩ := not_or.1 hskip
      split at hname
      next => exact hsegments name (List.dropLast_subset _ hname)
      next hup =>
        rcases List.mem_append.1 hname with hold | hnew
        · exact hsegments name hold
        · obtain rfl := List.mem_singleton.1 hnew
          exact isPlainName_of_all (hparts _ List.mem_cons_self) hne hdot hup

/-- Resolution succeeds where no part holds a character that is not plain. -/
theorem resolve_eq_some_iff {wd p : Path} {rel : String} :
    wd.resolve rel = some p ↔ (∀ part ∈ split '/' rel.toList, ∀ c ∈ part, isPlain c = true) ∧
      ⟨((split '/' rel.toList).map String.ofList).foldl follow (base wd rel)⟩ = p := by
  simp only [resolve, List.all_eq_true]
  split
  next hall => exact ⟨fun h => ⟨hall, Option.some.inj h⟩, fun h => congrArg some h.2⟩
  next hnot => simp [hnot]

theorem IsPlain.resolve {wd p : Path} {rel : String} (hwd : wd.IsPlain)
    (h : wd.resolve rel = some p) : p.IsPlain := by
  obtain ⟨hall, rfl⟩ := resolve_eq_some_iff.1 h
  refine foldl_follow_plain (fun part hpart c hc => ?_) (fun name hname => ?_)
  · obtain ⟨cs, hcs, rfl⟩ := List.mem_map.1 hpart
    rw [String.toList_ofList] at hc
    exact hall cs hcs c hc
  · unfold base at hname
    split at hname
    next => simp at hname
    next => exact hwd name hname

theorem IsPlain.parent {p : Path} (hp : p.IsPlain) : p.parent.IsPlain :=
  fun name hname => hp name (List.dropLast_subset _ hname)

theorem IsPlain.rebase {p source target q : Path} (hp : p.IsPlain) (htarget : target.IsPlain)
    (h : p.rebase source target = some q) : q.IsPlain := by
  unfold Path.rebase at h
  split at h
  next =>
    obtain rfl := Option.some.inj h
    intro name hname
    rcases List.mem_append.1 hname with hfirst | hrest
    · exact htarget name hfirst
    · exact hp name (List.mem_of_mem_drop hrest)
  next => simp at h

theorem IsPlain.afterRemove {wd removed : Path} (hwd : wd.IsPlain) (hremoved : removed.IsPlain) :
    (wd.afterRemove removed).IsPlain := by
  unfold Path.afterRemove
  split
  · exact hremoved.parent
  · exact hwd

theorem IsPlain.afterRename {wd source target : Path} (hwd : wd.IsPlain)
    (htarget : target.IsPlain) : (wd.afterRename source target).IsPlain := by
  unfold Path.afterRename
  cases h : wd.rebase source target with
  | none => exact hwd
  | some q => exact hwd.rebase htarget h

end Path

structure Client.IsPlain (c : Client) : Prop where
  directory : c.directory.IsPlain
  renameSource : ∀ p, c.renameSource = some p → p.IsPlain

namespace Client

variable {c : Client}

theorem connect_isPlain (address : Socket) : (connect address).IsPlain :=
  ⟨Path.root_isPlain, fun _ h => by simp [connect] at h⟩

theorem IsPlain.beginLogin (hc : c.IsPlain) (name : Option String) : (c.beginLogin name).IsPlain :=
  ⟨hc.directory, hc.renameSource⟩

theorem IsPlain.completeLogin (hc : c.IsPlain) (identity : String) :
    (c.completeLogin identity).IsPlain := ⟨hc.directory, hc.renameSource⟩

theorem IsPlain.resetLogin (hc : c.IsPlain) : c.resetLogin.IsPlain :=
  ⟨hc.directory, hc.renameSource⟩

theorem IsPlain.withMode (hc : c.IsPlain) (mode : DataMode) : (c.withMode mode).IsPlain :=
  ⟨hc.directory, hc.renameSource⟩

theorem IsPlain.enter (hc : c.IsPlain) {p : Path} (hp : p.IsPlain) : (c.enter p).IsPlain :=
  ⟨hp, hc.renameSource⟩

theorem IsPlain.stageRename (hc : c.IsPlain) {p : Path} (hp : p.IsPlain) :
    (c.stageRename p).IsPlain :=
  ⟨hc.directory, fun _ h => Option.some.inj h ▸ hp⟩

theorem IsPlain.dropRename (hc : c.IsPlain) : c.dropRename.IsPlain :=
  ⟨hc.directory, fun _ h => by simp [Client.dropRename] at h⟩

end Client

end FtpServer
