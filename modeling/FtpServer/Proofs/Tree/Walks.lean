import FtpServer.Proofs.Tree.Find

/-!
# Following names, step by step

`Walks` holds the steps of a walk that ended somewhere; refusals leave no steps.  It forgets whether
the last name may be made, which only decides about refusals.
-/

namespace FtpServer.Tree

open Text

structure StepsDown (name : Bytes) : Prop where
  nonempty : name ≠ []
  notDot : name ≠ dot
  notDotDot : name ≠ dotdot

theorem StepsDown.notSkipped {name : Bytes} (h : StepsDown name) : ¬ (name = [] ∨ name = dot) :=
  not_or.2 ⟨h.nonempty, h.notDot⟩

inductive Walks (t : Tree) : Nat → Key → List Bytes → Found → Prop
  | arrived (links : Nat) (here : Key) :
      Walks t links here [] (.existing here ((t.find? here).getD ⟨.directory, directoryMode, 0⟩))
  | skip {links : Nat} {here : Key} {name : Bytes} {rest : List Bytes} {found : Found}
      (hname : name = [] ∨ name = dot) (h : Walks t links here rest found) :
      Walks t links here (name :: rest) found
  | up {links : Nat} {here : Key} {rest : List Bytes} {found : Found}
      (h : Walks t links here.dropLast rest found) : Walks t links here (dotdot :: rest) found
  | free {links : Nat} {here : Key} {name : Bytes} (hname : StepsDown name)
      (hfind : t.find? (here ++ [name]) = none) : Walks t links here [name] (.missing here name)
  | down {links : Nat} {here : Key} {name : Bytes} {rest : List Bytes} {found : Found}
      {mode : Nat} {modified : Int} (hname : StepsDown name)
      (hfind : t.find? (here ++ [name]) = some ⟨.directory, mode, modified⟩)
      (h : Walks t links (here ++ [name]) rest found) : Walks t links here (name :: rest) found
  | link {left : Nat} {here : Key} {name : Bytes} {rest : List Bytes} {found : Found}
      {target : Bytes} {mode : Nat} {modified : Int} (hname : StepsDown name)
      (hfind : t.find? (here ++ [name]) = some ⟨.symlink target, mode, modified⟩)
      (h : Walks t left (linkStart here target) (split slash target ++ rest) found) :
      Walks t (left + 1) here (name :: rest) found
  | leaf {links : Nat} {here : Key} {name : Bytes} {e : Entry} (hname : StepsDown name)
      (hfind : t.find? (here ++ [name]) = some e) (hdirectory : e.node.kind ≠ .directory)
      (hlink : e.node.kind ≠ .symlink) : Walks t links here [name] (.existing (here ++ [name]) e)

variable {t : Tree} {links : Nat} {here k directory : Key} {name : Bytes} {names rest : List Bytes}
variable {found : Found} {e : Entry}

theorem walks_of_walkNames {made : Bool} {follow : Key → List Bytes → Except OsError Found}
    (hfollow : ∀ {here names found}, follow here names = .ok found →
      ∃ left, links = left + 1 ∧ Walks t left here names found)
    (h : t.walkNames made follow here names = .ok found) : Walks t links here names found := by
  fun_induction walkNames t made follow here names with
  | case1 here => exact Except.ok.inj h ▸ .arrived links here
  | case2 here name rest hname ih => exact .skip hname (ih h)
  | case3 here rest _ ih => exact .up (ih h)
  | case4 | case5 | case7 | case11 => simp at h
  | case6 here name hskip hup hlong hfind hmade =>
    exact Except.ok.inj h ▸ .free ⟨(not_or.1 hskip).1, (not_or.1 hskip).2, hup⟩ hfind
  | case8 here name rest hskip hup _ _ mode modified hfind ih =>
    exact .down ⟨(not_or.1 hskip).1, (not_or.1 hskip).2, hup⟩ hfind (ih h)
  | case9 here name rest hskip hup _ _ target mode modified hfind =>
    obtain ⟨left, rfl, hrest⟩ := hfollow h
    exact .link ⟨(not_or.1 hskip).1, (not_or.1 hskip).2, hup⟩ hfind hrest
  | case10 here name hskip hup _ e hdirectory hlink hfind =>
    refine Except.ok.inj h ▸ .leaf ⟨(not_or.1 hskip).1, (not_or.1 hskip).2, hup⟩ hfind ?_ ?_
    · intro hkind
      obtain ⟨node, mode, modified⟩ := e
      cases node with
      | directory => exact hdirectory mode modified rfl
      | _ => simp [Node.kind] at hkind
    · intro hkind
      obtain ⟨node, mode, modified⟩ := e
      cases node with
      | symlink target => exact hlink target mode modified rfl
      | _ => simp [Node.kind] at hkind

theorem walks_of_walk {made : Bool} (h : t.walk made links here names = .ok found) :
    Walks t links here names found := by
  induction links generalizing here names found with
  | zero => exact walks_of_walkNames (fun hnone => by cases hnone) h
  | succ left ih => exact walks_of_walkNames (fun hrest => ⟨left, rfl, ih hrest⟩) h

theorem Walks.find?_existing (h : Walks t links here names (.existing k e))
    (hdirectory : e.node.kind ≠ .directory) : t.find? k = some e := by
  generalize hfound : Found.existing k e = found at h
  induction h with
  | arrived links here =>
    obtain ⟨rfl, rfl⟩ := Found.existing.inj hfound
    cases hfind : t.find? k with
    | none => rw [hfind] at hdirectory; exact absurd rfl hdirectory
    | some e => rfl
  | skip _ _ ih | up _ ih | down _ _ _ ih | link _ _ _ ih => exact ih hfound
  | free => cases hfound
  | leaf _ hfind =>
    obtain ⟨rfl, rfl⟩ := Found.existing.inj hfound
    exact hfind

theorem Walks.find?_missing (h : Walks t links here names (.missing directory name)) :
    t.find? (directory ++ [name]) = none := by
  generalize hfound : Found.missing directory name = found at h
  induction h with
  | arrived | leaf => cases hfound
  | skip _ _ ih | up _ ih | down _ _ _ ih | link _ _ _ ih => exact ih hfound
  | free _ hfind =>
    obtain ⟨rfl, rfl⟩ := Found.missing.inj hfound
    exact hfind

/-- Behind the names of a directory, a name that is free in it is found free. -/
theorem Walks.append_free (h : Walks t links here names (.existing directory e))
    (hdirectory : e.node.kind = .directory) (hname : StepsDown name)
    (hfree : t.find? (directory ++ [name]) = none) :
    Walks t links here (names ++ [name]) (.missing directory name) := by
  generalize hfound : Found.existing directory e = found at h
  induction h with
  | arrived links here =>
    obtain ⟨rfl, -⟩ := Found.existing.inj hfound
    exact .free hname hfree
  | skip hskip _ ih => exact .skip hskip (ih hfound)
  | up _ ih => exact .up (ih hfound)
  | free => cases hfound
  | down hdown hfind _ ih => exact .down hdown hfind (ih hfound)
  | link hdown hfind _ ih =>
    have hrest := ih hfound
    rw [List.append_assoc] at hrest
    exact .link hdown hfind hrest
  | leaf _ _ hleaf =>
    obtain ⟨-, rfl⟩ := Found.existing.inj hfound
    exact absurd hdirectory hleaf

/-- A name that is followed down is none of the slashes at the end. -/
theorem cons_of_append_slashes {slashes : List Bytes} (hslashes : ∀ name ∈ slashes, name = [])
    (hname : name ≠ []) (h : names ++ slashes = name :: rest) :
    ∃ more, names = name :: more ∧ more ++ slashes = rest := by
  cases names with
  | nil =>
    have hmem : name ∈ slashes := by
      rw [List.nil_append] at h
      exact h ▸ List.mem_cons_self
    exact absurd (hslashes name hmem) hname
  | cons first more =>
    obtain ⟨rfl, hrest⟩ := List.cons.inj h
    exact ⟨more, rfl, hrest⟩

theorem Walks.trim {slashes : List Bytes} (hslashes : ∀ name ∈ slashes, name = [])
    (h : Walks t links here (names ++ slashes) found) : Walks t links here names found := by
  generalize hall : names ++ slashes = all at h
  induction h generalizing names slashes with
  | arrived links here =>
    obtain ⟨rfl, -⟩ := List.append_eq_nil_iff.1 hall
    exact .arrived links here
  | skip hskip _ ih =>
    cases names with
    | nil =>
      cases slashes with
      | nil => cases hall
      | cons first slashes =>
        obtain ⟨-, hrest⟩ := List.cons.inj hall
        exact ih (fun name hname => hslashes name (List.mem_cons_of_mem _ hname)) hrest
    | cons name names =>
      obtain ⟨rfl, hrest⟩ := List.cons.inj hall
      exact .skip hskip (ih hslashes hrest)
  | up _ ih =>
    obtain ⟨more, rfl, hrest⟩ := cons_of_append_slashes hslashes (by decide) hall
    exact .up (ih hslashes hrest)
  | free hname hfind =>
    obtain ⟨more, rfl, hrest⟩ := cons_of_append_slashes hslashes hname.nonempty hall
    obtain ⟨rfl, -⟩ := List.append_eq_nil_iff.1 hrest
    exact .free hname hfind
  | down hname hfind _ ih =>
    obtain ⟨more, rfl, hrest⟩ := cons_of_append_slashes hslashes hname.nonempty hall
    exact .down hname hfind (ih hslashes hrest)
  | link hname hfind _ ih =>
    obtain ⟨more, rfl, rfl⟩ := cons_of_append_slashes hslashes hname.nonempty hall
    exact .link hname hfind (ih hslashes (List.append_assoc ..))
  | leaf hname hfind hdirectory hlink =>
    obtain ⟨more, rfl, hrest⟩ := cons_of_append_slashes hslashes hname.nonempty hall
    obtain ⟨rfl, -⟩ := List.append_eq_nil_iff.1 hrest
    exact .leaf hname hfind hdirectory hlink

end FtpServer.Tree
