import FtpServer.Files
import FtpServer.Proofs.Tree.Walks
import Mathlib.Data.List.TakeWhile

/-!
# What calls find and change

A call that succeeds found its places by walks, and changed the tree in one place.
-/

namespace FtpServer

open Text

theorem bind_eq_ok {ε α β : Type} {x : Except ε α} {f : α → Except ε β} {b : β} :
    x >>= f = .ok b ↔ ∃ a, x = .ok a ∧ f a = .ok b := by
  cases x with
  | error e => simp [Bind.bind, Except.bind]
  | ok a => simp [Bind.bind, Except.bind]

namespace Tree

variable {t t' : Tree} {p source target : Place} {directory : Key} {found : Found}
variable {last name : Bytes} {old : Option Entry}

theorem namesOf_eq {names : List Bytes} (h : namesOf p = .ok names) : names = p.names := by
  unfold namesOf at h
  split at h
  next => cases h
  next =>
    split at h
    next => cases h
    next =>
      split at h
      next => cases h
      next => exact (Except.ok.inj h).symm

theorem walks_of_locate (h : t.locate p = .ok found) :
    Walks t linkLimit (t.startOf p.names) p.names found := by
  obtain ⟨names, hnames, hwalk⟩ := bind_eq_ok.1 h
  obtain rfl := namesOf_eq hnames
  exact walks_of_walk hwalk

theorem walks_of_locateMade (h : t.locateMade p = .ok found) :
    Walks t linkLimit (t.startOf p.names) p.names found := by
  obtain ⟨names, hnames, hwalk⟩ := bind_eq_ok.1 h
  obtain rfl := namesOf_eq hnames
  exact walks_of_walk hwalk

/-- The last name of a place with what leads to it. -/
structure EndsIn (t : Tree) (p : Place) (directory : Key) (last : Bytes) (front : List Bytes)
    (slashes : List Bytes) : Prop where
  names_eq : p.names = front ++ [last] ++ slashes
  slashes : ∀ name ∈ slashes, name = []
  last : StepsDown last
  walks : ∃ e, e.node.kind = .directory ∧
    Walks t linkLimit (t.startOf p.names) front (.existing directory e)

theorem lastOf_eq_name {name : Bytes} (h : lastOf name = .name last) :
    name = last ∧ last ≠ dot ∧ last ≠ dotdot := by
  unfold lastOf at h
  split at h
  next => cases h
  next hdot =>
    split at h
    next => cases h
    next hdotdot =>
      obtain rfl := Last.name.inj h
      exact ⟨rfl, hdot, hdotdot⟩

theorem endsIn_of_locateParent (h : t.locateParent p = .ok (directory, .name last)) :
    ∃ front slashes, EndsIn t p directory last front slashes := by
  obtain ⟨names, hnames, h⟩ := bind_eq_ok.1 h
  obtain rfl := namesOf_eq hnames
  have hcut := List.takeWhile_append_dropWhile (p := (· = [])) (l := p.names.reverse)
  have hslashes : ∀ name ∈ p.names.reverse.takeWhile (· = []), name = [] :=
    fun name hname => by simpa using List.mem_takeWhile_imp hname
  have hfinal := List.head?_dropWhile_not (· = []) p.names.reverse
  generalize p.names.reverse.takeWhile (· = []) = slashes at hcut hslashes
  cases hback : p.names.reverse.dropWhile (· = []) with
  | nil => rw [hback] at h; cases h
  | cons final back =>
    rw [hback] at h hcut hfinal
    obtain ⟨found, hwalk, h⟩ := bind_eq_ok.1 h
    split at h
    next key mode modified =>
      obtain ⟨rfl, hlast⟩ := Prod.mk.inj (Except.ok.inj h)
      obtain ⟨rfl, hdot, hdotdot⟩ := lastOf_eq_name hlast
      refine ⟨back.reverse, slashes.reverse, ?_, ?_, ⟨by simpa using hfinal, hdot, hdotdot⟩,
        ⟨_, rfl, walks_of_walk hwalk⟩⟩
      · have hall := congrArg List.reverse hcut
        simpa using hall.symm
      · exact fun name hname => hslashes name (List.mem_reverse.1 hname)
    next => cases h
    next => cases h

theorem entryIn_eq_ok (h : t.entryIn directory name = .ok old) :
    t.find? (directory ++ [name]) = old := by
  unfold entryIn at h
  split at h
  next => cases h
  next => exact Except.ok.inj h

theorem makeDirectory_eq_ok (h : t.makeDirectory p = .ok t') :
    ∃ directory name, t.locateParent p = .ok (directory, .name name) ∧
      t.find? (directory ++ [name]) = none ∧
      t' = t.put (directory ++ [name]) ⟨.directory, directoryMode, t.now⟩ := by
  obtain ⟨⟨directory, last⟩, hparent, h⟩ := bind_eq_ok.1 h
  cases last with
  | name name =>
    obtain ⟨old, hentry, h⟩ := bind_eq_ok.1 h
    cases old with
    | some e => cases h
    | none => exact ⟨directory, name, hparent, entryIn_eq_ok hentry, (Except.ok.inj h).symm⟩
  | _ => cases h

theorem removeDirectory_eq_ok (h : t.removeDirectory p = .ok t') :
    ∃ directory name, t.locateParent p = .ok (directory, .name name) ∧
      t.children (directory ++ [name]) = [] ∧ t' = t.erase (directory ++ [name]) := by
  obtain ⟨⟨directory, last⟩, hparent, h⟩ := bind_eq_ok.1 h
  cases last with
  | name name =>
    obtain ⟨old, -, h⟩ := bind_eq_ok.1 h
    refine ⟨directory, name, hparent, ?_⟩
    split at h
    next => cases h
    next =>
      split at h
      next hempty => exact ⟨List.isEmpty_iff.1 hempty, (Except.ok.inj h).symm⟩
      next => cases h
    next => cases h
  | _ => cases h

theorem removeFile_eq_ok (h : t.removeFile p = .ok t') :
    ∃ directory name e, t.locateParent p = .ok (directory, .name name) ∧
      t.find? (directory ++ [name]) = some e ∧ e.node ≠ .directory ∧
      t' = t.erase (directory ++ [name]) := by
  obtain ⟨⟨directory, last⟩, hparent, h⟩ := bind_eq_ok.1 h
  cases last with
  | name name =>
    obtain ⟨old, hentry, h⟩ := bind_eq_ok.1 h
    split at h
    next => cases h
    next => cases h
    next e hother =>
      refine ⟨directory, name, e, hparent, entryIn_eq_ok hentry, ?_, (Except.ok.inj h).symm⟩
      obtain ⟨node, mode, modified⟩ := e
      rintro rfl
      exact hother mode modified rfl
  | _ => cases h

/-- The ends of a move lie apart, and what stood at the target could be replaced. -/
structure Moves (t : Tree) (source target : Key) (e : Entry) (t' : Tree) : Prop where
  found : t.find? source = some e
  apart : ¬ source <+: target
  apart' : ¬ target <+: source
  replaces : ∀ o, t.find? target = some o → t.checkReplace e target o = .ok ()
  tree_eq : t' = t.move source target

theorem rename_eq_ok (h : t.rename source target = .ok t') :
    ∃ sourceDir sourceName targetDir targetName e,
      t.locateParent source = .ok (sourceDir, .name sourceName) ∧
      t.locateParent target = .ok (targetDir, .name targetName) ∧
      (sourceDir ++ [sourceName] = targetDir ++ [targetName] ∧ t' = t ∨
        t.Moves (sourceDir ++ [sourceName]) (targetDir ++ [targetName]) e t') := by
  obtain ⟨⟨sourceDir, sourceLast⟩, hsource, h⟩ := bind_eq_ok.1 h
  obtain ⟨⟨targetDir, targetLast⟩, htarget, h⟩ := bind_eq_ok.1 h
  cases sourceLast with
  | name sourceName =>
    cases targetLast with
    | name targetName =>
      obtain ⟨found, hfound, h⟩ := bind_eq_ok.1 h
      cases found with
      | none => cases h
      | some e =>
        obtain ⟨old, hold, h⟩ := bind_eq_ok.1 h
        refine ⟨sourceDir, sourceName, targetDir, targetName, e, hsource, htarget, ?_⟩
        have hsome := entryIn_eq_ok hfound
        have hstood := entryIn_eq_ok hold
        split at h
        next hsame => exact .inl ⟨hsame, (Except.ok.inj h).symm⟩
        next =>
          split at h
          next => cases h
          next hapart =>
            split at h
            next => cases h
            next hapart' =>
              cases old with
              | none =>
                refine .inr ⟨hsome, hapart, hapart', fun o ho => ?_, (Except.ok.inj h).symm⟩
                cases hstood.symm.trans ho
              | some o =>
                obtain ⟨⟨⟩, hcheck, h⟩ := bind_eq_ok.1 h
                refine .inr ⟨hsome, hapart, hapart', fun o' ho => ?_, (Except.ok.inj h).symm⟩
                obtain rfl := Option.some.inj (hstood.symm.trans ho)
                exact hcheck
    | _ => cases h
  | _ => cases h

theorem createFile_eq_ok {opened : Option Nat} (h : t.createFile p = .ok (opened, t')) :
    t' = t ∨
    (∃ key content mode modified, t.locateMade p = .ok (.existing key ⟨.file content, mode, modified⟩) ∧
      t' = (t.setContent content .empty).put key ⟨.file content, mode, t.now⟩) ∨
    ∃ directory name, t.locateMade p = .ok (.missing directory name) ∧
      t' = { t with contents := t.contents ++ [Content.empty] }.put (directory ++ [name])
        ⟨.file t.contents.length, fileMode, t.now⟩ := by
  obtain ⟨found, hfound, h⟩ := bind_eq_ok.1 h
  split at h
  next => cases h
  next key content mode modified =>
    refine .inr (.inl ⟨key, content, mode, modified, hfound, ?_⟩)
    exact (Prod.mk.inj (Except.ok.inj h)).2.symm
  next => exact .inl (Prod.mk.inj (Except.ok.inj h)).2.symm
  next directory name =>
    exact .inr (.inr ⟨directory, name, hfound, (Prod.mk.inj (Except.ok.inj h)).2.symm⟩)

end Tree

end FtpServer
