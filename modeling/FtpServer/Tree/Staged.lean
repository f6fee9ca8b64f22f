import FtpServer.Tree

/-!
# Trees from a list

A tree made of a list of what it holds; the directories above each item are made as needed.
-/

namespace FtpServer

open Text

inductive StagedNode
  | directory
  | file (content : Content)
  | symlink (target : Bytes)
  | other
  deriving DecidableEq, Repr

structure Staged where
  names : List Bytes
  node : StagedNode
  mode : Nat
  modified : Int
  deriving DecidableEq, Repr

namespace Staged

def ownerRead : Nat := 0o400

/-- The time of a directory is set through an open directory, so its owner must have the right to
read it. -/
def isSettable (s : Staged) : Bool :=
  match s.node with
  | .directory => s.mode &&& ownerRead ≠ 0
  | _ => true

end Staged

namespace Tree

/-- The directories on the way from `top` along `names`, made where they are missing. -/
def withDirectories (t : Tree) (top : Key) : List Bytes → Tree
  | [] => t
  | name :: rest =>
    let k := top ++ [name]
    let t := match t.find? k with
      | some _ => t
      | none => t.put k ⟨.directory, directoryMode, t.now⟩
    t.withDirectories k rest

def stageOne (t : Tree) (top : Key) (s : Staged) : Tree :=
  let t := t.withDirectories top s.names.dropLast
  let k := top ++ s.names
  match s.node with
  | .directory => t.put k ⟨.directory, s.mode, s.modified⟩
  | .symlink target => t.put k ⟨.symlink target, s.mode, s.modified⟩
  | .other => t.put k ⟨.other, s.mode, s.modified⟩
  | .file content =>
    { t with contents := t.contents ++ [content] }.put k
      ⟨.file t.contents.length, s.mode, s.modified⟩

/-- The tree with all items below `top`, unless one of them cannot be made as it is given. -/
def stage? (t : Tree) (top : Key) (items : List Staged) : Option Tree :=
  if items.all Staged.isSettable then some (items.foldl (fun t s => t.stageOne top s) t) else none

def touch (t : Tree) (top : Key) (time : Int) : Tree :=
  { t with entries := t.entries.map fun (k, e) =>
      if top <+: k ∧ k ≠ top then (k, { e with modified := time }) else (k, e) }

/-- Everything below `top` by the names that lead there; a directory comes before what it holds
and siblings in the order of their bytes. -/
def below (t : Tree) (top : Key) : List (Key × Entry) :=
  (t.entries.filterMap fun (k, e) =>
    if top <+: k ∧ k ≠ top then some (k.drop top.length, e) else none).mergeSort
      fun a b => a.1 ≤ b.1

end Tree

end FtpServer
