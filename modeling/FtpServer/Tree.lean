import FtpServer.Os
import FtpServer.Path

/-!
# The file tree of the host

Directories, files, symbolic links and other nodes by the names that lead to them from the top.
A file's content has a number of its own: it outlives its name as long as somebody has it open.
Names are followed as hosts do it: a link is replaced by its target, at most `linkLimit` times.
-/

namespace FtpServer

open Text

inductive Kind
  | directory
  | file
  | symlink
  | other
  deriving DecidableEq, Repr

inductive Node
  | directory
  | file (content : Nat)
  | symlink (target : Bytes)
  | other
  deriving DecidableEq, Repr

def Node.kind : Node → Kind
  | .directory => .directory
  | .file _ => .file
  | .symlink _ => .symlink
  | .other => .other

/-- A node with its permission bits and the time it was changed, in seconds since 1970. -/
structure Entry where
  node : Node
  mode : Nat
  modified : Int
  deriving DecidableEq, Repr

abbrev Key := List Bytes

/-- What a file holds: bytes, and zeros after them. -/
structure Content where
  bytes : Bytes
  zeros : Nat
  deriving DecidableEq, Repr

namespace Content

def empty : Content := ⟨[], 0⟩

def size (c : Content) : Nat := c.bytes.length + c.zeros

def read (c : Content) (offset most : Nat) : Bytes :=
  let held := (c.bytes.drop offset).take most
  let past := max offset c.bytes.length
  held ++ List.replicate (min (most - held.length) (c.size - past)) 0

def toBytes (c : Content) : Bytes := c.bytes ++ List.replicate c.zeros 0

/-- The content with `chunk` at `offset`; a gap before it is filled with zeros. -/
def write (c : Content) (offset : Nat) (chunk : Bytes) : Content :=
  if c.zeros = 0 ∧ offset = c.bytes.length then ⟨c.bytes ++ chunk, 0⟩
  else
    let before := c.toBytes.take offset
    ⟨before ++ List.replicate (offset - before.length) 0 ++ chunk
      ++ c.toBytes.drop (offset + chunk.length), 0⟩

def resize (c : Content) (n : Nat) : Content :=
  if n ≤ c.bytes.length then ⟨c.bytes.take n, 0⟩ else ⟨c.bytes, n - c.bytes.length⟩

@[simp] theorem toBytes_empty : empty.toBytes = [] := rfl

end Content

structure Tree where
  /-- Every node below the top; no key occurs twice. -/
  entries : List (Key × Entry)
  /-- Contents by number. -/
  contents : List Content
  /-- Where names that do not begin at the top are followed from. -/
  start : Key
  /-- The time that is noted when something is made. -/
  now : Int
  deriving DecidableEq, Repr

namespace Tree

def directoryMode : Nat := 0o755
def fileMode : Nat := 0o644
def symlinkMode : Nat := 0o777

/-- The permissions of what is made without any said. -/
def usualMode : Kind → Nat
  | .directory => directoryMode
  | .symlink => symlinkMode
  | .file | .other => fileMode

def bare : Tree := ⟨[], [], [], 0⟩

/-- The top is a directory that is always there. -/
def find? (t : Tree) (k : Key) : Option Entry :=
  if k = [] then some ⟨.directory, directoryMode, 0⟩ else t.entries.lookup k

@[simp] theorem find?_top (t : Tree) : t.find? [] = some ⟨.directory, directoryMode, 0⟩ := rfl

def isDirectory (t : Tree) (k : Key) : Bool :=
  match t.find? k with
  | some ⟨.directory, _, _⟩ => true
  | _ => false

/-- The names and entries of what lies directly in a directory. -/
def children (t : Tree) (k : Key) : List (Bytes × Entry) :=
  t.entries.filterMap fun (key, e) =>
    match key.getLast? with
    | some name => if key.dropLast = k then some (name, e) else none
    | none => none

def content (t : Tree) (number : Nat) : Content := (t.contents[number]?).getD .empty

def setContent (t : Tree) (number : Nat) (c : Content) : Tree :=
  { t with contents := t.contents.set number c }

/-- `k` without what was there before and with `e`. -/
def put (t : Tree) (k : Key) (e : Entry) : Tree :=
  { t with entries := (k, e) :: t.entries.filter fun (key, _) => key ≠ k }

def erase (t : Tree) (k : Key) : Tree :=
  { t with entries := t.entries.filter fun (key, _) => key ≠ k }

/-- Everything at and below `source` taken to `target`. -/
def move (t : Tree) (source target : Key) : Tree :=
  { t with entries := (t.erase target).entries.map fun (key, e) =>
      if source <+: key then (target ++ key.drop source.length, e) else (key, e) }

def dot : Bytes := [46]
def dotdot : Bytes := [46, 46]
def slash : UInt8 := 47

def nameLimit : Nat := 255
def placeLimit : Nat := 4096
def linkLimit : Nat := 40

/-- Where names lead: to a node, or to a free name in a directory. -/
inductive Found
  | existing (k : Key) (e : Entry)
  | missing (directory : Key) (name : Bytes)
  deriving DecidableEq, Repr

/-- The names of a link's target, and where they are followed from. -/
def linkStart (here : Key) (target : Bytes) : Key :=
  if target.head? = some slash then [] else here

/-- Names followed from `here` as far as no link stands in the way, and from there on by `follow`.
What is `made` where it is missing is no directory: a slash behind its name is refused before
anything is looked up. -/
def walkNames (t : Tree) (made : Bool) (follow : Key → List Bytes → Except OsError Found)
    (here : Key) : List Bytes → Except OsError Found
  | [] => .ok (.existing here ((t.find? here).getD ⟨.directory, directoryMode, 0⟩))
  | name :: rest =>
    if name = [] ∨ name = dot then walkNames t made follow here rest
    else if name = dotdot then walkNames t made follow here.dropLast rest
    else if made ∧ rest ≠ [] ∧ rest.all (· = []) then .error .isADirectory
    else if nameLimit < name.length then .error .nameTooLong
    else
      match t.find? (here ++ [name]) with
      | none => if rest = [] then .ok (.missing here name) else .error .notFound
      | some ⟨.directory, _, _⟩ => walkNames t made follow (here ++ [name]) rest
      | some ⟨.symlink target, _, _⟩ => follow (linkStart here target) (split slash target ++ rest)
      | some e => if rest = [] then .ok (.existing (here ++ [name]) e) else .error .notADirectory

/-- Names followed from a directory, through so many links at most. -/
def walk (t : Tree) (made : Bool) : Nat → Key → List Bytes → Except OsError Found
  | 0 => t.walkNames made fun _ _ => .error .symlinkLoop
  | left + 1 => t.walkNames made (t.walk made left)

/-- Names that begin with an empty one begin at the top. -/
def startOf (t : Tree) (names : List Bytes) : Key :=
  if names.head? = some [] then [] else t.start

/-- The names of a place, unless no call can take them. -/
def namesOf (p : Place) : Except OsError (List Bytes) :=
  if p.text = "" then .error .notFound
  else if p.text.toList.contains '\x00' then .error .nulInName
  else if placeLimit ≤ p.text.utf8ByteSize then .error .nameTooLong
  else .ok p.names

def locate (t : Tree) (p : Place) : Except OsError Found := do
  let names ← namesOf p
  t.walk false linkLimit (t.startOf names) names

/-- The node that a place names in the end, or where it is to be made. -/
def locateMade (t : Tree) (p : Place) : Except OsError Found := do
  let names ← namesOf p
  t.walk true linkLimit (t.startOf names) names

/-- The last name of a place, which is not followed. -/
inductive Last
  | top
  | dot
  | dotdot
  | name (name : Bytes)
  deriving DecidableEq, Repr

def lastOf (name : Bytes) : Last :=
  if name = Tree.dot then .dot else if name = Tree.dotdot then .dotdot else .name name

/-- The directory that holds the last name of a place. -/
def locateParent (t : Tree) (p : Place) : Except OsError (Key × Last) := do
  let names ← namesOf p
  match (names.reverse.dropWhile (· = [])) with
  | [] => return ([], .top)
  | last :: before =>
    match ← t.walk false linkLimit (t.startOf names) before.reverse with
    | .existing k ⟨.directory, _, _⟩ => return (k, lastOf last)
    | .existing _ _ => throw .notADirectory
    | .missing _ _ => throw .notFound

def entryIn (t : Tree) (directory : Key) (name : Bytes) : Except OsError (Option Entry) :=
  if nameLimit < name.length then .error .nameTooLong else .ok (t.find? (directory ++ [name]))

def look (t : Tree) (p : Place) : Except OsError Kind := do
  match ← t.locate p with
  | .existing _ e => return e.node.kind
  | .missing _ _ => throw .notFound

def makeDirectory (t : Tree) (p : Place) : Except OsError Tree := do
  match ← t.locateParent p with
  | (k, .name name) =>
    match ← t.entryIn k name with
    | some _ => throw .alreadyExists
    | none => return t.put (k ++ [name]) ⟨.directory, directoryMode, t.now⟩
  | _ => throw .alreadyExists

def removeDirectory (t : Tree) (p : Place) : Except OsError Tree := do
  match ← t.locateParent p with
  | (_, .top) => throw .busy
  | (_, .dot) => throw .invalidArgument
  | (_, .dotdot) => throw .notEmpty
  | (k, .name name) =>
    match ← t.entryIn k name with
    | none => throw .notFound
    | some ⟨.directory, _, _⟩ =>
      if (t.children (k ++ [name])).isEmpty then return t.erase (k ++ [name])
      else throw .notEmpty
    | some _ => throw .notADirectory

def removeFile (t : Tree) (p : Place) : Except OsError Tree := do
  match ← t.locateParent p with
  | (k, .name name) =>
    match ← t.entryIn k name with
    | none => throw .notFound
    | some ⟨.directory, _, _⟩ => throw .isADirectory
    | some _ => return t.erase (k ++ [name])
  | _ => throw .isADirectory

/-- Whether a node may take the place of another one. -/
def checkReplace (t : Tree) (source : Entry) (target : Key) (old : Entry) : Except OsError Unit :=
  match source.node, old.node with
  | .directory, .directory => if (t.children target).isEmpty then .ok () else .error .notEmpty
  | .directory, _ => .error .notADirectory
  | _, .directory => .error .isADirectory
  | _, _ => .ok ()

def rename (t : Tree) (source target : Place) : Except OsError Tree := do
  let (sourceDir, sourceLast) ← t.locateParent source
  let (targetDir, targetLast) ← t.locateParent target
  match sourceLast, targetLast with
  | .name sourceName, .name targetName =>
    let sourceKey := sourceDir ++ [sourceName]
    let targetKey := targetDir ++ [targetName]
    match ← t.entryIn sourceDir sourceName with
    | none => throw .notFound
    | some e =>
      let old ← t.entryIn targetDir targetName
      if sourceKey = targetKey then return t
      else if sourceKey <+: targetKey then throw .invalidArgument
      else if targetKey <+: sourceKey then throw .notEmpty
      else
        match old with
        | none => return t.move sourceKey targetKey
        | some o =>
          checkReplace t e targetKey o
          return t.move sourceKey targetKey
  | _, _ => throw .busy

/-- Opens a file to read it: the number of its content. -/
def openFile (t : Tree) (p : Place) : Except OsError (Option Nat) := do
  match ← t.locate p with
  | .existing _ ⟨.file content, _, _⟩ => return some content
  | .existing _ _ => return none
  | .missing _ _ => throw .notFound

/-- Opens a file to write it, empty and made where it was missing; nothing is written to a node
that is no file. -/
def createFile (t : Tree) (p : Place) : Except OsError (Option Nat × Tree) := do
  match ← t.locateMade p with
  | .existing _ ⟨.directory, _, _⟩ => throw .isADirectory
  | .existing k ⟨.file content, mode, _⟩ =>
    return (some content, (t.setContent content .empty).put k ⟨.file content, mode, t.now⟩)
  | .existing _ _ => return (none, t)
  | .missing k name =>
    let made := { t with contents := t.contents ++ [Content.empty] }
    return (some t.contents.length,
      made.put (k ++ [name]) ⟨.file t.contents.length, fileMode, t.now⟩)

end Tree

end FtpServer
