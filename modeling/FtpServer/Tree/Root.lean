import FtpServer.Files

/-!
# The server root

Before a server starts, its root is made with all directories above it, as far as they are
missing, and is then named by the path that leads to it without links.
-/

namespace FtpServer

open Text

namespace Place

def ofText (text : String) : Place := ⟨text, []⟩

/-- The directories that a path leads through, the innermost first. -/
def above (path : String) : List Place :=
  let parts := ((split '/' path.toList).map String.ofList).filter fun n => n ≠ "" ∧ n ≠ "."
  let top := if path.toList.head? = some '/' then "/" else ""
  let prefixes := (List.range (parts.length - 1)).map fun n => parts.take (n + 1)
  prefixes.reverse.map fun names => ofText (top ++ "/".intercalate names)

end Place

namespace Files

def ensureDirectory (p : Place) : Files (Except OsError Unit) := do
  match ← makeDirectory p with
  | .ok () => return .ok ()
  | .error cause =>
    if ← holds p (· = .directory) then return .ok () else return .error cause

/-- Makes `p` with those of the directories `outer` above it that are missing. -/
def makeDirectories (p : Place) : List Place → Files (Except OsError Unit)
  | [] => ensureDirectory p
  | next :: outer => do
    match ← makeDirectory p with
    | .ok () => return .ok ()
    | .error .notFound =>
      match ← makeDirectories next outer with
      | .ok () => ensureDirectory p
      | .error cause => return .error cause
    | .error cause =>
      if ← holds p (· = .directory) then return .ok () else return .error cause

end Files

namespace Tree

/-- The path without links to what a place names. -/
def canonical (t : Tree) (p : Place) : Except OsError String := do
  match ← t.locate p with
  | .existing k _ => return "/" ++ "/".intercalate (k.map decode)
  | .missing _ _ => throw .notFound

def fileAt? (t : Tree) (path : String) : Option Bytes :=
  match t.locate (Place.ofText path) with
  | .ok (.existing _ ⟨.file content, _, _⟩) => some (t.content content).toBytes
  | _ => none

/-- The path to the server root once it is there, and the tree with it. -/
def prepareRoot (t : Tree) (path : String) : Except OsError String × Tree :=
  let p := Place.ofText path
  match (Files.makeDirectories p (Place.above path)).run (Tree.perform fun _ => .error .notFound) t with
  | (.ok (), t) => (t.canonical p, t)
  | (.error cause, t) => (.error cause, t)

end Tree

end FtpServer
