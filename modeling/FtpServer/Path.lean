import FtpServer.Text.Lossy
import FtpServer.Text.Split

/-!
# Paths inside the server root

A session names files by absolute paths whose segments are plain names.  Resolution is lexical:
it never looks at a file tree.  `Path.within` compares texts, as the program does;
`Path.resolve` rejects an argument for one bad part even where a later `..` would drop it.
-/

namespace FtpServer

structure Path where
  segments : List String
  deriving DecidableEq, Repr, Inhabited

namespace Path

open Text

def root : Path := ⟨[]⟩

def isRoot (p : Path) : Bool := p.segments.isEmpty

/-- The characters of the text: every segment behind a slash, and a lone slash for the root. -/
def chars (p : Path) : List Char :=
  if p.isRoot then ['/'] else p.segments.flatMap fun s => '/' :: s.toList

def text (p : Path) : String := String.ofList p.chars

@[simp] theorem segments_root : root.segments = [] := rfl

@[simp] theorem text_root : root.text = "/" := rfl

def isPlain (c : Char) : Bool :=
  c.isAlphanum || c == '-' || c == '.' || c == '_'

/-- The segments after following one part of a path argument. -/
def follow (segments : List String) (part : String) : List String :=
  if part = "" ∨ part = "." then segments
  else if part = ".." then segments.dropLast
  else segments ++ [part]

def base (wd : Path) (rel : String) : List String :=
  if rel.toList.head? = some '/' then [] else wd.segments

/-- The path that `rel` names from `wd`, or nothing where a part of `rel` holds a character that
is not plain. -/
def resolve (wd : Path) (rel : String) : Option Path :=
  let parts := split '/' rel.toList
  if parts.all (·.all isPlain) then
    some ⟨(parts.map String.ofList).foldl follow (base wd rel)⟩
  else none

def parent (p : Path) : Path := ⟨p.segments.dropLast⟩

@[simp] theorem parent_root : root.parent = root := rfl

/-- Whether the text of `p` is that of `ancestor` or goes on from it with a slash. -/
def within (p ancestor : Path) : Bool :=
  ancestor.isRoot || p.chars == ancestor.chars
    || (ancestor.chars.isPrefixOf p.chars
      && (p.chars.drop ancestor.chars.length).head? == some '/')

/-- `p` with its beginning `source` replaced by `target`. -/
def rebase (p source target : Path) : Option Path :=
  if p.within source then
    some ⟨target.segments ++ p.segments.drop source.segments.length⟩
  else none

/-- The working directory once `removed` is gone. -/
def afterRemove (wd removed : Path) : Path :=
  if wd = removed then removed.parent else wd

/-- The working directory once `source` is called `target`. -/
def afterRename (wd source target : Path) : Path :=
  (wd.rebase source target).getD wd

end Path

/-- A name on the host: the server root as the settings give it, and the segments below it. -/
structure Place where
  root : String
  segments : List String
  deriving DecidableEq, Repr

namespace Place

open Text

def push (text segment : String) : String :=
  if text = "" ∨ text.toList.getLast? = some '/' then text ++ segment else text ++ "/" ++ segment

def text (p : Place) : String :=
  p.segments.foldl push p.root

/-- What stands between the slashes of the name; empty parts and dots are kept. -/
def names (p : Place) : List Bytes :=
  (split '/' p.root.toList).map (fun part => encode (String.ofList part)) ++ p.segments.map encode

end Place

def Path.place (root : String) (p : Path) : Place := ⟨root, p.segments⟩

end FtpServer
