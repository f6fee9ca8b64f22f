import FtpServer.Settings.Conversion
import FtpServer.Settings.Ini
import FtpServer.Settings.Json
import FtpServer.Settings.Json5
import FtpServer.Settings.Ron
import FtpServer.Settings.Toml.Document
import FtpServer.Settings.Yaml.Document
import FtpServer.Text.Lossy
import FtpServer.Text.Split

/-!
# Where settings come from

Settings are layered: the values that stand where nothing is said, a settings file if there is
one, and the environment.  The file is named by the environment, or else is `config`; where no
file has just that name, it is looked for with the extensions of each format behind it.
-/

namespace FtpServer.Settings

open Text

/-- What a program finds around it when it starts. -/
structure Surroundings where
  /-- The working directory, from the top. -/
  directory : String
  environment : List (String × String)
  /-- What the file at a path from the top holds. -/
  file? : String → Option Bytes

inductive Format
  | toml
  | json
  | yaml
  | ini
  | ron
  | json5
  deriving DecidableEq, Repr

namespace Format

def extensions : Format → List String
  | toml => ["toml"]
  | json => ["json"]
  | yaml => ["yaml", "yml"]
  | ini => ["ini"]
  | ron => ["ron"]
  | json5 => ["json5"]

def all : List Format := [.toml, .json, .yaml, .ini, .ron, .json5]

def byExtension : List (String × Format) :=
  all.flatMap fun f => f.extensions.map fun extension => (extension, f)

def ofExtension? (extension : String) : Option Format := byExtension.lookup extension

def readItem (f : Format) (document : String) : Except Misreading Item :=
  let checked (item? : Option Item) : Except Misreading Item :=
    (item?.map .ok).getD (.error .malformed)
  match f with
  | toml => checked (Toml.read document)
  | json => checked (Json.read document)
  | yaml => Yaml.read document
  | ini => checked (Ini.read document)
  | ron => checked (Ron.read document)
  | json5 => checked (Json5.read document)

/-- The table that a document describes; one that is no table describes an empty one. -/
def read (f : Format) (document : String) : Except Misreading Table :=
  (f.readItem document).map Item.entries

end Format

def pathNames (path : String) : List String :=
  ((split '/' path.toList).map String.ofList).filter fun n => n ≠ "" ∧ n ≠ "."

def fromTop (directory path : String) : List String :=
  if path.toList.head? = some '/' then pathNames path else pathNames directory ++ pathNames path

def pathText (names : List String) : String := "/" ++ "/".intercalate names

/-- A file name without its extension, and the extension.  A point at the front begins none. -/
def splitExtension (name : String) : String × Option String :=
  match (split '.' name.toList).reverse with
  | extension :: before :: more =>
    let stem := join '.' (before :: more).reverse
    if stem = [] then (name, none) else (String.ofList stem, some (String.ofList extension))
  | _ => (name, none)

/-- Whether a path can name a file by its last part. -/
def endsInName (path : String) : Bool :=
  match (split '/' path.toList).getLast? with
  | some last => last ≠ [] && last ≠ ['.']
  | none => false

def Surroundings.fileName (s : Surroundings) : String :=
  (s.environment.lookup "RAX_FTPD_CONFIG").getD "config"

def withExtension? (names : List String) (extension : String) : Option (List String) :=
  match names.getLast? with
  | none => none
  | some last =>
    if last = ".." then none else some (names.dropLast ++ [last ++ "." ++ extension])

/-- The format that a file shows by its extension. -/
def formatOf? (names : List String) : Option Format := do
  let last ← names.getLast?
  let extension ← (splitExtension last).2
  Format.ofExtension? extension

structure Found where
  names : List String
  format : Format
  content : Bytes

/-- A file of just the given name is taken or nothing is: without a known extension it does not
count. -/
def Surroundings.settingsFile? (s : Surroundings) : Option Found :=
  let names := fromTop s.directory s.fileName
  let named? := if endsInName s.fileName then s.file? (pathText names) else none
  match named? with
  | some content => (formatOf? names).map fun f => ⟨names, f, content⟩
  | none =>
    Format.byExtension.findSome? fun (extension, format) => do
      let names ← withExtension? names extension
      let content ← s.file? (pathText names)
      some ⟨names, format, content⟩

/-- Every path at which a settings file is looked for. -/
def Surroundings.settingsPaths (s : Surroundings) : List String :=
  let names := fromTop s.directory s.fileName
  pathText names
    :: (Format.byExtension.filterMap fun (extension, _) => withExtension? names extension).map pathText

/-- The path to `names` from the directory `base`. -/
def relativeNames : List String → List String → List String
  | a :: names, b :: base =>
    if a = b then relativeNames names base else (b :: base).map (fun _ => "..") ++ a :: names
  | names, base => base.map (fun _ => "..") ++ names

def Surroundings.fileLayer (s : Surroundings) : Except LoadFault Table :=
  let found? := s.settingsFile?.bind fun found =>
    (decode? found.content).map fun document => (found, document)
  match found? with
  | none => .ok []
  | some (found, document) =>
    let origin := "/".intercalate (relativeNames found.names (pathNames s.directory))
    match found.format.read document with
    | .ok t => .ok (Table.layer origin [] t)
    | .error why => .error (.unreadable origin why)

def Datum.ofText (s : String) : Datum :=
  let word := lower s
  if word = "true" then .boolean true
  else if word = "false" then .boolean false
  else
    match (readInt s.toList).bind signedWord? with
    | some n => .integer n
    | none =>
      match Floating.read s.toList with
      | some x => .floating x
      | none => .text s

def environmentMark : String := "rax_ftpd_"

/-- The variables that name settings, by what follows the mark in small letters. -/
def Surroundings.variables (s : Surroundings) : Table :=
  s.environment.foldl
    (fun t (name, value) =>
      let key := (lower name).toList
      let mark := environmentMark.toList
      if key.take mark.length = mark then
        t.put (String.ofList (key.drop mark.length)) (.value (.ofText value) none)
      else t)
    []

/-- The variables in the form in which a host keeps them: each ends with a zero byte. -/
def readVariables (block : Bytes) : List (String × String) :=
  (split 0 block).filterMap fun entry =>
    match split 61 entry with
    | name :: value :: more => some (decode name, decode (join 61 (value :: more)))
    | _ => none

def load (s : Surroundings) : Except LoadFault Settings := do
  let file ← s.fileLayer
  let settings ← ofTable (Table.layer "the environment" file s.variables)
  match settings.check with
  | .ok () => return settings
  | .error fault => throw (.refused fault)

end FtpServer.Settings
