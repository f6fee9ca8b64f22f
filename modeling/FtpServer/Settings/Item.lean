import FtpServer.Text.Decimal

/-!
# Items of a settings source

A source of settings is a table whose entries are values or tables.  Sources are layered: what a
later one says stands over what an earlier one said, and two tables of one name are joined.  A
value remembers the source it came from; a table may come from several and remembers none.
-/

namespace FtpServer.Settings

/-- A value other than a table.  No setting is a list, so of a list nothing is kept. -/
inductive Datum
  | nothing
  | boolean (b : Bool)
  | integer (n : Int)
  | floating (x : Float)
  | text (s : String)
  | list
  deriving Repr, Inhabited

inductive Item
  | value (d : Datum) (origin : Option String)
  | table (entries : List (String × Item))
  deriving Inhabited

inductive Misreading
  | malformed
  /-- A key that is neither text nor a whole number. -/
  | unusableKey
  deriving DecidableEq, Repr

abbrev Table := List (String × Item)

namespace Table

def find? : Table → String → Option Item
  | [], _ => none
  | (k, item) :: rest, key => if k = key then some item else find? rest key

/-- `item` at `key`, in the place of what was there. -/
def put : Table → String → Item → Table
  | [], key, item => [(key, item)]
  | (k, old) :: rest, key, item => if k = key then (key, item) :: rest else (k, old) :: put rest key item

end Table

namespace Item

def entries : Item → Table
  | value _ _ => []
  | table es => es

def entriesOf (item : Option Item) : Table := (item.map entries).getD []

end Item

mutual

/-- `new`, from the source `origin`, over what stood there before.  A table without entries leaves
a value as it is. -/
def Item.over (origin : String) (old : Option Item) : Item → Item
  | .value d _ => .value d (some origin)
  | .table es =>
    match es, old with
    | [], some item => item
    | _, _ => .table (Table.join origin (Item.entriesOf old) es)

/-- The entries of `new` one after the other over those of `old`. -/
def Table.join (origin : String) (old : Table) : List (String × Item) → Table
  | [] => old
  | (key, item) :: rest =>
    Table.join origin (old.put key (Item.over origin (old.find? key) item)) rest

end

inductive Step
  | name (s : String)
  | index (i : Int)
  deriving DecidableEq, Repr

/-- A name at the top, and the steps from there. -/
structure KeyPath where
  first : String
  steps : List Step
  deriving DecidableEq, Repr

namespace KeyPath

def isNameChar (c : Char) : Bool := c.isAlphanum || c == ' ' || c == '_' || c == '-'

def isSpace (c : Char) : Bool := c == ' ' || c == '\t'

def readName (cs : List Char) : Option (String × List Char) :=
  let run := cs.takeWhile isNameChar
  if run = [] then none else some (String.ofList run, cs.drop run.length)

def readIndex (cs : List Char) : Option Int :=
  let inner := ((cs.dropWhile isSpace).reverse.dropWhile isSpace).reverse
  let n? := match inner with
    | '-' :: ds => (Text.readNat ds).map fun n => -Int.ofNat n
    | ds => (Text.readNat ds).map Int.ofNat
  n?.bind Text.signedWord?

/-- Names behind points and indices in brackets, to the end of the key. -/
def readSteps : Nat → List Char → Option (List Step)
  | _, [] => some []
  | 0, _ => none
  | fuel + 1, '.' :: cs => do
    let (name, rest) ← readName cs
    let steps ← readSteps fuel rest
    some (.name name :: steps)
  | fuel + 1, '[' :: cs => do
    let inner := cs.takeWhile (· ≠ ']')
    let i ← readIndex inner
    match cs.drop inner.length with
    | _ :: rest =>
      let steps ← readSteps fuel rest
      some (.index i :: steps)
    | [] => none
  | _ + 1, _ => none

def read? (key : String) : Option KeyPath := do
  let (first, rest) ← readName key.toList
  let steps ← readSteps rest.length rest
  some ⟨first, steps⟩

/-- The path that a key of a source names; a key that is no path is a name as it stands. -/
def ofKey (key : String) : KeyPath := (read? key).getD ⟨key, []⟩

end KeyPath

/-- `new` at the end of `steps`, which start at `old`.  A step by name makes a table of what is
none; a step by index makes a list of it. -/
def Item.place (origin : String) (new : Item) : Option Item → List Step → Item
  | old, [] => new.over origin old
  | old, .name k :: steps =>
    let es := Item.entriesOf old
    .table (es.put k (Item.place origin new (es.find? k) steps))
  | old, .index _ :: _ =>
    match old with
    | some (.value .list from') => .value .list from'
    | _ => .value .list none

def Table.layer (origin : String) (layers source : Table) : Table :=
  source.foldl
    (fun t (key, item) =>
      let p := KeyPath.ofKey key
      t.put p.first (Item.place origin item (t.find? p.first) p.steps))
    layers

end FtpServer.Settings
