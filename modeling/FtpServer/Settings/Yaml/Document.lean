import FtpServer.Settings.Item
import FtpServer.Settings.Yaml.Layout
import FtpServer.Settings.Yaml.Scalar

/-!
# YAML documents

A text holds one document or none, and a document is one node: a word or text, a list, or a
mapping.  A node may be named by an anchor and repeated by an alias.  Keys of mappings are text or
whole numbers; another key, or a number that no numeral stands for, makes the document unusable.
-/

namespace FtpServer.Settings.Yaml

inductive Node
  | scalar (s : Scalar)
  | list (elements : List Node)
  /-- By the texts of the keys; a key that has none is no text or whole number. -/
  | mapping (entries : List (Option String × Node))
  deriving Inhabited

namespace Node

/-- A key and its value, in the place of an earlier value of the key. -/
def put (entries : List (Option String × Node)) (key : Option String) (value : Node) :
    List (Option String × Node) :=
  match entries with
  | [] => [(key, value)]
  | (k, old) :: rest => if k = key then (key, value) :: rest else (k, old) :: put rest key value

def keyText : Node → Option String
  | scalar (.text s) => some s
  | scalar (.integer n) => some (Text.ofInt n)
  | _ => none

def empty : Node := scalar .null

end Node

structure Anchors where
  /-- The number that a name stands for, the newest first. -/
  names : List (String × Nat)
  /-- The nodes that are complete. -/
  nodes : List (Nat × Node)
  next : Nat

namespace Anchors

def none : Anchors := ⟨[], [], 0⟩

def name (a : Anchors) (name : String) : Nat × Anchors :=
  (a.next, { a with names := (name, a.next) :: a.names, next := a.next + 1 })

def complete (a : Anchors) (number : Option Nat) (n : Node) : Anchors :=
  match number with
  | some number => { a with nodes := (number, n) :: a.nodes }
  | Option.none => a

/-- What an alias stands for; a node that it stands in itself is unfit. -/
def find? (a : Anchors) (name : String) : Option Node :=
  (a.names.lookup name).map fun number => (a.nodes.lookup number).getD (.scalar .unfit)

end Anchors

structure Reader where
  tokens : List Token
  anchors : Anchors

namespace Reader

def peek? (r : Reader) : Option Token := r.tokens.head?

def skip (r : Reader) : Reader := { r with tokens := r.tokens.drop 1 }

def sees (r : Reader) (ts : List Token) : Bool := (r.peek?.map ts.contains).getD false

/-- What stands before a node: the number of its anchor and its tag, in either order. -/
def readProperties (r : Reader) : Option Nat × Option (String × String) × Reader :=
  match r.tokens with
  | .anchor name :: .tag handle suffix :: _ =>
    let (number, anchors) := r.anchors.name name
    (some number, some (handle, suffix), { r.skip.skip with anchors })
  | .tag handle suffix :: .anchor name :: _ =>
    let (number, anchors) := r.anchors.name name
    (some number, some (handle, suffix), { r.skip.skip with anchors })
  | .anchor name :: _ =>
    let (number, anchors) := r.anchors.name name
    (some number, Option.none, { r.skip with anchors })
  | .tag handle suffix :: _ => (Option.none, some (handle, suffix), r.skip)
  | _ => (Option.none, Option.none, r)

def scalarOf (plain : Bool) (text : List Char) (tag : Option (String × String)) : Scalar :=
  if !plain then .text (String.ofList text)
  else
    match tag with
    | some (handle, suffix) => .ofTagged handle suffix text
    | Option.none => .ofWord text

mutual

/-- A node; `block` allows collections without brackets, and `bare` lists that are no deeper than
the key they belong to. -/
def readNode (block bare : Bool) : Nat → Reader → Option (Node × Reader)
  | 0, _ => Option.none
  | fuel + 1, r =>
    match r.peek? with
    | some (.alias name) => (r.anchors.find? name).map fun n => (n, r.skip)
    | _ => do
      let (number, tag, r) := r.readProperties
      let (n, r) ← readContent block bare fuel number.isSome tag r
      some (n, { r with anchors := r.anchors.complete number n })

def readContent (block bare : Bool) :
    Nat → Bool → Option (String × String) → Reader → Option (Node × Reader)
  | 0, _, _, _ => Option.none
  | fuel + 1, named, tag, r =>
    match r.peek? with
    | some (.scalar plain text) => some (.scalar (scalarOf plain text tag), r.skip)
    | some .openBracket =>
      (readFlowList fuel true r.skip).map fun (ns, r) => (.list ns, r)
    | some .openBrace =>
      (readFlowMapping fuel true [] r.skip).map fun (es, r) => (.mapping es, r)
    | t =>
      if t = some .entry ∧ bare then
        (readBareList fuel r).map fun (ns, r) => (.list ns, r)
      else if t = some .sequenceStart ∧ block then
        (readBlockList fuel r.skip).map fun (ns, r) => (.list ns, r)
      else if t = some .mappingStart ∧ block then
        (readBlockMapping fuel [] r.skip).map fun (es, r) => (.mapping es, r)
      else if named ∨ tag.isSome then some (.scalar (scalarOf true [] tag), r)
      else Option.none

/-- A node, or an empty one before the tokens `ends`. -/
def readUnless (block bare : Bool) (ends : List Token) : Nat → Reader → Option (Node × Reader)
  | 0, _ => Option.none
  | fuel + 1, r => if r.sees ends then some (.empty, r) else readNode block bare fuel r

/-- The value of a key, which is empty without a colon. -/
def readValue (block : Bool) (ends : List Token) : Nat → Reader → Option (Node × Reader)
  | 0, _ => Option.none
  | fuel + 1, r =>
    if r.peek? = some .value then readUnless block block ends fuel r.skip else some (.empty, r)

/-- The entries of a mapping by columns, after those in `es`. -/
def readBlockMapping : Nat → List (Option String × Node) → Reader →
    Option (List (Option String × Node) × Reader)
  | 0, _, _ => Option.none
  | fuel + 1, es, r => do
    let ends : List Token := [.key, .value, .blockEnd]
    let further (key : Node) (r : Reader) : Option (List (Option String × Node) × Reader) := do
      let (n, r) ← readValue true ends fuel r
      readBlockMapping fuel (Node.put es key.keyText n) r
    match r.peek? with
    | some .key => do
      let (key, r) ← readUnless true true ends fuel r.skip
      further key r
    | some .value => further .empty r
    | some .blockEnd => some (es, r.skip)
    | _ => Option.none

def readBlockList : Nat → Reader → Option (List Node × Reader)
  | 0, _ => Option.none
  | fuel + 1, r =>
    match r.peek? with
    | some .entry => do
      let (n, r) ← readUnless true false [.entry, .blockEnd] fuel r.skip
      let (ns, r) ← readBlockList fuel r
      some (n :: ns, r)
    | some .blockEnd => some ([], r.skip)
    | _ => Option.none

def readBareList : Nat → Reader → Option (List Node × Reader)
  | 0, _ => Option.none
  | fuel + 1, r =>
    match r.peek? with
    | some .entry => do
      let (n, r) ← readUnless true false [.entry, .key, .value, .blockEnd] fuel r.skip
      let (ns, r) ← readBareList fuel r
      some (n :: ns, r)
    | _ => some ([], r)

/-- The elements of a list in brackets; an element may be a mapping of one entry. -/
def readFlowList : Nat → Bool → Reader → Option (List Node × Reader)
  | 0, _, _ => Option.none
  | fuel + 1, first, r => do
    let ends : List Token := [.comma, .closeBracket]
    let further (n : Node) (r : Reader) : Option (List Node × Reader) := do
      let (ns, r) ← readFlowList fuel false r
      some (n :: ns, r)
    if r.peek? = some .closeBracket then some ([], r.skip)
    else if !first ∧ r.peek? ≠ some .comma then Option.none
    else
      let r := if first then r else r.skip
      match r.peek? with
      | some .closeBracket => some ([], r.skip)
      | some .key => do
        let r := r.skip
        let (key, r) ← if r.sees (.value :: ends) then some (Node.empty, r.skip)
          else readNode false false fuel r
        let (n, r) ← readValue false ends fuel r
        further (.mapping [(key.keyText, n)]) r
      | _ => do
        let (n, r) ← readNode false false fuel r
        further n r

/-- The entries of a mapping in braces, after those in `es`. -/
def readFlowMapping : Nat → Bool → List (Option String × Node) → Reader →
    Option (List (Option String × Node) × Reader)
  | 0, _, _, _ => Option.none
  | fuel + 1, first, es, r => do
    let ends : List Token := [.comma, .closeBrace]
    let further (key : Node) (r : Reader) : Option (List (Option String × Node) × Reader) := do
      let (n, r) ← readValue false ends fuel r
      readFlowMapping fuel false (Node.put es key.keyText n) r
    if r.peek? = some .closeBrace then some (es, r.skip)
    else if !first ∧ r.peek? ≠ some .comma then Option.none
    else
      let r := if first then r else r.skip
      match r.peek? with
      | some .key => do
        let (key, r) ← readUnless false false (.value :: ends) fuel r.skip
        further key r
      | some .value => further .empty r
      | some .closeBrace => some (es, r.skip)
      | _ => do
        let (key, r) ← readNode false false fuel r
        readFlowMapping fuel false (Node.put es key.keyText .empty) r

end

/-- Directives and the mark that they want behind them, if either is there. -/
def readStart (r : Reader) : Option (Bool × Reader) :=
  let r' := { r with tokens := r.tokens.dropWhile (· = Token.directive) }
  if r'.peek? = some .documentStart then some (true, r'.skip)
  else if r.peek? = some .directive then Option.none
  else some (false, r)

/-- The only document of a text; without any it is an empty mapping. -/
def readDocument (ts : List Token) : Option Node := do
  if ts = [] then some (.mapping [])
  else do
    let (marked, r) ← readStart ⟨ts, .none⟩
    let ends : List Token := [.directive, .documentStart, .documentEnd]
    let (n, r) ← if marked ∧ (r.tokens = [] ∨ r.sees ends) then some (Node.empty, r)
      else readNode true false (4 * ts.length + 4) r
    if r.tokens.dropWhile (· = Token.documentEnd) = [] then some n else Option.none

end Reader

/-- A number that no numeral stands for is not read. -/
def Scalar.datum : Scalar → Except Misreading Datum
  | .null | .unfit => .ok .nothing
  | .boolean b => .ok (.boolean b)
  | .integer n => .ok (.integer n)
  | .text s => .ok (.text s)
  | .real cs =>
    match Floating.read cs with
    | some x => .ok (.floating x)
    | none => .error .malformed

mutual

def Node.item : Node → Except Misreading Item
  | .scalar s => s.datum.map fun d => .value d none
  | .list ns => do
    let _ ← Node.items ns
    .ok (.value .list none)
  | .mapping es => do
    let t ← Node.table [] es
    .ok (.table t)

def Node.items : List Node → Except Misreading (List Item)
  | [] => .ok []
  | n :: ns => do
    let item ← n.item
    let items ← Node.items ns
    .ok (item :: items)

def Node.table (t : Table) : List (Option String × Node) → Except Misreading Table
  | [] => .ok t
  | (key?, n) :: rest =>
    match key? with
    | none => .error .unusableKey
    | some key => do
      let item ← n.item
      Node.table (t.put key item) rest

end

def read (document : String) : Except Misreading Item :=
  match (tokens document).bind Reader.readDocument with
  | some n => n.item
  | none => .error .malformed

end FtpServer.Settings.Yaml
