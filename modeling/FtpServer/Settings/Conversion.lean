import FtpServer.Floating
import FtpServer.Settings
import FtpServer.Settings.Item
import FtpServer.Text.Lowercase
import FtpServer.Text.Quoted

/-!
# Settings from a table

A setting takes any value that has a plain reading as its type: numbers and truth values as text,
text and truth values as numbers, text and numbers as truth values.  Names that are no setting are
passed over, and a setting that is not named keeps its value.
-/

namespace FtpServer.Settings

open Text

inductive Expected
  | string
  | integer
  | unsigned
  | boolean
  deriving DecidableEq, Repr

def Expected.text : Expected → String
  | string => "a string"
  | integer => "an integer"
  | unsigned => "an unsigned 64 bit or less integer"
  | boolean => "a boolean"

inductive LoadFault
  | unreadable (file : String) (why : Misreading)
  | wrongType (found : Item) (expected : Expected) (key : String)
  | notATable (found : Item)
  | refused (fault : Fault)

def booleanText (b : Bool) : String := if b then "true" else "false"

def toText (key : String) : Item → Except LoadFault String
  | .value (.text s) _ => .ok s
  | .value (.boolean b) _ => .ok (booleanText b)
  | .value (.integer n) _ => .ok (ofInt n)
  | .value (.floating x) _ => .ok (Floating.text x)
  | item => .error (.wrongType item .string key)

def truthOf? (word : String) : Option Bool :=
  if word = "true" ∨ word = "on" ∨ word = "yes" then some true
  else if word = "false" ∨ word = "off" ∨ word = "no" then some false
  else none

/-- Text that does not fit is reported in small letters. -/
def toBoolean (key : String) : Item → Except LoadFault Bool
  | .value (.boolean b) _ => .ok b
  | .value (.integer n) _ => .ok (n ≠ 0)
  | .value (.floating x) _ => .ok (x != 0.0)
  | .value (.text s) origin =>
    let word := lower s
    let digit? := if word = "1" then some true else if word = "0" then some false else none
    match digit?.or (truthOf? word) with
    | some b => .ok b
    | none => .error (.wrongType (.value (.text word) origin) .boolean key)
  | item => .error (.wrongType item .boolean key)

def wordOfBool (b : Bool) : UInt64 := if b then 1 else 0

def toWord (key : String) : Item → Except LoadFault UInt64
  | .value (.integer n) origin =>
    if n < 0 then .error (.wrongType (.value (.integer n) origin) .unsigned key)
    else .ok (UInt64.ofNat n.toNat)
  | .value (.floating x) _ => .ok (Floating.toWord x)
  | .value (.boolean b) _ => .ok (wordOfBool b)
  | .value (.text s) origin =>
    let n? := (readUnsigned s.toList).filter (· < UInt64.size)
    match (truthOf? (lower s)).map wordOfBool |>.or (n?.map UInt64.ofNat) with
    | some n => .ok n
    | none => .error (.wrongType (.value (.text s) origin) .integer key)
  | item => .error (.wrongType item .integer key)

def toPort (key : String) (item : Item) : Except LoadFault UInt16 :=
  (toWord key item).map (·.toUInt16)

def entryKey (key name : String) : String :=
  if name = "" ∨ name.toList.head? = some '[' then key ++ name else key ++ "." ++ name

def toTexts (key : String) : Item → Except LoadFault (List (String × String))
  | .table es =>
    es.mapM fun (name, item) => do
      let s ← toText (entryKey key name) item
      .ok (name, s)
  | item => .error (.notATable item)

variable {α : Type}

def valueAt (t : Table) (key : String) (unsaid : α) (convert : String → Item → Except LoadFault α) :
    Except LoadFault α :=
  match t.find? key with
  | none => .ok unsaid
  | some item => convert key item

def ofTable (t : Table) : Except LoadFault Settings := do
  let unsaid : Settings := {}
  let bindAddress ← valueAt t "bind_address" unsaid.bindAddress toText
  let controlPort ← valueAt t "control_port" unsaid.controlPort toPort
  let serverRoot ← valueAt t "server_root" unsaid.serverRoot toText
  let bufferSize ← valueAt t "buffer_size" unsaid.bufferSize toWord
  let connectionTimeoutSecs ←
    valueAt t "connection_timeout_secs" unsaid.connectionTimeoutSecs toWord
  let maxCommandLength ← valueAt t "max_command_length" unsaid.maxCommandLength toWord
  let maxUsernameLength ← valueAt t "max_username_length" unsaid.maxUsernameLength toWord
  let maxPasswordLength ← valueAt t "max_password_length" unsaid.maxPasswordLength toWord
  let authFailureDelayMs ← valueAt t "auth_failure_delay_ms" unsaid.authFailureDelayMs toWord
  let allowAnonymous ← valueAt t "allow_anonymous" unsaid.allowAnonymous toBoolean
  let users ← valueAt t "users" unsaid.users toTexts
  let greeting ← valueAt t "greeting" unsaid.greeting toText
  return { bindAddress, controlPort, serverRoot, bufferSize, connectionTimeoutSecs,
           maxCommandLength, maxUsernameLength, maxPasswordLength, authFailureDelayMs,
           allowAnonymous, users, greeting }

def describeFound : Item → String
  | .value .nothing _ => "unit value"
  | .value (.boolean b) _ => "boolean `" ++ booleanText b ++ "`"
  | .value (.integer n) _ => "integer 64 bit `" ++ ofInt n ++ "`"
  | .value (.floating x) _ => "floating point `" ++ Floating.text x ++ "`"
  | .value (.text s) _ => "string " ++ quoted s
  | .value .list _ => "sequence"
  | .table _ => "map"

/-- A value where a table was expected; finite numbers with a point show one. -/
def describeNoTable : Item → String
  | .value (.integer n) _ => "integer `" ++ ofInt n ++ "`"
  | .value (.floating x) _ =>
    let s := Floating.text x
    let whole := x.isFinite && !s.toList.contains '.'
    "floating point `" ++ s ++ (if whole then ".0" else "") ++ "`"
  | item => describeFound item

def Item.origin? : Item → Option String
  | .value _ origin => origin
  | .table _ => none

def LoadFault.message : LoadFault → String
  | unreadable file .malformed => "syntax error in " ++ file
  | unreadable file .unusableKey => "unusable key in " ++ file
  | wrongType found expected key =>
    let source := (found.origin?.map (" in " ++ ·)).getD ""
    "invalid type: " ++ describeFound found ++ ", expected " ++ expected.text ++ " for key `" ++ key
      ++ "`" ++ source
  | notATable found => "invalid type: " ++ describeNoTable found ++ ", expected a map"
  | refused fault => fault.message

end FtpServer.Settings
