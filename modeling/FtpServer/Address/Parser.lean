import FtpServer.Address
import FtpServer.Text.Digit

/-!
# Reading addresses

Each reader takes its text from the front of the input and returns what follows; `Ip.parse?` and
its companions want the whole input.  Octets have no superfluous zeros; groups have at most four
digits; `::` stands for at least one group.
-/

namespace FtpServer

namespace AddressReader

open Text

abbrev Input := List Char

/-- The digits at the front, their values and the rest. -/
def digits (radix : Nat) : Input → List Nat × Input
  | [] => ([], [])
  | c :: rest =>
    match digitIn radix c with
    | some d => let (ds, after) := digits radix rest; (d :: ds, after)
    | none => ([], c :: rest)

/-- A number of at most `most` digits and below `bound`. -/
def number (radix most bound : Nat) (leadingZeros : Bool) (input : Input) : Option (Nat × Input) :=
  let (ds, rest) := digits radix input
  let value := ds.foldl (fun n d => n * radix + d) 0
  if ds = [] ∨ most < ds.length ∨ bound ≤ value then none
  else if !leadingZeros && ds.head? = some 0 && 1 < ds.length then none
  else some (value, rest)

def char (c : Char) : Input → Option Input
  | d :: rest => if c = d then some rest else none
  | [] => none

def octet (input : Input) : Option (UInt8 × Input) := do
  let (n, rest) ← number 10 3 256 false input
  return (UInt8.ofNat n, rest)

def ipv4 (input : Input) : Option (Ipv4 × Input) := do
  let (a, rest) ← octet input
  let rest ← char '.' rest
  let (b, rest) ← octet rest
  let rest ← char '.' rest
  let (c, rest) ← octet rest
  let rest ← char '.' rest
  let (d, rest) ← octet rest
  return (⟨a, b, c, d⟩, rest)

/-- `input` behind the colon that separates it from groups before it. -/
def separated (first : Bool) (input : Input) : Option Input :=
  if first then some input else char ':' input

def pair (hi lo : UInt8) : UInt16 := hi.toUInt16 * 256 + lo.toUInt16

/-- At most `room` groups, the last two perhaps as an IPv4 address, which is reported. -/
def groups (first : Bool) : Nat → Input → List UInt16 × Bool × Input
  | 0, input => ([], false, input)
  | room + 1, input =>
    let embedded := if room = 0 then none else (separated first input).bind ipv4
    match embedded with
    | some (ip, rest) => ([pair ip.a ip.b, pair ip.c ip.d], true, rest)
    | none =>
      match (separated first input).bind (number 16 4 65536 true) with
      | some (g, rest) =>
        let (gs, dotted, after) := groups false room rest
        (UInt16.ofNat g :: gs, dotted, after)
      | none => ([], false, input)

def ipv6 (input : Input) : Option (Ipv6 × Input) := do
  let (front, embedded, rest) := groups true 8 input
  if front.length = 8 then return (⟨front⟩, rest)
  if embedded then none
  let rest ← char ':' rest
  let rest ← char ':' rest
  let (back, _, rest) := groups true (7 - front.length) rest
  return (⟨front ++ List.replicate (8 - front.length - back.length) 0 ++ back⟩, rest)

def port (input : Input) : Option (UInt16 × Input) := do
  let rest ← char ':' input
  let (n, rest) ← number 10 rest.length 65536 true rest
  return (UInt16.ofNat n, rest)

def socketV4 (input : Input) : Option (SocketV4 × Input) := do
  let (ip, rest) ← ipv4 input
  let (p, rest) ← port rest
  return (⟨ip, p⟩, rest)

def zone (input : Input) : Option (UInt32 × Input) := do
  let rest ← char '%' input
  let (n, rest) ← number 10 rest.length 4294967296 true rest
  return (UInt32.ofNat n, rest)

def socketV6 (input : Input) : Option (Socket × Input) := do
  let rest ← char '[' input
  let (ip, rest) ← ipv6 rest
  let (scope, rest) := (zone rest).getD (0, rest)
  let rest ← char ']' rest
  let (p, rest) ← port rest
  return (⟨.v6 ip, p, scope⟩, rest)

def whole {α : Type} (text : String) (reader : Input → Option (α × Input)) : Option α :=
  match reader text.toList with
  | some (a, []) => some a
  | _ => none

end AddressReader

open AddressReader

def Ip.parse? (text : String) : Option Ip :=
  (whole text ipv4).map Ip.v4 <|> (whole text ipv6).map Ip.v6

def SocketV4.parse? (text : String) : Option SocketV4 := whole text socketV4

def Socket.parse? (text : String) : Option Socket :=
  (whole text socketV4).map SocketV4.toSocket <|> whole text socketV6

end FtpServer
