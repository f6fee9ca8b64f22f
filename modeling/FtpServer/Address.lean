import FtpServer.Text.Decimal

/-!
# Internet addresses

IPv4 and IPv6 addresses and the socket addresses made of them, in their usual written forms.  An
IPv4 address may come wrapped in an IPv6 one; `Ip.canonical` takes it out.
-/

namespace FtpServer

structure Ipv4 where
  a : UInt8
  b : UInt8
  c : UInt8
  d : UInt8
  deriving DecidableEq, Repr

structure Ipv6 where
  groups : List UInt16
  deriving DecidableEq, Repr

inductive Ip
  | v4 (ip : Ipv4)
  | v6 (ip : Ipv6)
  deriving DecidableEq, Repr

structure SocketV4 where
  ip : Ipv4
  port : UInt16
  deriving DecidableEq, Repr

/-- An address with a port; `scope` is the zone of an IPv6 address and otherwise zero. -/
structure Socket where
  ip : Ip
  port : UInt16
  scope : UInt32
  deriving DecidableEq, Repr

open Text

namespace Ipv4

def text (ip : Ipv4) : String :=
  ofNat ip.a.toNat ++ "." ++ ofNat ip.b.toNat ++ "." ++ ofNat ip.c.toNat ++ "." ++ ofNat ip.d.toNat

def loopback : Ipv4 := ⟨127, 0, 0, 1⟩

def unspecified : Ipv4 := ⟨0, 0, 0, 0⟩

end Ipv4

namespace Ipv6

def unspecified : Ipv6 := ⟨[0, 0, 0, 0, 0, 0, 0, 0]⟩

def loopback : Ipv6 := ⟨[0, 0, 0, 0, 0, 0, 0, 1]⟩

end Ipv6

def hexDigits (n : Nat) : String := String.ofList (Nat.toDigits 16 n)

namespace Ipv6

/-- Length of the run of zero groups at the head. -/
def zeros (groups : List UInt16) : Nat :=
  (groups.takeWhile (· == 0)).length

/-- Start and length of the longest run of zero groups; of equal ones the first. -/
def longestRun : Nat → List UInt16 → Nat × Nat
  | _, [] => (0, 0)
  | i, g :: rest =>
    let here := zeros (g :: rest)
    let later := longestRun (i + 1) rest
    if later.2 ≤ here then (i, here) else later

def groupsText (groups : List UInt16) : String :=
  ":".intercalate (groups.map fun g => hexDigits g.toNat)

/-- The IPv4 address that the last two groups of a wrapped one hold. -/
def mapped? (ip : Ipv6) : Option Ipv4 :=
  match ip.groups with
  | [0, 0, 0, 0, 0, 0xFFFF, g, h] =>
    some ⟨(g >>> 8).toUInt8, g.toUInt8, (h >>> 8).toUInt8, h.toUInt8⟩
  | _ => none

/-- A run of two or more zero groups is left out, and a wrapped IPv4 address keeps its dots. -/
def text (ip : Ipv6) : String :=
  match ip.mapped? with
  | some inner => "::ffff:" ++ inner.text
  | none =>
    let (start, length) := longestRun 0 ip.groups
    if 1 < length then
      groupsText (ip.groups.take start) ++ "::" ++ groupsText (ip.groups.drop (start + length))
    else groupsText ip.groups

end Ipv6

namespace Ip

def text : Ip → String
  | .v4 ip => ip.text
  | .v6 ip => ip.text

/-- A wrapped IPv4 address is taken out; every other one stays. -/
def canonical : Ip → Ip
  | .v6 ip => match ip.mapped? with
    | some inner => .v4 inner
    | none => .v6 ip
  | .v4 ip => .v4 ip

end Ip

def SocketV4.text (s : SocketV4) : String := s.ip.text ++ ":" ++ ofNat s.port.toNat

def SocketV4.toSocket (s : SocketV4) : Socket := ⟨.v4 s.ip, s.port, 0⟩

def Socket.text (s : Socket) : String :=
  match s.ip with
  | .v4 ip => ip.text ++ ":" ++ ofNat s.port.toNat
  | .v6 ip =>
    let zone := if s.scope = 0 then "" else "%" ++ ofNat s.scope.toNat
    "[" ++ ip.text ++ zone ++ "]:" ++ ofNat s.port.toNat

end FtpServer
