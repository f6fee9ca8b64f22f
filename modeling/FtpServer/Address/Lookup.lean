import FtpServer.Address.Parser
import FtpServer.Text.Split

/-!
# Addresses that stand for a host

A host is given by a name or by an address.  Besides the usual forms an IPv4 address may be written
with fewer numbers, the last of which fills the room of those left out, and its numbers may be
octal or hexadecimal; an IPv6 address may stand in brackets.
-/

namespace FtpServer

open Text

namespace AddressReader

/-- A number as it is written in programs: `0x` makes it hexadecimal, another zero in front octal. -/
def marked? (cs : List Char) : Option Nat :=
  let (radix, written) :=
    match cs with
    | '0' :: 'x' :: ds | '0' :: 'X' :: ds => (16, ds)
    | '0' :: ds => (8, '0' :: ds)
    | ds => (10, ds)
  match number radix written.length 4294967296 true written with
  | some (n, []) => some n
  | _ => none

def ipv4OfNat (n : Nat) : Ipv4 :=
  ⟨UInt8.ofNat (n / 0x1000000), UInt8.ofNat (n / 0x10000), UInt8.ofNat (n / 0x100), UInt8.ofNat n⟩

/-- How many addresses share all but their last `room` octets. -/
def blockSize : Nat → Nat
  | 0 => 1
  | room + 1 => 256 * blockSize room

/-- The number of an address of which `room` octets are still to come. -/
def shortened? : Nat → List Nat → Option Nat
  | _, [] => none
  | 0, _ => none
  | room + 1, [n] => if n < blockSize (room + 1) then some n else none
  | room + 1, n :: more =>
    if n < 256 then (shortened? room more).map (n * blockSize room + ·) else none

end AddressReader

open AddressReader

def Ipv4.ofShort? (text : String) : Option Ipv4 := do
  let numbers ← (split '.' text.toList).mapM marked?
  let n ← shortened? 4 numbers
  return ipv4OfNat n

/-- The address of a host that no network has to be asked for. -/
def Ip.ofHost? (host : String) : Option Ip :=
  ((Socket.parse? (host ++ ":0")).map Socket.ip)
    <|> Ip.parse? host
    <|> (Ipv4.ofShort? host).map Ip.v4
    <|> if host = "localhost" then some (.v4 .loopback) else none

example : Ipv4.ofShort? "127.1" = some .loopback := by cbv
example : Ipv4.ofShort? "0x7f.0.01" = some .loopback := by cbv
example : Ipv4.ofShort? "127.0.0.256" = none := by cbv

end FtpServer
