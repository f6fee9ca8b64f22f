import FtpServer.Address
import FtpServer.Text.Blank
import FtpServer.Text.Split

/-!
# Data addresses as six octets

`PORT` takes and a passive reply announces an address as `h1,h2,h3,h4,p1,p2`.  Writing has one
form; reading allows blanks around a part, one plus sign and leading zeros.
-/

namespace FtpServer.HostPort

open Text

def encodeChars (s : SocketV4) : List Char :=
  join ',' ([s.ip.a.toNat, s.ip.b.toNat, s.ip.c.toNat, s.ip.d.toNat,
    s.port.toNat / 256, s.port.toNat % 256].map digits)

def encode (s : SocketV4) : String := String.ofList (encodeChars s)

def octet? (part : List Char) : Option Nat :=
  (readUnsigned (trim part)).filter (· < 256)

def octets? (text : List Char) : Option (List Nat) :=
  (split ',' text).mapM octet?

def decode? (text : String) : Option SocketV4 :=
  match octets? text.toList with
  | some [a, b, c, d, hi, lo] =>
    some ⟨⟨UInt8.ofNat a, UInt8.ofNat b, UInt8.ofNat c, UInt8.ofNat d⟩, UInt16.ofNat (hi * 256 + lo)⟩
  | _ => none

end FtpServer.HostPort
