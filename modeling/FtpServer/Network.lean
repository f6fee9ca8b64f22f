import FtpServer.Address.Lookup
import FtpServer.Host
import Std.Async

/-!
# The network of the host

Listeners and connections between the server's addresses and those of the host.
-/

namespace FtpServer.Network

abbrev Listener := Std.Async.TCP.Socket.Server

abbrev Link := Std.Async.TCP.Socket.Client

def backlog : UInt32 := 128

def hostV4 (ip : Ipv4) : Std.Net.IPv4Addr := .ofParts ip.a ip.b ip.c ip.d

def hostV6 (ip : Ipv6) : Std.Net.IPv6Addr := ⟨Vector.ofFn fun i => ip.groups.getD i 0⟩

def hostAddress (ip : Ip) (port : UInt16) : Std.Net.SocketAddress :=
  match ip with
  | .v4 ip => .v4 ⟨hostV4 ip, port⟩
  | .v6 ip => .v6 ⟨hostV6 ip, port⟩

def ofHostV4 (ip : Std.Net.IPv4Addr) : Ipv4 :=
  ⟨ip.octets[0], ip.octets[1], ip.octets[2], ip.octets[3]⟩

def ofHost : Std.Net.SocketAddress → Socket
  | .v4 a => ⟨.v4 (ofHostV4 a.addr), a.port, 0⟩
  | .v6 a => ⟨.v6 ⟨a.addr.segments.toList⟩, a.port, 0⟩

def listen (ip : Ip) (port : UInt16) : IO Listener := do
  let listener ← Std.Async.TCP.Socket.Server.mk
  listener.bind (hostAddress ip port)
  listener.listen backlog
  return listener

/-- The address of a host that is given as an address or by its name. -/
def lookUp (host : String) : IO Ip := do
  match Ip.ofHost? host with
  | some ip => return ip
  | none =>
    let found : Array Std.Net.IPAddr ← (Std.Async.DNS.getAddrInfo host "").block
    match (found[0]? : Option Std.Net.IPAddr) with
    | some (.v4 ip) => return .v4 (ofHostV4 ip)
    | some (.v6 ip) => return .v6 ⟨ip.segments.toList⟩
    | none => throw (.userError "failed to lookup address information: Name or service not known")

end FtpServer.Network
