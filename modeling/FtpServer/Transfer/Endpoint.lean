import FtpServer.Failure

/-!
# Where data connections come from

After `PORT` the server connects to the client; after `PASV` it waits on a listener of its own, and
only the peer of the control connection may come.
-/

namespace FtpServer

inductive Endpoint
  /-- Waits on `port`; only `owner` may connect. -/
  | passive (port : UInt16) (owner : Ip)
  /-- Connects to an address the client gave. -/
  | active (address : SocketV4)
  deriving DecidableEq, Repr

namespace Endpoint

/-- The address that a passive listener opens on. -/
def listenAddress (control : Socket) : Except TransferError Ipv4 :=
  match control.ip.canonical with
  | .v4 ip => .ok ip
  | .v6 _ => .error (.unsupportedAddress control)

def owner (client : Socket) : Ip := client.ip.canonical

/-- Two addresses of one host, also where one is wrapped. -/
def sameHost (a b : Ip) : Bool := a.canonical = b.canonical

end Endpoint

end FtpServer
