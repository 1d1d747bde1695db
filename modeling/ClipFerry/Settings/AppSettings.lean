import ClipFerry.Server.Session

namespace ClipFerry.Settings

open Protocol Server

inductive IpAddr where
  | v4 (octets : List.Vector UInt8 4)
  | v6 (octets : List.Vector UInt8 16)
deriving DecidableEq

namespace IpAddr

def isLoopback : IpAddr → Bool
  | v4 octets => octets.get 0 = 127
  | v6 octets => octets.val = List.replicate 15 0 ++ [1]

def isPrivate (octets : List.Vector UInt8 4) : Bool :=
  octets.get 0 = 10 || (octets.get 0 = 172 && (16 ≤ octets.get 1 && octets.get 1 ≤ 31)) ||
    (octets.get 0 = 192 && octets.get 1 = 168)

def isUniqueLocal (octets : List.Vector UInt8 16) : Bool := octets.get 0 &&& 0xfe = 0xfc

end IpAddr

-- The flow label of a v6 address is left out: no text or frame of the source carries it.
inductive SocketAddr where
  | v4 (ip : List.Vector UInt8 4) (port : UInt16)
  | v6 (ip : List.Vector UInt8 16) (port : UInt16) (scopeId : UInt32)
deriving DecidableEq

namespace SocketAddr

def new : IpAddr → UInt16 → SocketAddr
  | .v4 octets, port => v4 octets port
  | .v6 octets, port => v6 octets port 0

def ip : SocketAddr → IpAddr
  | v4 octets _ => .v4 octets
  | v6 octets _ _ => .v6 octets

def port : SocketAddr → UInt16
  | v4 _ port | v6 _ port _ => port

end SocketAddr

structure AppSettings where
  localEndpoint : SocketAddr
  activePeer : CertificateFingerprint
  peerEndpoint : SocketAddr
  autoReceive : Bool
deriving DecidableEq

def endpointAllowed : IpAddr → Bool
  | .v4 octets => (IpAddr.v4 octets).isLoopback || IpAddr.isPrivate octets
  | .v6 octets => (IpAddr.v6 octets).isLoopback || IpAddr.isUniqueLocal octets

def validatePrivateEndpoint (endpoint : SocketAddr) : Except IoError Unit :=
  if endpoint.port = 0 then .error (invalidData "endpoint port must not be zero")
  else if endpointAllowed endpoint.ip = false then
    .error (invalidData "endpoint must use a loopback or private unicast address")
  else .ok ()

end ClipFerry.Settings
