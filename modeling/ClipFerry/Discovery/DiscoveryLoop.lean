import ClipFerry.Discovery.Packet
import ClipFerry.Foundation.Table
import ClipFerry.Foundation.Transition

namespace ClipFerry.Discovery

open Foundation Protocol Server Settings VirtualTree

def peerTtl : Nat := 12 * 10 ^ 9

structure DiscoveredPeer where
  fingerprint : CertificateFingerprint
  label : Text
  serviceEndpoint : SocketAddr
  pairingEndpoint : SocketAddr
deriving DecidableEq

structure SeenPeer where
  peer : DiscoveredPeer
  lastSeen : Nat

abbrev KnownPeers : Type := Table CertificateFingerprint SeenPeer

def isPrivateOrLoopback (address : IpAddr) : Bool := endpointAllowed address

namespace KnownPeers

def live (known : KnownPeers) (now : Nat) : KnownPeers :=
  known.retain fun _ seen => now - seen.lastSeen ≤ peerTtl

def peerLe (left right : DiscoveredPeer) : Bool :=
  if asBytes left.label = asBytes right.label then
    asBytes (Device.CertificateFingerprint.display left.fingerprint) ≤
      asBytes (Device.CertificateFingerprint.display right.fingerprint)
  else asBytes left.label ≤ asBytes right.label

def peers (known : KnownPeers) (now : Nat) : List DiscoveredPeer :=
  ((known.live now).values.map (·.peer)).mergeSort peerLe

def peer (known : KnownPeers) (now : Nat) (fingerprint : CertificateFingerprint) :
    Option DiscoveredPeer :=
  (known.peers now).find? (·.fingerprint = fingerprint)

end KnownPeers

/-! What `discovery_loop` works on, and one turn of its `recv_from`. An error of `start` is one of
its two `expect` calls. -/

structure DiscoveryWorker where
  fingerprint : CertificateFingerprint
  announcement : List UInt8
  response : List UInt8
  known : KnownPeers

namespace DiscoveryWorker

def start (fingerprint : CertificateFingerprint) (label : Text) : Except IoError DiscoveryWorker := do
  let announcement ← (Packet.new Discovery.announcement fingerprint label).encode
  let response ← (Packet.new Discovery.response fingerprint label).encode
  .ok ⟨fingerprint, announcement, response, ∅⟩

structure Handled where
  worker : DiscoveryWorker
  reconciled : Option DiscoveredPeer
  reply : Option (List UInt8)

def discoveredPeer (packet : Packet) (source : SocketAddr) : DiscoveredPeer where
  fingerprint := packet.fingerprint
  label := packet.label
  serviceEndpoint := .new source.ip packet.servicePort
  pairingEndpoint := .new source.ip packet.pairingPort

def receive (worker : DiscoveryWorker) (now : Nat) (datagram : List UInt8) (source : SocketAddr) :
    Handled :=
  -- a datagram longer than the buffer is an error of recv_from
  if packetLimit + 1 < datagram.length then ⟨worker, none, none⟩ else
  match Packet.decode datagram with
  | .error _ => ⟨worker, none, none⟩
  | .ok packet =>
    if packet.fingerprint = worker.fingerprint ∨ isPrivateOrLoopback source.ip = false then
      ⟨worker, none, none⟩
    else
      let discovered := discoveredPeer packet source
      { worker :=
          { worker with known := worker.known.insert discovered.fingerprint ⟨discovered, now⟩ }
        reconciled := some discovered
        reply := if packet.kind = Discovery.announcement then some worker.response else none }

end DiscoveryWorker

/-! Devices on one network. It may lose, repeat and delay what they send, and anyone may send them
any datagram under any address. -/

structure DiscoveryWorld where
  devices : Nat → DiscoveryWorker
  sent : List (Nat × List UInt8)

inductive DiscoveryStep : DiscoveryWorld → Nat → DiscoveryWorld → Prop
  | announce {world : DiscoveryWorld} (k : Nat) :
      DiscoveryStep world k
        { world with sent := world.sent ++ [(k, (world.devices k).announcement)] }
  | receive {world : DiscoveryWorld} {handled : DiscoveryWorker.Handled} (k now : Nat)
      (datagram : List UInt8) (source : SocketAddr)
      (h : (world.devices k).receive now datagram source = handled) :
      DiscoveryStep world k
        { devices := Function.update world.devices k handled.worker
          sent := world.sent ++ (handled.reply.map (k, ·)).toList }
  | view {world : DiscoveryWorld} (k now : Nat) :
      DiscoveryStep world k { world with
        devices := Function.update world.devices k
          { world.devices k with known := (world.devices k).known.live now } }

structure DiscoveryStart (fingerprints : Nat → CertificateFingerprint) (labels : Nat → Text)
    (world : DiscoveryWorld) : Prop where
  devices : ∀ k, DiscoveryWorker.start (fingerprints k) (labels k) = .ok (world.devices k)
  sent : world.sent = []

end ClipFerry.Discovery
