import ClipFerry.Device.Crew
import ClipFerry.Device.DeviceStore
import ClipFerry.Foundation.Transition

namespace ClipFerry.Device

open Foundation Protocol Server Transition VirtualTree

/-! The steps of `trust_peer` and `revoke_peer`; a `list_peers` is one look at the directory. -/

inductive TrustPhase where
  | idle
  | trusting (certificate : List UInt8) (expected : CertificateFingerprint) (label : Text)
  | listing (peer : TrustedPeer)
  | publishing (peer : TrustedPeer) (record : List UInt8) (publish : PublishPhase)
  | checking (peer : TrustedPeer)
  | undoing (peer : TrustedPeer) (error : IoError)
  | trusted (result : Except IoError TrustedPeer)
  | revoking (fingerprint : CertificateFingerprint)
  | revoked (result : Except IoError Unit)

inductive TrustCallStep (digest : List UInt8 → Secret) :
    Directory → TrustPhase → Directory → TrustPhase → Prop
  | notAdmitted {directory : Directory} {certificate : List UInt8}
      {expected : CertificateFingerprint} {label : Text} (error : IoError) :
      TrustCallStep digest directory (.trusting certificate expected label) directory
        (.trusted (.error error))
  | admitted {directory : Directory} {certificate : List UInt8}
      {expected : CertificateFingerprint} {label : Text} {identity : Except IoError TlsIdentity}
      {peer : TrustedPeer}
      (h : checkPeer digest identity certificate expected label = .ok peer) :
      TrustCallStep digest directory (.trusting certificate expected label) directory
        (.listing peer)
  | notListed {directory : Directory} {peer : TrustedPeer} (error : IoError) :
      TrustCallStep digest directory (.listing peer) directory (.trusted (.error error))
  | full {directory : Directory} {peer : TrustedPeer} {peers : List TrustedPeer}
      {readDir : Directory → List Text} (hreadDir : Lists readDir)
      (hlist : listPeers digest readDir (some directory) = .ok peers)
      (hfull : trustedPeerLimit ≤ peers.length) :
      TrustCallStep digest directory (.listing peer) directory (.trusted (.error registryFull))
  | listed {directory : Directory} {peer : TrustedPeer} {peers : List TrustedPeer}
      {record : List UInt8} {readDir : Directory → List Text} (hreadDir : Lists readDir)
      (hlist : listPeers digest readDir (some directory) = .ok peers)
      (hroom : peers.length < trustedPeerLimit)
      (hrecord : encodeTrustRecord peer = .ok record) :
      TrustCallStep digest directory (.listing peer) directory
        (.publishing peer record (.drawing 0))
  | publishes {directory directory' : Directory} {peer : TrustedPeer} {record : List UInt8}
      {publish publish' : PublishPhase}
      (h : PublishStep (peerFile peer.fingerprint) record directory publish directory' publish') :
      TrustCallStep digest directory (.publishing peer record publish) directory'
        (.publishing peer record publish')
  | notPublished {directory : Directory} {peer : TrustedPeer} {record : List UInt8}
      {error : IoError} :
      TrustCallStep digest directory (.publishing peer record (.finished (.error error))) directory
        (.trusted (.error error))
  | published {directory : Directory} {peer : TrustedPeer} {record : List UInt8} :
      TrustCallStep digest directory (.publishing peer record (.finished (.ok ()))) directory
        (.checking peer)
  | accepted {directory : Directory} {peer : TrustedPeer} {peers : List TrustedPeer}
      {readDir : Directory → List Text} (hreadDir : Lists readDir)
      (hlist : listPeers digest readDir (some directory) = .ok peers) :
      TrustCallStep digest directory (.checking peer) directory (.trusted (.ok peer))
  | rejected {directory : Directory} {peer : TrustedPeer} (error : IoError) :
      TrustCallStep digest directory (.checking peer) directory (.undoing peer error)
  | undone {directory : Directory} {peer : TrustedPeer} {error : IoError} :
      TrustCallStep digest directory (.undoing peer error)
        (directory.remove (peerFile peer.fingerprint)) (.trusted (.error error))
  | revokes {directory : Directory} {fingerprint : CertificateFingerprint}
      (hfound : directory.find (peerFile fingerprint) ≠ none) :
      TrustCallStep digest directory (.revoking fingerprint)
        (directory.remove (peerFile fingerprint)) (.revoked (.ok ()))
  | notRevoked {directory : Directory} {fingerprint : CertificateFingerprint} (error : IoError) :
      TrustCallStep digest directory (.revoking fingerprint) directory (.revoked (.error error))

structure TrustWorld where
  directory : Directory
  calls : Nat → TrustPhase

inductive TrustStep (digest : List UInt8 → Secret) : TrustWorld → Nat → TrustWorld → Prop
  | mk {world : TrustWorld} {k : Nat} {directory : Directory} {phase phase' : TrustPhase}
      (hphase : world.calls k = phase)
      (h : TrustCallStep digest world.directory phase directory phase') :
      TrustStep digest world k ⟨directory, Function.update world.calls k phase'⟩

def recordNames (directory : Directory) : List Text :=
  directory.names.keys.filter fun name => extension name = some peerExtension

namespace TrustPhase

def Begins : TrustPhase → Prop
  | idle | trusting _ _ _ | revoking _ => True
  | _ => False

def Returned : TrustPhase → Prop
  | idle | trusted _ | revoked _ => True
  | _ => False

def publication : TrustPhase → List UInt8 × PublishPhase
  | publishing _ record publish => (record, publish)
  | _ => ([], .drawing 0)

def pending : TrustPhase → Option TrustedPeer
  | publishing peer _ (.removing _ _ (.ok _)) | publishing peer _ (.finished (.ok _))
  | checking peer | undoing peer _ => some peer
  | _ => none

def holds : TrustPhase → Option TrustedPeer
  | trusted (.ok peer) => some peer
  | phase => phase.pending

end TrustPhase

structure TrustStart (world : TrustWorld) : Prop where
  calls : ∀ k, (world.calls k).Begins
  bounded : (recordNames world.directory).length ≤ trustedPeerLimit

end ClipFerry.Device
