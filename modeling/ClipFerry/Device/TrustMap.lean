import ClipFerry.Device.DeviceStore

namespace ClipFerry.Device

open Checked Foundation Protocol Server VirtualTree

/-! What the trust registry is for: certificates and labels by the certificates' fingerprints. -/

structure ValidLabel (label : Text) : Prop where
  trimmed : trim label = label
  nonempty : label ≠ []
  short : (asBytes label).length ≤ labelByteLimit
  printable : label.any isControl = false

instance (label : Text) : Decidable (ValidLabel label) :=
  decidable_of_iff (trim label = label ∧ label ≠ [] ∧ (asBytes label).length ≤ labelByteLimit ∧
    label.any isControl = false) ⟨fun ⟨h, h', h'', h'''⟩ => ⟨h, h', h'', h'''⟩,
    fun h => ⟨h.trimmed, h.nonempty, h.short, h.printable⟩⟩

structure Trustable (own : Option CertificateFingerprint) (fingerprint : CertificateFingerprint)
    (certificate : List UInt8) (label : Text) : Prop where
  identity : own ≠ none
  other : own ≠ some fingerprint
  nonempty : certificate.length ≠ 0
  short : certificate.length ≤ certificateLimit
  label : ValidLabel label

instance (own : Option CertificateFingerprint) (fingerprint : CertificateFingerprint)
    (certificate : List UInt8) (label : Text) :
    Decidable (Trustable own fingerprint certificate label) :=
  decidable_of_iff (own ≠ none ∧ own ≠ some fingerprint ∧ certificate.length ≠ 0 ∧
    certificate.length ≤ certificateLimit ∧ ValidLabel label)
    ⟨fun ⟨h, h', h'', h''', h''''⟩ => ⟨h, h', h'', h''', h''''⟩,
      fun h => ⟨h.identity, h.other, h.nonempty, h.short, h.label⟩⟩

structure TrustMap (digest : List UInt8 → Secret) (own : Option CertificateFingerprint) where
  entries : Table CertificateFingerprint (List UInt8 × Text)
  keyed : ∀ {fingerprint value}, entries.get fingerprint = some value →
    fingerprint = ⟨digest value.1⟩ ∧ Trustable own fingerprint value.1 value.2
  bounded : entries.len ≤ trustedPeerLimit

inductive StoreOp where
  | trust (certificate : List UInt8) (expected : CertificateFingerprint) (label : Text)
  | revoke (fingerprint : CertificateFingerprint)
  | load (fingerprint : CertificateFingerprint)
  | list

inductive StoreResult where
  | peer (peer : Option TrustedPeer)
  | unit (result : Option Unit)
  | peers (peers : Option (List TrustedPeer))

variable {digest : List UInt8 → Secret} {own : Option CertificateFingerprint}

namespace TrustMap

def empty : TrustMap digest own := ⟨∅, nofun, Nat.zero_le _⟩

def insert (map : TrustMap digest own) (certificate : List UInt8) (label : Text)
    (h : Trustable own ⟨digest certificate⟩ certificate label)
    (hroom : map.entries.len < trustedPeerLimit) : TrustMap digest own where
  entries := map.entries.insert ⟨digest certificate⟩ (certificate, label)
  keyed := fun {fingerprint value} hget => by
    rw [Table.get_insert] at hget
    split at hget
    · next hkey =>
      cases hget
      subst hkey
      exact ⟨rfl, h⟩
    · exact map.keyed hget
  bounded := Table.len_insert_le.trans hroom

def erase (map : TrustMap digest own) (fingerprint : CertificateFingerprint) :
    TrustMap digest own where
  entries := map.entries.retain fun key _ => key ≠ fingerprint
  keyed := fun hget => map.keyed (Table.get_retain.mp hget).1
  bounded := Table.len_retain_le.trans map.bounded

def peers (map : TrustMap digest own) : List TrustedPeer :=
  map.entries.entries.map fun entry => ⟨entry.1, entry.2.2, entry.2.1⟩

def trust (map : TrustMap digest own) (certificate : List UInt8)
    (expected : CertificateFingerprint) (label : Text) :
    Option TrustedPeer × TrustMap digest own :=
  if h : Trustable own ⟨digest certificate⟩ certificate (trim label) ∧
      ⟨digest certificate⟩ = expected ∧ map.entries.get ⟨digest certificate⟩ = none ∧
      map.entries.len < trustedPeerLimit then
    (some ⟨⟨digest certificate⟩, trim label, certificate⟩,
      map.insert certificate (trim label) h.1 h.2.2.2)
  else (none, map)

def load (map : TrustMap digest own) (fingerprint : CertificateFingerprint) :
    Option TrustedPeer :=
  (map.entries.get fingerprint).map fun value => ⟨fingerprint, value.2, value.1⟩

def apply (map : TrustMap digest own) : StoreOp → StoreResult × TrustMap digest own
  | .trust certificate expected label =>
    (.peer (map.trust certificate expected label).1, (map.trust certificate expected label).2)
  | .revoke fingerprint =>
    if map.entries.get fingerprint = none then (.unit none, map)
    else (.unit (some ()), map.erase fingerprint)
  | .load fingerprint => (.peer (map.load fingerprint), map)
  | .list => (.peers (some (map.peers.mergeSort fingerprintLe)), map)

end TrustMap

end ClipFerry.Device
