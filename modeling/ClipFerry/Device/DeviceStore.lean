import ClipFerry.Device.TrustRecord

namespace ClipFerry.Device

open Checked Foundation Protocol Server VirtualTree

def trustedPeerLimit : Nat := 64

def rsplitDot (name : Text) : Option (Text × Text) :=
  match name.reverse.dropWhile (· ≠ '.') with
  | [] => none
  | _ :: before => some (before.reverse, (name.reverse.takeWhile (· ≠ '.')).reverse)

def extension (name : Text) : Option Text :=
  if name = ['.', '.'] then none else
  match rsplitDot name with
  | none | some ([], _) => none
  | some (_, after) => some after

def fileStem (name : Text) : Text :=
  if name = ['.', '.'] then name else
  match rsplitDot name with
  | none | some ([], _) => name
  | some (before, _) => before

def peerExtension : Text := ['p', 'e', 'e', 'r']

def peerFile (fingerprint : CertificateFingerprint) : Text :=
  compactFingerprint fingerprint ++ '.' :: peerExtension

structure DeviceStore where
  root : Directory
  trust : Option Directory

def collectPeers (digest : List UInt8 → Secret) (directory : Directory) :
    List Text → List TrustedPeer → Except IoError (List TrustedPeer)
  | [], peers => .ok peers
  | name :: names, peers =>
    if extension name ≠ some peerExtension then collectPeers digest directory names peers
    else do
      let fingerprint ← parseCompactFingerprint (fileStem name)
      let peer ← decodePeerFile digest directory name fingerprint
      if trustedPeerLimit < (peers ++ [peer]).length then
        .error (invalidData s!"trusted peer registry exceeds the limit of {trustedPeerLimit}")
      else collectPeers digest directory names (peers ++ [peer])

def fingerprintLe (a b : TrustedPeer) : Bool := a.fingerprint.bytes.val ≤ b.fingerprint.bytes.val

/-! `readDir` gives a directory's names in the order the system lists them. -/

def Lists (readDir : Directory → List Text) : Prop :=
  ∀ directory : Directory, (readDir directory).Perm directory.names.keys

def listPeers (digest : List UInt8 → Secret) (readDir : Directory → List Text)
    (trust : Option Directory) : Except IoError (List TrustedPeer) :=
  match trust with
  | none => .ok []
  | some directory => do
    let peers ← collectPeers digest directory (readDir directory) []
    .ok (peers.mergeSort fingerprintLe)

def checkPeer (digest : List UInt8 → Secret) (loadIdentity : Except IoError TlsIdentity)
    (certificate : List UInt8) (expected : CertificateFingerprint) (label : Text) :
    Except IoError TrustedPeer := do
  let identity ← loadIdentity
  validateCertificate certificate
  let actual : CertificateFingerprint := ⟨digest certificate⟩
  if actual ≠ expected then
    .error (invalidData ("peer certificate fingerprint mismatch: expected " ++
      .ofList (CertificateFingerprint.display expected) ++ ", got " ++
      .ofList (CertificateFingerprint.display actual))) else
  if actual = identity.fingerprint then
    .error (invalidData "the local device cannot trust itself as a peer") else
  let label ← validateLabel label
  .ok ⟨actual, label, certificate⟩

def registryFull : IoError :=
  invalidData s!"trusted peer limit of {trustedPeerLimit} has been reached"

def recordPeer (digest : List UInt8 → Secret) (readDir : Directory → List Text)
    (processId : UInt32) (draws : List UInt64) (directory : Directory) (peer : TrustedPeer) :
    Directory × Except IoError TrustedPeer :=
  match listPeers digest readDir (some directory) with
  | .error error => (directory, .error error)
  | .ok peers =>
    if trustedPeerLimit ≤ peers.length then (directory, .error registryFull) else
    match encodeTrustRecord peer with
    | .error error => (directory, .error error)
    | .ok record =>
      match writeNewAtomic (peerFile peer.fingerprint) record processId draws directory with
      | (written, .error error) => (written, .error error)
      | (written, .ok ()) =>
        match listPeers digest readDir (some written) with
        | .error error => (written.remove (peerFile peer.fingerprint), .error error)
        | .ok _ => (written, .ok peer)

namespace DeviceStore

def trustPeer (dpapi : Dpapi) (digest : List UInt8 → Secret) (readDir : Directory → List Text)
    (processId : UInt32) (draws : List UInt64) (store : DeviceStore) (certificate : List UInt8)
    (expected : CertificateFingerprint) (label : Text) :
    DeviceStore × Except IoError TrustedPeer :=
  match checkPeer digest (loadIdentity dpapi digest store.root) certificate expected label with
  | .error error => (store, .error error)
  | .ok peer =>
    let (directory, result) :=
      recordPeer digest readDir processId draws (store.trust.getD .empty) peer
    ({ store with trust := some directory }, result)

def loadPeer (digest : List UInt8 → Secret) (store : DeviceStore)
    (fingerprint : CertificateFingerprint) : Except IoError TrustedPeer :=
  match store.trust with
  | none => .error notFound
  | some directory => decodePeerFile digest directory (peerFile fingerprint) fingerprint

def revokePeer (store : DeviceStore) (fingerprint : CertificateFingerprint) :
    DeviceStore × Except IoError Unit :=
  match store.trust with
  | none => (store, .error notFound)
  | some directory =>
    if directory.find (peerFile fingerprint) = none then (store, .error notFound)
    else ({ store with trust := some (directory.remove (peerFile fingerprint)) }, .ok ())

end DeviceStore

theorem rsplitDot_append {before after : Text} (h : '.' ∉ after) :
    rsplitDot (before ++ '.' :: after) = some (before, after) := by
  have hreverse : (before ++ '.' :: after).reverse = after.reverse ++ '.' :: before.reverse := by
    simp
  have hall : ∀ c ∈ after.reverse, decide (c ≠ '.') = true := by
    intro c hc
    refine decide_eq_true fun hdot => h ?_
    exact hdot ▸ List.mem_reverse.mp hc
  rw [rsplitDot, hreverse, List.dropWhile_append_of_pos hall, List.takeWhile_append_of_pos hall]
  simp

theorem peerExtension_dot : '.' ∉ peerExtension := by decide

theorem compactFingerprint_ne_nil (fingerprint : CertificateFingerprint) :
    compactFingerprint fingerprint ≠ [] := by
  intro hnil
  have hlength := length_compactFingerprint fingerprint
  rw [hnil, List.length_nil] at hlength
  cases hlength

theorem peerFile_not_temporary (fingerprint : CertificateFingerprint) :
    ¬Temporary (peerFile fingerprint) := by
  intro h
  obtain ⟨c, rest, hhex⟩ := List.exists_cons_of_ne_nil (compactFingerprint_ne_nil fingerprint)
  obtain ⟨digit, rfl⟩ := mem_compactFingerprint (hhex ▸ List.mem_cons_self)
  rw [Temporary, peerFile, hhex, List.cons_append, List.head?_cons, Option.some.injEq] at h
  exact (digitChar_hex digit).2.2.1 h

theorem peerFile_extension (fingerprint : CertificateFingerprint) :
    extension (peerFile fingerprint) = some peerExtension ∧
      fileStem (peerFile fingerprint) = compactFingerprint fingerprint := by
  have hdots : peerFile fingerprint ≠ ['.', '.'] := fun hdots =>
    peerFile_not_temporary fingerprint (hdots ▸ rfl)
  have hsplit := @rsplitDot_append (compactFingerprint fingerprint) _ peerExtension_dot
  obtain ⟨c, rest, hhex⟩ := List.exists_cons_of_ne_nil (compactFingerprint_ne_nil fingerprint)
  rw [extension, fileStem, if_neg hdots, if_neg hdots, peerFile, hsplit, hhex]
  exact ⟨rfl, rfl⟩

theorem temporaryName_extension (filename : Text) (processId : UInt32) (random : UInt64) :
    extension (temporaryName filename processId random) ≠ some peerExtension := by
  have hname : temporaryName filename processId random =
      ('.' :: (filename ++ '.' :: (Nat.toDigits 10 processId.toNat ++ '.' ::
        lowerHex 16 random.toNat))) ++ '.' :: ['t', 'm', 'p'] := by
    simp [temporaryName]
  rw [extension]
  split
  · nofun
  · rw [hname, rsplitDot_append (by decide)]
    exact fun h => absurd (Option.some.inj h) (by decide)

theorem peerFile_injective {fingerprint other : CertificateFingerprint}
    (h : peerFile fingerprint = peerFile other) : fingerprint = other :=
  compactFingerprint_injective (List.append_cancel_right h)

end ClipFerry.Device
