import ClipFerry.Device.IdentityLaw
import ClipFerry.Discovery.VisibleLabel
import ClipFerry.Pairing.Authentication
import ClipFerry.Tray.NativePairing

namespace ClipFerry.Tray

open Device Discovery Foundation Pairing Protocol Server Transition VirtualTree

variable {packet : Packet} {encoded : List UInt8} {digest : List UInt8 → Secret}
  {device other : PairingEnd} {p q : ReachedPairing} {peer : NamedPeer} {source : Settings.SocketAddr}

theorem OneSided.not_validLabel (h : OneSided digest device other p q peer) :
    ¬ValidLabel (trim peer.label) := by
  intro hlabel
  obtain ⟨text, store, trusted, htrusted⟩ := h.label
  obtain ⟨store', hconfirm, -⟩ := PendingPairing.confirm_relabel htrusted hlabel
  obtain ⟨failed, error, hfailed⟩ := h.failed
  rw [PairingEnd.completeNativePairing, h.chosen] at hfailed
  dsimp only at hfailed
  rw [PairingEnd.confirm, PairingEnd.decision_chosen h.chosen, h.approved, hconfirm] at hfailed
  cases hfailed

def identityRoot (certificate : UInt8) : Directory :=
  createWritten identityFile
    (dpapiEntropy ++ (identityMagic ++ [1, 0, 0, 0, 1, 0, 0, 0, certificate, 6])) Volume.empty

theorem loadIdentity_root (digest : List UInt8 → Secret) (certificate : UInt8) :
    loadIdentity prefixDpapi digest (identityRoot certificate) =
      .ok ⟨[certificate], [6], ⟨digest [certificate]⟩⟩ := by
  rfl

def plainHost : StoreHost where
  dpapi := prefixDpapi
  readDir := fun directory => directory.names.keys
  listed := fun _ => .rfl
  processId := 1
  draws := List.replicate 8 3

def approving (certificate : UInt8) (knownPeer : Option Discovery.DiscoveredPeer)
    (known : KnownPeers) : PairingEnd :=
  ⟨plainHost, ⟨identityRoot certificate, none⟩, knownPeer, known, 0, true⟩

def reached (digest : List UInt8 → Secret) (own peer : UInt8) (hash : Secret)
    (peerAddress : Settings.SocketAddr) : ReachedPairing where
  localFingerprint := ⟨digest [own]⟩
  peerFingerprint := ⟨digest [peer]⟩
  peerCertificate := [peer]
  transcriptHash := hash
  code := pairingCode hash
  peerAddress := peerAddress

theorem empty_admits (digest : List UInt8 → Secret) (fingerprint : CertificateFingerprint) :
    Admits digest plainHost.processId plainHost.draws Volume.empty fingerprint where
  listable := ⟨nofun, Nat.zero_le _⟩
  room := by decide
  publishable := ⟨rfl, 3, List.mem_cons_self, rfl⟩

theorem reached_confirms {own peer : UInt8} {hash : Secret} {peerAddress : Settings.SocketAddr}
    {label : Text} {knownPeer : Option Discovery.DiscoveredPeer} {known : KnownPeers}
    {remote : ConfirmMessage} (hother : digest [own] ≠ digest [peer])
    (hremote : remote = (reached digest own peer hash peerAddress).message true)
    (hlabel : ValidLabel (trim label)) :
    ∃ store, (reached digest own peer hash peerAddress).confirm digest
        (approving own knownPeer known).host (approving own knownPeer known).store true label
        (.ok remote) = (store, .ok ⟨⟨digest [peer]⟩, trim label, [peer]⟩) ∧
      store.loadPeer digest ⟨digest [peer]⟩ = .ok ⟨⟨digest [peer]⟩, trim label, [peer]⟩ := by
  have hload : loadIdentity (approving own knownPeer known).host.dpapi digest
      (approving own knownPeer known).store.root = .ok ⟨[own], [6], ⟨digest [own]⟩⟩ :=
    loadIdentity_root digest own
  have hown : ownFingerprint prefixDpapi digest (identityRoot own) = some ⟨digest [own]⟩ := by
    rw [ownFingerprint, loadIdentity_root]
    rfl
  have htrustable : Trustable (ownFingerprint prefixDpapi digest (identityRoot own))
      ⟨digest [peer]⟩ [peer] (trim label) := by
    rw [hown]
    have hshort : 1 ≤ Device.certificateLimit := by decide
    refine ⟨nofun, fun hsame => hother ?_, Nat.one_ne_zero, hshort, hlabel⟩
    exact congrArg CertificateFingerprint.bytes (Option.some.inj hsame)
  have hadmits := empty_admits digest ⟨digest [peer]⟩
  have hidentity : (⟨digest [own]⟩ : CertificateFingerprint) =
      (reached digest own peer hash peerAddress).localFingerprint := rfl
  rw [PendingPairing.confirm_reaches (congrArg Except.ok hremote) hload hidentity]
  exact hadmits.trusts plainHost.listed htrustable

def privateSource : Settings.SocketAddr := .v4 (Settings.lanHost 10) 45231

def spare (secret : Secret) : Secret :=
  if secret = repeatedSecret 0 then repeatedSecret 1 else repeatedSecret 0

theorem spare_ne (secret : Secret) : spare secret ≠ secret := by
  rw [spare]
  split
  · next hzero =>
    rw [hzero]
    decide
  · next hother => exact fun hsame => hother hsame.symm

def bearing (packet : Packet) (bytes : List UInt8) : Secret :=
  if bytes = [1] then packet.fingerprint.bytes else spare packet.fingerprint.bytes

def clicked (packet : Packet) : PairingEnd :=
  approving 2 (some (DiscoveryWorker.discoveredPeer packet privateSource)) ∅

def listening (packet : Packet) : PairingEnd :=
  approving 1 none <| (∅ : KnownPeers).insert ⟨bearing packet [2]⟩
    ⟨⟨⟨bearing packet [2]⟩, ['a'], privateSource, privateSource⟩, 0⟩

theorem checkChosen_fresh {pending : ReachedPairing}
    (haddress : peer.serviceEndpoint.ip = pending.peerAddress.ip) :
    checkChosen pending (some peer) false = .ok peer := by
  rw [checkChosen]
  exact (if_neg (not_not.mpr haddress)).trans (if_neg nofun)

theorem clicked_chosen (packet : Packet) (hash : Secret) :
    (clicked packet).chosen (bearing packet) (reached (bearing packet) 2 1 hash privateSource) =
      .ok (named (DiscoveryWorker.discoveredPeer packet privateSource)) := by
  have hbears : (named (DiscoveryWorker.discoveredPeer packet privateSource)).fingerprint =
      (reached (bearing packet) 2 1 hash privateSource).peerFingerprint := rfl
  have hknown : (clicked packet).knownPeer.map named =
      some (named (DiscoveryWorker.discoveredPeer packet privateSource)) := rfl
  rw [PairingEnd.chosen, chosenPeer, hknown, Option.filter_some, if_pos (decide_eq_true hbears),
    Option.some_or]
  exact checkChosen_fresh rfl

theorem listening_chosen (packet : Packet) (hash : Secret) :
    (listening packet).chosen (bearing packet) (reached (bearing packet) 1 2 hash privateSource) =
      .ok ⟨⟨⟨bearing packet [2]⟩, privateSource⟩, ['a']⟩ := by
  have hpeer : (listening packet).known.peer 0 ⟨bearing packet [2]⟩ =
      some ⟨⟨bearing packet [2]⟩, ['a'], privateSource, privateSource⟩ := by
    refine (KnownPeers.peer_eq_some fun hget => ?_).mpr
      ⟨_, Table.get_insert.trans (if_pos rfl), Nat.zero_le _, rfl⟩
    rw [listening, approving, Table.get_insert] at hget
    split at hget
    · next hkey =>
      cases hget
      exact hkey
    · cases hget
  have hfound : (listening packet).discovered (reached (bearing packet) 1 2 hash privateSource) =
      some ⟨⟨⟨bearing packet [2]⟩, privateSource⟩, ['a']⟩ := congrArg (Option.map named) hpeer
  rw [PairingEnd.chosen, hfound]
  exact checkChosen_fresh rfl

theorem blank_one_sided (hblank : ¬ValidLabel (trim packet.label)) :
    ∃ digest start labels world p q device other source, PairingStart start ∧
      Run (PairingStep digest) start labels world ∧ PendingBetween digest world 1 0 p q ∧
      OneSided digest device other p q
        (named (DiscoveryWorker.discoveredPeer packet source)) := by
  obtain ⟨labels, hrun⟩ := @honest_pairing (bearing packet) plainListener plainConnector rfl rfl
    ⟨by decide, by decide⟩ ⟨by decide, by decide⟩
  generalize bearing packet (transcriptBytes plainListener plainConnector) = hash at hrun
  have hdiffer : bearing packet [2] ≠ bearing packet [1] := spare_ne packet.fingerprint.bytes
  have hvalid : ValidLabel (trim ['a']) := by decide
  refine ⟨bearing packet, _, labels, _, reached (bearing packet) 2 1 hash privateSource,
    reached (bearing packet) 1 2 hash privateSource, clicked packet, listening packet,
    privateSource, facing_start, hrun, ⟨rfl, rfl, rfl⟩, ?_⟩
  exact {
    chosen := clicked_chosen packet hash
    approved := rfl
    otherApproved := by rw [PairingEnd.decision_chosen (listening_chosen packet hash)]; rfl
    persisted := by
      obtain ⟨store, hstored, hloaded⟩ := reached_confirms hdiffer.symm rfl hvalid
      refine ⟨store, _, ?_, hloaded⟩
      rw [PairingEnd.confirm, PairingEnd.decision_chosen (listening_chosen packet hash)]
      exact hstored
    failed := by
      rw [PairingEnd.completeNativePairing, clicked_chosen]
      dsimp only
      split
      · exact ⟨_, _, rfl⟩
      · next store trusted hconfirm =>
        rw [PairingEnd.confirm, PairingEnd.decision_chosen (clicked_chosen packet hash)] at hconfirm
        exact absurd (PendingPairing.confirm_validLabel hconfirm) hblank
    label := by
      obtain ⟨store, hstored, -⟩ := reached_confirms hdiffer rfl hvalid
      exact ⟨['a'], store, _, hstored⟩ }

theorem discovered_labels_storable (encoded : List UInt8) (label : Text) :
    (∀ packet, Packet.decode encoded = .ok packet →
      (Storable packet.label ↔ VisibleBytes (encoded.drop headerLength)) ∧
      ((∀ {digest start labels world j k p q device other source}, PairingStart start →
          Run (PairingStep digest) start labels world → PendingBetween digest world j k p q →
          ¬OneSided digest device other p q
            (named (DiscoveryWorker.discoveredPeer packet source))) ↔
        VisibleBytes (encoded.drop headerLength))) ∧
    (Storable (boundedLabel label) ↔ FitsVisible label) ∧
    ∀ kind fingerprint, KnownKind kind → ∃ announced,
      (Packet.new kind fingerprint label).encode = .ok announced ∧
      (VisibleBytes (announced.drop headerLength) ↔ FitsVisible label) := by
  refine ⟨fun packet hdecode => ⟨decode_storable hdecode, ?_⟩, boundedLabel_storable label,
    fun kind fingerprint hkind => ?_⟩
  · rw [← decode_storable hdecode, storable_iff]
    constructor
    · intro hnever
      by_contra hblank
      obtain ⟨digest, start, labels, world, p, q, device, other, source, hstart, hrun, hbetween,
        hsided⟩ := blank_one_sided hblank
      exact hnever hstart hrun hbetween hsided
    · intro hvalid digest start labels world j k p q device other source _ _ _ hsided
      exact hsided.not_validLabel hvalid
  · have hvalid := Packet.new_valid hkind fingerprint label
    refine ⟨_, Packet.encode_valid hvalid, ?_⟩
    rw [← decode_storable (Packet.decode_bytes hvalid)]
    exact boundedLabel_storable label

def labelled (label : Text) : Packet :=
  ⟨announcement, ⟨repeatedSecret 7⟩, Settings.servicePort, Discovery.pairingPort, label⟩

theorem labelled_decodes {label : Text} (h : Announceable label) :
    Packet.decode (labelled label).bytes = .ok (labelled label) :=
  Packet.decode_bytes ⟨.inl rfl, rfl, rfl, h⟩

theorem discovered_labels_storable_named :
    Storable "测试电脑-🚢".toList ∧ ∃ start labels world, ∃ hash : Secret, PairingStart start ∧
      Run (PairingStep (bearing (labelled "测试电脑-🚢".toList))) start labels world ∧
      ¬OneSided (bearing (labelled "测试电脑-🚢".toList)) (clicked (labelled "测试电脑-🚢".toList))
        (listening (labelled "测试电脑-🚢".toList))
        (reached (bearing (labelled "测试电脑-🚢".toList)) 2 1 hash privateSource)
        (reached (bearing (labelled "测试电脑-🚢".toList)) 1 2 hash privateSource)
        (named (DiscoveryWorker.discoveredPeer (labelled "测试电脑-🚢".toList) privateSource)) := by
  have hdecode : Packet.decode (labelled "测试电脑-🚢".toList).bytes =
      .ok (labelled "测试电脑-🚢".toList) := labelled_decodes ⟨by decide, by decide, by decide⟩
  obtain ⟨hstorable, hnever⟩ := (discovered_labels_storable (labelled "测试电脑-🚢".toList).bytes
    "测试电脑-🚢".toList).1 _ hdecode
  have hvisible : VisibleBytes ((labelled "测试电脑-🚢".toList).bytes.drop headerLength) := by
    rw [decode_label hdecode]
    exact visibleBytes_asBytes.mpr ⟨'测', List.mem_cons_self, by decide⟩
  obtain ⟨labels, hrun⟩ := @honest_pairing (bearing (labelled "测试电脑-🚢".toList)) plainListener
    plainConnector rfl rfl ⟨by decide, by decide⟩ ⟨by decide, by decide⟩
  exact ⟨hstorable.mpr hvisible, _, labels, _, _, facing_start, hrun,
    hnever.mpr hvisible (j := 1) (k := 0) facing_start hrun ⟨rfl, rfl, rfl⟩⟩

theorem blank_label_one_sided :
    Packet.decode (labelled [' ']).bytes = .ok (labelled [' ']) ∧
      boundedLabel ['\x00', ' ', '\x00'] = [' '] ∧
      (∃ error, validateLabel [' '] = .error error) ∧ ¬Storable [' '] ∧
      ∃ digest start labels world p q device other source, PairingStart start ∧
        Run (PairingStep digest) start labels world ∧ PendingBetween digest world 1 0 p q ∧
        OneSided digest device other p q
          (named (DiscoveryWorker.discoveredPeer (labelled [' ']) source)) := by
  have hblank : ¬ValidLabel (trim [' ']) := by decide
  exact ⟨labelled_decodes ⟨by decide, by decide, by decide⟩, by decide, ⟨_, rfl⟩,
    mt storable_iff.mp hblank, @blank_one_sided (labelled [' ']) hblank⟩

end ClipFerry.Tray
