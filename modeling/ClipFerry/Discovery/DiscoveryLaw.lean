import ClipFerry.Discovery.DiscoveryLoop
import ClipFerry.Discovery.PacketCodec

namespace ClipFerry.Discovery

open Checked Foundation Protocol Server Settings Transition VirtualTree

variable {packet : Packet} {encoded datagram bytes : List UInt8} {source : SocketAddr} {k now : Nat}
  {worker : DiscoveryWorker} {handled : DiscoveryWorker.Handled} {world world' : DiscoveryWorld}
  {fingerprints : Nat → CertificateFingerprint} {labels : Nat → Text}

namespace DiscoveryWorker

theorem start_eq (fingerprint : CertificateFingerprint) (label : Text) :
    start fingerprint label = .ok ⟨fingerprint,
      (Packet.new Discovery.announcement fingerprint label).bytes,
      (Packet.new Discovery.response fingerprint label).bytes, ∅⟩ := by
  rw [start, Packet.encode_valid (Packet.new_valid (.inl rfl) fingerprint label), ok_bind,
    Packet.encode_valid (Packet.new_valid (.inr rfl) fingerprint label), ok_bind]

theorem receive_valid (now : Nat) (hvalid : packet.Valid)
    (hother : packet.fingerprint ≠ worker.fingerprint)
    (hsource : isPrivateOrLoopback source.ip = true) :
    worker.receive now packet.bytes source =
      ⟨{ worker with
          known := worker.known.insert packet.fingerprint ⟨discoveredPeer packet source, now⟩ },
        some (discoveredPeer packet source),
        if packet.kind = Discovery.announcement then some worker.response else none⟩ := by
  have hshort := hvalid.label.short
  have hfits : ¬packetLimit + 1 < packet.bytes.length := by
    rw [Packet.length_bytes, packetLimit]
    omega
  have haccepted : ¬(packet.fingerprint = worker.fingerprint ∨
      isPrivateOrLoopback source.ip = false) := by
    rintro (hself | hpublic)
    · exact hother hself
    · cases hsource.symm.trans hpublic
  rw [receive, if_neg hfits, Packet.decode_bytes hvalid]
  dsimp only
  rw [if_neg haccepted]
  rfl

theorem receive_cases (h : worker.receive now datagram source = handled) :
    handled = ⟨worker, none, none⟩ ∨ ∃ packet, Packet.decode datagram = .ok packet ∧
      packet.fingerprint ≠ worker.fingerprint ∧ isPrivateOrLoopback source.ip = true ∧
      handled = ⟨{ worker with
          known := worker.known.insert packet.fingerprint ⟨discoveredPeer packet source, now⟩ },
        some (discoveredPeer packet source),
        if packet.kind = Discovery.announcement then some worker.response else none⟩ := by
  rw [receive] at h
  split at h
  · exact .inl h.symm
  split at h
  · exact .inl h.symm
  next packet hdecode =>
  split at h
  · exact .inl h.symm
  next haccepted =>
  obtain ⟨hother, hsource⟩ := not_or.mp haccepted
  exact .inr ⟨packet, hdecode, hother, Bool.not_eq_false _ ▸ hsource, h.symm⟩

end DiscoveryWorker

structure Heard (worker : DiscoveryWorker) (seen : SeenPeer) : Prop where
  packet : ∃ datagram packet source, Packet.decode datagram = .ok packet ∧
    seen.peer = DiscoveryWorker.discoveredPeer packet source ∧
    isPrivateOrLoopback source.ip = true
  other : seen.peer.fingerprint ≠ worker.fingerprint

structure Tuned (own : CertificateFingerprint) (label : Text) (worker : DiscoveryWorker) : Prop where
  fingerprint : worker.fingerprint = own
  announcement : worker.announcement = (Packet.new Discovery.announcement own label).bytes
  response : worker.response = (Packet.new Discovery.response own label).bytes
  known : ∀ {key seen}, worker.known.get key = some seen →
    key = seen.peer.fingerprint ∧ Heard worker seen

structure OnAir (fingerprints : Nat → CertificateFingerprint) (labels : Nat → Text)
    (world : DiscoveryWorld) : Prop where
  devices : ∀ k, Tuned (fingerprints k) (labels k) (world.devices k)
  sent : ∀ {j bytes}, (j, bytes) ∈ world.sent → ∃ kind, KnownKind kind ∧
    bytes = (Packet.new kind (fingerprints j) (labels j)).bytes

namespace Tuned

variable {own : CertificateFingerprint} {label : Text}

theorem start (h : DiscoveryWorker.start own label = .ok worker) :
    Tuned own label worker := by
  rw [DiscoveryWorker.start_eq] at h
  cases h
  exact ⟨rfl, rfl, rfl, nofun⟩

theorem receive (h : Tuned own label worker)
    (hreceive : worker.receive now datagram source = handled) :
    Tuned own label handled.worker ∧ ∀ reply, handled.reply = some reply →
      reply = (Packet.new Discovery.response own label).bytes := by
  rcases DiscoveryWorker.receive_cases hreceive with
    rfl | ⟨packet, hdecode, hother, hsource, rfl⟩
  · exact ⟨h, nofun⟩
  · refine ⟨⟨h.fingerprint, h.announcement, h.response, fun {key seen} hget => ?_⟩,
      fun reply hreply => ?_⟩
    · dsimp only at hget
      rw [Table.get_insert] at hget
      split at hget
      · next hkey =>
        cases hget
        exact ⟨hkey, ⟨datagram, packet, source, hdecode, rfl, hsource⟩, hother⟩
      · obtain ⟨hkey, hheard⟩ := h.known hget
        exact ⟨hkey, hheard.packet, hheard.other⟩
    · dsimp only at hreply
      split at hreply
      · cases hreply
        exact h.response
      · cases hreply

theorem live (h : Tuned own label worker) (now : Nat) :
    Tuned own label { worker with known := worker.known.live now } where
  fingerprint := h.fingerprint
  announcement := h.announcement
  response := h.response
  known := fun hget => by
    obtain ⟨hkey, hheard⟩ := h.known (Table.get_retain.mp hget).1
    exact ⟨hkey, hheard.packet, hheard.other⟩

end Tuned

namespace OnAir

theorem start (h : DiscoveryStart fingerprints labels world) : OnAir fingerprints labels world where
  devices := fun k => Tuned.start (h.devices k)
  sent := fun hsent => by
    rw [h.sent] at hsent
    cases hsent

theorem device (h : OnAir fingerprints labels world)
    (hworker : Tuned (fingerprints k) (labels k) worker) (j : Nat) :
    Tuned (fingerprints j) (labels j) (Function.update world.devices k worker j) := by
  rw [Function.update_apply]
  split
  · next hj => exact hj ▸ hworker
  · exact h.devices j

theorem step (h : OnAir fingerprints labels world) (hstep : DiscoveryStep world k world') :
    OnAir fingerprints labels world' := by
  cases hstep with
  | announce =>
    refine ⟨h.devices, fun {j bytes} hsent => ?_⟩
    rcases List.mem_append.mp hsent with hold | hnew
    · exact h.sent hold
    · obtain ⟨rfl, rfl⟩ := Prod.mk.inj (List.mem_singleton.mp hnew)
      exact ⟨_, .inl rfl, (h.devices j).announcement⟩
  | receive _ now datagram source hreceive =>
    obtain ⟨hworker, hreply⟩ := (h.devices k).receive hreceive
    refine ⟨h.device hworker, fun {j bytes} hsent => ?_⟩
    rcases List.mem_append.mp hsent with hold | hnew
    · exact h.sent hold
    · obtain ⟨reply, hsome, hpair⟩ := Option.map_eq_some_iff.mp (Option.mem_toList.mp hnew)
      obtain ⟨rfl, rfl⟩ := Prod.mk.inj hpair
      exact ⟨_, .inr rfl, hreply reply hsome⟩
  | view _ now => exact ⟨h.device ((h.devices k).live now), h.sent⟩

theorem run {steps : List Nat} (hstart : DiscoveryStart fingerprints labels world)
    (hrun : Run DiscoveryStep world steps world') : OnAir fingerprints labels world' :=
  hrun.invariant (I := OnAir fingerprints labels) step (start hstart)

end OnAir

namespace KnownPeers

variable {known : KnownPeers} {found : DiscoveredPeer}

theorem mem_peers : found ∈ known.peers now ↔
    ∃ key seen, known.get key = some seen ∧ now - seen.lastSeen ≤ peerTtl ∧ seen.peer = found := by
  rw [peers, (List.mergeSort_perm _ _).mem_iff, List.mem_map]
  constructor
  · rintro ⟨seen, hseen, rfl⟩
    obtain ⟨⟨key, value⟩, hentry, rfl⟩ := List.mem_map.mp hseen
    obtain ⟨hget, hfresh⟩ := Table.get_retain.mp (Table.get_eq_some.mpr hentry)
    exact ⟨key, value, hget, of_decide_eq_true hfresh, rfl⟩
  · rintro ⟨key, seen, hget, hfresh, rfl⟩
    have hlive : (known.live now).get key = some seen :=
      Table.get_retain.mpr ⟨hget, decide_eq_true hfresh⟩
    exact ⟨seen, List.mem_map_of_mem (Table.get_eq_some.mp hlive), rfl⟩

theorem peer_eq_some {fingerprint : CertificateFingerprint}
    (hkeys : ∀ {key seen}, known.get key = some seen → key = seen.peer.fingerprint) :
    known.peer now fingerprint = some found ↔
      ∃ seen, known.get fingerprint = some seen ∧ now - seen.lastSeen ≤ peerTtl ∧
        seen.peer = found := by
  constructor
  · intro hfind
    obtain ⟨key, seen, hget, hfresh, rfl⟩ := mem_peers.mp (List.mem_of_find?_eq_some hfind)
    have hsame : seen.peer.fingerprint = fingerprint := by simpa using List.find?_some hfind
    exact ⟨seen, hsame ▸ hkeys hget ▸ hget, hfresh, rfl⟩
  · rintro ⟨seen, hget, hfresh, rfl⟩
    have hmem := mem_peers.mpr ⟨fingerprint, seen, hget, hfresh, rfl⟩
    have hsome : (known.peer now fingerprint).isSome = true :=
      List.find?_isSome.mpr ⟨seen.peer, hmem, decide_eq_true (hkeys hget).symm⟩
    obtain ⟨other, hother⟩ := Option.isSome_iff_exists.mp hsome
    obtain ⟨key, seen', hget', -, rfl⟩ := mem_peers.mp (List.mem_of_find?_eq_some hother)
    have hsame : seen'.peer.fingerprint = fingerprint := by simpa using List.find?_some hother
    obtain rfl := (hkeys hget').trans hsame
    rw [hget] at hget'
    cases hget'
    exact hother

end KnownPeers

theorem OnAir.accepted (h : OnAir fingerprints labels world) {j : Nat}
    (hsent : (j, bytes) ∈ world.sent) : ∃ kind,
      Packet.decode bytes = .ok (Packet.new kind (fingerprints j) (labels j)) ∧
      ∀ k now source, fingerprints k ≠ fingerprints j → isPrivateOrLoopback source.ip = true →
        ((world.devices k).receive now bytes source).worker.known.peer now (fingerprints j) =
          some ⟨fingerprints j, boundedLabel (labels j), .new source.ip Settings.servicePort,
            .new source.ip Discovery.pairingPort⟩ := by
  obtain ⟨kind, hkind, rfl⟩ := h.sent hsent
  have hvalid := Packet.new_valid hkind (fingerprints j) (labels j)
  refine ⟨kind, Packet.decode_bytes hvalid, fun k now source hother hsource => ?_⟩
  have hother' : (Packet.new kind (fingerprints j) (labels j)).fingerprint ≠
      (world.devices k).fingerprint := by
    rw [(h.devices k).fingerprint]
    exact hother.symm
  have hreceive := DiscoveryWorker.receive_valid now hvalid hother' hsource
  have htuned := ((h.devices k).receive hreceive).1
  rw [hreceive]
  refine (KnownPeers.peer_eq_some fun hget => (htuned.known hget).1).mpr
    ⟨⟨_, now⟩, Table.get_insert.trans (if_pos rfl), ?_, rfl⟩
  dsimp only
  omega

theorem discovery_packets_accepted :
    (∀ encoded packet, Packet.decode encoded = .ok packet → packet.encode = .ok encoded) ∧
    (∀ packet : Packet, packet.Valid → ∃ encoded, packet.encode = .ok encoded ∧
      Packet.decode encoded = .ok packet) ∧
    (∀ kind fingerprint label, KnownKind kind → ∃ encoded,
      (Packet.new kind fingerprint label).encode = .ok encoded ∧
      Packet.decode encoded = .ok (Packet.new kind fingerprint label)) ∧
    (∀ fingerprint label, ∃ worker, DiscoveryWorker.start fingerprint label = .ok worker) ∧
    ∀ {fingerprints labels start steps world}, DiscoveryStart fingerprints labels start →
      Run DiscoveryStep start steps world → ∀ {j bytes}, (j, bytes) ∈ world.sent → ∃ kind,
        Packet.decode bytes = .ok (Packet.new kind (fingerprints j) (labels j)) ∧
        ∀ k now source, fingerprints k ≠ fingerprints j → isPrivateOrLoopback source.ip = true →
          ((world.devices k).receive now bytes source).worker.known.peer now (fingerprints j) =
            some ⟨fingerprints j, boundedLabel (labels j), .new source.ip Settings.servicePort,
              .new source.ip Discovery.pairingPort⟩ := by
  refine ⟨fun encoded packet hdecode => ?_, fun packet hvalid => ?_,
    fun kind fingerprint label hkind => ?_, fun fingerprint label => ⟨_, DiscoveryWorker.start_eq _ _⟩,
    fun hstart hrun _ _ hsent => (OnAir.run hstart hrun).accepted hsent⟩
  · obtain ⟨hvalid, rfl⟩ := Packet.decode_ok hdecode
    exact Packet.encode_valid hvalid
  · exact ⟨packet.bytes, Packet.encode_valid hvalid, Packet.decode_bytes hvalid⟩
  · have hvalid := Packet.new_valid hkind fingerprint label
    exact ⟨_, Packet.encode_valid hvalid, Packet.decode_bytes hvalid⟩

def twoFingerprints (k : Nat) : CertificateFingerprint := ⟨repeatedSecret (.ofNat k)⟩

def twoDevices : DiscoveryWorld where
  devices k := ⟨twoFingerprints k,
    (Packet.new announcement (twoFingerprints k) "测试电脑-🚢".toList).bytes,
    (Packet.new response (twoFingerprints k) "测试电脑-🚢".toList).bytes, ∅⟩
  sent := []

theorem discovery_packets_accepted_two : ∃ world,
    Run DiscoveryStep twoDevices [0] world ∧
      ((world.devices 1).receive 0 (twoDevices.devices 0).announcement
        (.v4 ⟨[192, 168, 1, 10], rfl⟩ 45231)).worker.known.peer 0 (twoFingerprints 0) =
          some ⟨twoFingerprints 0, boundedLabel "测试电脑-🚢".toList,
            .v4 ⟨[192, 168, 1, 10], rfl⟩ 45233, .v4 ⟨[192, 168, 1, 10], rfl⟩ 45232⟩ ∧
      ∃ encoded, (Packet.new announcement (twoFingerprints 0) []).encode = .ok encoded ∧
        Packet.decode encoded = .ok (Packet.new announcement (twoFingerprints 0) []) := by
  have hstart : DiscoveryStart twoFingerprints (fun _ => "测试电脑-🚢".toList) twoDevices :=
    ⟨fun _ => DiscoveryWorker.start_eq _ _, rfl⟩
  have hrun := Run.single (@DiscoveryStep.announce twoDevices 0)
  obtain ⟨-, -, hnew, -, hair⟩ := discovery_packets_accepted
  obtain ⟨kind, -, haccepted⟩ := hair hstart hrun List.mem_cons_self
  exact ⟨_, hrun, haccepted 1 0 _ (by decide) (by decide), hnew _ _ _ (.inl rfl)⟩

end ClipFerry.Discovery
