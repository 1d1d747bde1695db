import ClipFerry.Pairing.HelloCodec
import ClipFerry.Product.Session

namespace ClipFerry.Product

open ByteField Checked Foundation Pairing Protocol Server Settings

def offerMagic : List UInt8 := [0x43, 0x46, 0x4f, 0x46, 0x46, 0x45, 0x52, 0x31]

def offerAck : List UInt8 := [0x43, 0x46, 0x41, 0x43, 0x4b, 0x30, 0x30, 0x31]

def offerFrameSize : Nat := 8 + 1 + 16 + 2

def unusedOctets : List.Vector UInt8 12 := ⟨List.replicate 12 0, List.length_replicate⟩

/-! A frame with arbitrary bytes behind a short address. -/

def announcementFrame (endpoint : SocketAddr) (unused : List.Vector UInt8 12) : List UInt8 :=
  offerMagic ++ (match endpoint.ip with
    | .v4 octets => 4 :: (octets.val ++ (unused.val ++ (beBytes16 endpoint.port).val))
    | .v6 octets => 6 :: (octets.val ++ (beBytes16 endpoint.port).val))

def encodeAnnouncement (endpoint : SocketAddr) : Except IoError (List UInt8) := do
  validatePrivateEndpoint endpoint
  .ok (announcementFrame endpoint unusedOctets)

def announcedIp (frame : List UInt8) : Except IoError IpAddr :=
  if frame.getD 8 0 = 4 then do
    let octets ← arrayAtIo 4 frame 9
    .ok (.v4 octets)
  else if frame.getD 8 0 = 6 then do
    let octets ← arrayAtIo 16 frame 9
    .ok (.v6 octets)
  else .error (invalidData "invalid offer endpoint address family")

def decodeAnnouncement (frame : List UInt8) : Except IoError SocketAddr :=
  if frame.take 8 ≠ offerMagic then .error (invalidData "invalid offer announcement magic")
  else do
    let ip ← announcedIp frame
    let port ← arrayAtIo 2 frame 25
    validatePrivateEndpoint (.new ip (fromBe16 port))
    .ok (.new ip (fromBe16 port))

def readAnnouncement (stream : ChunkReader UInt8) :
    Except IoError (SocketAddr × ChunkReader UInt8) := do
  let (frame, stream) ← readExactFrom offerFrameSize stream
  let endpoint ← decodeAnnouncement frame
  .ok (endpoint, stream)

/-! What is left of an endpoint that has been announced: its scope is not sent. -/

def received (endpoint : SocketAddr) : SocketAddr := .new endpoint.ip endpoint.port

variable {endpoint : SocketAddr} {frame bytes rest : List UInt8} {unused : List.Vector UInt8 12}
  {reader later : ChunkReader UInt8}

@[simp] theorem ip_received (endpoint : SocketAddr) : (received endpoint).ip = endpoint.ip := by
  cases endpoint with
  | v4 octets port => rfl
  | v6 octets port scopeId => rfl

@[simp] theorem port_received (endpoint : SocketAddr) :
    (received endpoint).port = endpoint.port := by
  cases endpoint with
  | v4 octets port => rfl
  | v6 octets port scopeId => rfl

theorem validate_received (endpoint : SocketAddr) :
    validatePrivateEndpoint (received endpoint) = validatePrivateEndpoint endpoint := by
  rw [validatePrivateEndpoint, validatePrivateEndpoint, ip_received, port_received]

theorem received_new (ip : IpAddr) (port : UInt16) :
    received (.new ip port) = .new ip port := by
  cases ip with
  | v4 octets => rfl
  | v6 octets => rfl

theorem length_announcementFrame (endpoint : SocketAddr) (unused : List.Vector UInt8 12) :
    (announcementFrame endpoint unused).length = offerFrameSize := by
  have hport := (beBytes16 endpoint.port).property
  have hunused := unused.property
  rw [announcementFrame]
  split
  · next octets hip =>
    have hoctets := octets.property
    simp [offerMagic, offerFrameSize, hoctets, hunused, hport]
  · next octets hip =>
    have hoctets := octets.property
    simp [offerMagic, offerFrameSize, hoctets, hport]

theorem encodeAnnouncement_eq_ok :
    encodeAnnouncement endpoint = .ok frame ↔
      validatePrivateEndpoint endpoint = .ok () ∧
        frame = announcementFrame endpoint unusedOctets := by
  rw [encodeAnnouncement, bind_eq_ok]
  constructor
  · rintro ⟨⟨⟩, hvalid, hframe⟩
    exact ⟨hvalid, (Except.ok.inj hframe).symm⟩
  · rintro ⟨hvalid, rfl⟩
    exact ⟨(), hvalid, rfl⟩

theorem decode_frame (endpoint : SocketAddr) (unused : List.Vector UInt8 12) :
    decodeAnnouncement (announcementFrame endpoint unused) =
      (validatePrivateEndpoint endpoint).map fun _ => received endpoint := by
  have hlength : offerMagic.length = 8 := rfl
  have hmagic : (announcementFrame endpoint unused).take 8 = offerMagic := List.take_left' hlength
  have hstart : Remaining (announcementFrame endpoint unused) 8 _ := ⟨offerMagic, rfl, hlength⟩
  have hip : announcedIp (announcementFrame endpoint unused) = .ok endpoint.ip ∧
      arrayAtIo 2 (announcementFrame endpoint unused) 25 = .ok (beBytes16 endpoint.port) := by
    have hport := List.append_nil (beBytes16 endpoint.port).val
    cases endpoint with
    | v4 octets port =>
      have hoctets := hstart.next
      have hlast := (hoctets.skip octets.property).skip unused.property
      rw [← hport] at hlast
      rw [announcedIp, hstart.getD, if_pos rfl, arrayAtIo_remaining hoctets, ok_bind]
      exact ⟨rfl, arrayAtIo_remaining hlast⟩
    | v6 octets port scopeId =>
      have hoctets := hstart.next
      have hlast := hoctets.skip octets.property
      rw [← hport] at hlast
      rw [announcedIp, hstart.getD, if_neg (by decide), if_pos rfl, arrayAtIo_remaining hoctets,
        ok_bind]
      exact ⟨rfl, arrayAtIo_remaining hlast⟩
  rw [decodeAnnouncement, if_neg (not_not.mpr hmagic), hip.1, ok_bind, hip.2, ok_bind,
    fromBe16_beBytes16, ← received, validate_received]
  cases validatePrivateEndpoint endpoint with
  | error error => rfl
  | ok valid => rfl

theorem decode_eq_ok (hlength : frame.length = offerFrameSize)
    (h : decodeAnnouncement frame = .ok endpoint) :
    validatePrivateEndpoint endpoint = .ok () ∧ received endpoint = endpoint ∧
      ∃ unused, frame = announcementFrame endpoint unused := by
  rw [offerFrameSize] at hlength
  rw [decodeAnnouncement] at h
  obtain ⟨hmagic, h⟩ := guard_eq_ok.mp h
  obtain ⟨ip, hip, h⟩ := bind_eq_ok.mp h
  obtain ⟨port, hport, h⟩ := bind_eq_ok.mp h
  obtain ⟨⟨⟩, hvalid, h⟩ := bind_eq_ok.mp h
  cases h
  refine ⟨hvalid, received_new _ _, ?_⟩
  obtain ⟨found, hfound, hportBytes⟩ := arrayAtIo_field 2 25 frame (by omega)
  obtain rfl := Except.ok.inj (hport.symm.trans hfound)
  have hsplit := List.take_append_drop 8 frame
  have hfamily := drop_getD_cons (show 8 < frame.length by omega) 0
  have htail : (frame.drop 25).take 2 = frame.drop 25 := by
    apply List.take_of_length_le
    rw [List.length_drop]
    omega
  rw [announcedIp] at hip
  split at hip
  · next hfour =>
    obtain ⟨octets, hoctets, hip⟩ := bind_eq_ok.mp hip
    cases hip
    obtain ⟨found, hfound, hbytes⟩ := arrayAtIo_field 4 9 frame (by omega)
    obtain rfl := Except.ok.inj (hoctets.symm.trans hfound)
    have hunused : ((frame.drop 13).take 12).length = 12 := by
      rw [List.length_take, List.length_drop]
      omega
    refine ⟨⟨(frame.drop 13).take 12, hunused⟩, ?_⟩
    have hfields : octets.val ++ ((frame.drop 13).take 12 ++ port.val) = frame.drop 9 := by
      rw [hbytes, hportBytes, htail, drop_take_append, drop_take_append]
    calc frame = frame.take 8 ++ (frame.getD 8 0 :: frame.drop 9) := by rw [hfamily, hsplit]
      _ = offerMagic ++ (4 :: (octets.val ++ ((frame.drop 13).take 12 ++ port.val))) := by
        rw [not_not.mp hmagic, hfour, hfields]
      _ = _ := by
        dsimp only [announcementFrame, SocketAddr.new, SocketAddr.ip, SocketAddr.port]
        rw [beBytes16_fromBe16]
  · obtain ⟨hsix, hip⟩ : frame.getD 8 0 = 6 ∧ _ := by
      split at hip
      · next hsix => exact ⟨hsix, hip⟩
      · cases hip
    obtain ⟨octets, hoctets, hip⟩ := bind_eq_ok.mp hip
    cases hip
    obtain ⟨found, hfound, hbytes⟩ := arrayAtIo_field 16 9 frame (by omega)
    obtain rfl := Except.ok.inj (hoctets.symm.trans hfound)
    refine ⟨unusedOctets, ?_⟩
    have hfields : octets.val ++ port.val = frame.drop 9 := by
      rw [hbytes, hportBytes, htail, drop_take_append]
    calc frame = frame.take 8 ++ (frame.getD 8 0 :: frame.drop 9) := by rw [hfamily, hsplit]
      _ = offerMagic ++ (6 :: (octets.val ++ port.val)) := by
        rw [not_not.mp hmagic, hsix, hfields]
      _ = _ := by
        dsimp only [announcementFrame, SocketAddr.new, SocketAddr.ip, SocketAddr.port]
        rw [beBytes16_fromBe16]

theorem readExactFrom_whole {count : Nat} (hcount : count ≤ reader.bytes.length) :
    ∃ later, readExactFrom count reader = .ok (reader.bytes.take count, later) ∧
      later.bytes = reader.bytes.drop count := by
  obtain ⟨htaken, hleft⟩ := ChunkReader.readExact_whole hcount
  refine ⟨(reader.readExact count).2, ?_, hleft⟩
  rw [readExactFrom]
  split
  · next taken later hread =>
    rw [hread] at htaken
    cases htaken
    rw [hread]
  · next later hread =>
    rw [hread] at htaken
    cases htaken

theorem readExactFrom_split {count : Nat}
    (h : readExactFrom count reader = .ok (bytes, later)) :
    bytes.length = count ∧ reader.bytes = bytes ++ later.bytes := by
  have hcount : count ≤ reader.bytes.length := by
    by_contra hshort
    have hnone := ChunkReader.readExact_short (Nat.not_le.mp hshort)
    rw [readExactFrom] at h
    split at h
    · next hread =>
      rw [hread] at hnone
      cases hnone
    · cases h
  obtain ⟨later', hread, hlater⟩ := readExactFrom_whole hcount
  rw [hread] at h
  cases h
  refine ⟨List.length_take_of_le hcount, ?_⟩
  rw [hlater, List.take_append_drop]

theorem readAnnouncement_frame (hbytes : reader.bytes = announcementFrame endpoint unused ++ rest)
    (hvalid : validatePrivateEndpoint endpoint = .ok ()) :
    ∃ later, readAnnouncement reader = .ok (received endpoint, later) ∧ later.bytes = rest := by
  have hlength := length_announcementFrame endpoint unused
  obtain ⟨later, hread, hlater⟩ := @readExactFrom_whole reader offerFrameSize
    (by rw [hbytes, List.length_append, hlength]; omega)
  rw [hbytes, List.take_left' hlength] at hread
  rw [hbytes, List.drop_left' hlength] at hlater
  refine ⟨later, ?_, hlater⟩
  rw [readAnnouncement, hread, ok_bind]
  dsimp only
  rw [decode_frame, hvalid]
  rfl

theorem readAnnouncement_split (h : readAnnouncement reader = .ok (endpoint, later)) :
    validatePrivateEndpoint endpoint = .ok () ∧ received endpoint = endpoint ∧
      ∃ unused, reader.bytes = announcementFrame endpoint unused ++ later.bytes := by
  rw [readAnnouncement] at h
  obtain ⟨⟨frame, stream⟩, hread, h⟩ := bind_eq_ok.mp h
  obtain ⟨found, hdecode, h⟩ := bind_eq_ok.mp h
  cases h
  obtain ⟨hlength, hbytes⟩ := readExactFrom_split hread
  obtain ⟨hvalid, hreceived, unused, rfl⟩ := decode_eq_ok hlength hdecode
  exact ⟨hvalid, hreceived, unused, hbytes⟩

theorem announcement_frames_exact :
    (∀ endpoint frame, encodeAnnouncement endpoint = .ok frame → frame.length = 27 ∧
      ∀ (reader : ChunkReader UInt8) (rest : List UInt8), reader.bytes = frame ++ rest →
        ∃ later, readAnnouncement reader = .ok (received endpoint, later) ∧ later.bytes = rest) ∧
    (∀ (reader later : ChunkReader UInt8) (endpoint : SocketAddr),
      readAnnouncement reader = .ok (endpoint, later) →
        received endpoint = endpoint ∧
        encodeAnnouncement endpoint = .ok (announcementFrame endpoint unusedOctets) ∧
        reader.bytes.length = 27 + later.bytes.length ∧
        ∃ unused, reader.bytes = announcementFrame endpoint unused ++ later.bytes) ∧
    ∀ endpoint error, encodeAnnouncement endpoint = .error error ↔
      validatePrivateEndpoint endpoint = .error error := by
  refine ⟨?_, ?_, ?_⟩
  · intro endpoint frame hencode
    obtain ⟨hvalid, rfl⟩ := encodeAnnouncement_eq_ok.mp hencode
    exact ⟨length_announcementFrame endpoint unusedOctets,
      fun reader rest hbytes => readAnnouncement_frame hbytes hvalid⟩
  · intro reader later endpoint hread
    obtain ⟨hvalid, hreceived, unused, hbytes⟩ := readAnnouncement_split hread
    have hlength : reader.bytes.length = 27 + later.bytes.length := by
      rw [hbytes, List.length_append, length_announcementFrame]
      rfl
    exact ⟨hreceived, encodeAnnouncement_eq_ok.mpr ⟨hvalid, rfl⟩, hlength, unused, hbytes⟩
  · intro endpoint error
    rw [encodeAnnouncement]
    cases validatePrivateEndpoint endpoint with
    | error found =>
      constructor
      · intro h
        cases h
        rfl
      · intro h
        cases h
        rfl
    | ok valid =>
      constructor
      · intro h
        cases h
      · intro h
        cases h

end ClipFerry.Product
