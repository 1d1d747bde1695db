import ClipFerry.Discovery.Packet

namespace ClipFerry.Discovery

open ByteField Checked Device Foundation Protocol Server VirtualTree

variable {label result source text : Text} {packet : Packet} {encoded : List UInt8}

theorem length_asBytes (text : Text) : (asBytes text).length = load Char.utf8Size text := by
  induction text with
  | nil => rfl
  | cons c text ih =>
    have hcons : load Char.utf8Size (c :: text) = c.utf8Size + load Char.utf8Size text := by
      rw [← List.singleton_append, load_append, load_singleton]
    rw [hcons, ← ih, asBytes, List.flatMap_cons, List.length_append, String.length_utf8EncodeChar]
    rfl

theorem pushCharacters_eq (source : Text) :
    pushCharacters result source = takeFitting Char.utf8Size labelLimit result source := by
  induction source generalizing result with
  | nil => rfl
  | cons c source ih => rw [pushCharacters, takeFitting, length_asBytes, ih]

theorem mem_cleaned {c : Char} : c ∈ cleaned label ↔ c ∈ trim label ∧ isControl c = false := by
  rw [cleaned, List.mem_filter, Bool.not_eq_true']

theorem pushCharacters_announceable (hsource : source ≠ [])
    (hprintable : ∀ c ∈ source, isControl c = false) :
    Announceable (pushCharacters [] source) := by
  rw [pushCharacters_eq]
  refine ⟨?_, ?_, ?_⟩
  · obtain ⟨c, rest, rfl⟩ := List.exists_cons_of_ne_nil hsource
    have hfour := c.utf8Size_le_four
    have hfits : load Char.utf8Size [] + c.utf8Size ≤ labelLimit := by
      rw [load_nil, labelLimit]
      omega
    have hfirst : ∃ a ∈ takeFitting Char.utf8Size labelLimit [] (c :: rest), a = c :=
      exists_mem_takeFitting.mpr ⟨[], c, rest, rfl, rfl, hfits⟩
    obtain ⟨a, ha, -⟩ := hfirst
    obtain ⟨before, after, hsplit⟩ := List.append_of_mem ha
    have hpos := a.utf8Size_pos
    rw [length_asBytes, hsplit, load_append, ← List.singleton_append, load_append, load_singleton]
    omega
  · rw [length_asBytes]
    exact load_takeFitting source (Nat.zero_le labelLimit)
  · rw [List.any_eq_false]
    intro c hc
    rw [hprintable c (takeFitting_subset source hc)]
    nofun

theorem unnamedDevice_printable : ∀ c ∈ unnamedDevice, isControl c = false := by
  have hnone : unnamedDevice.any isControl = false := by decide
  intro c hc
  exact Bool.eq_false_iff.mpr (List.any_eq_false.mp hnone c hc)

theorem boundedLabel_announceable (label : Text) : Announceable (boundedLabel label) := by
  rw [boundedLabel]
  split
  · exact pushCharacters_announceable (by decide) unnamedDevice_printable
  · next hcleaned => exact pushCharacters_announceable hcleaned fun c hc => (mem_cleaned.mp hc).2

namespace Packet

theorem new_valid {kind : UInt8} (hkind : KnownKind kind) (fingerprint : CertificateFingerprint)
    (label : Text) : (Packet.new kind fingerprint label).Valid :=
  ⟨hkind, rfl, rfl, boundedLabel_announceable label⟩

theorem encode_valid (h : packet.Valid) : packet.encode = .ok packet.bytes := by
  obtain ⟨hnonempty, hshort, -⟩ := h.label
  have hfields : ¬(¬KnownKind packet.kind ∨ packet.servicePort ≠ Settings.servicePort ∨
      packet.pairingPort ≠ Discovery.pairingPort) :=
    not_or.mpr ⟨not_not.mpr h.kind, not_or.mpr ⟨not_not.mpr h.servicePort, not_not.mpr h.pairingPort⟩⟩
  rw [labelLimit] at hshort
  rw [encode, if_neg hfields, labelLimit, if_neg (by omega), if_neg (by omega)]

theorem length_bytes (packet : Packet) :
    packet.bytes.length = headerLength + (asBytes packet.label).length := by
  have hmagic : discoveryMagic.length = 8 := by decide
  have hfingerprint := packet.fingerprint.bytes.property
  simp only [bytes, List.length_append, List.length_cons, length_toBytesLe, hmagic, hfingerprint,
    headerLength]
  omega

theorem toBytesLe_portAt {start : Nat} (h : start + 2 ≤ encoded.length) :
    toBytesLe 2 (portAt encoded start).toNat = (encoded.drop start).take 2 := by
  have hlength : ((encoded.drop start).take 2).length = 2 := by
    rw [List.length_take, List.length_drop]
    omega
  have hlt : ofBytesLe ((encoded.drop start).take 2) < 2 ^ 16 := by
    have hlt := ofBytes_lt ((encoded.drop start).take 2).reverse
    rwa [List.length_reverse, hlength] at hlt
  rw [portAt, UInt16.toNat_ofNat_of_lt' hlt, toBytesLe_ofBytesLe hlength]

theorem decode_ok (h : decode encoded = .ok packet) : packet.Valid ∧ packet.bytes = encoded := by
  rw [decode] at h
  split at h
  · cases h
  next hbounds =>
  simp only [guard_eq_ok, not_not, not_or] at h
  obtain ⟨hmagic, hversion, hkind, ⟨hservice, hpairing⟩, ⟨hnonempty, hshort, hlength⟩, h⟩ := h
  split at h
  · cases h
  next label hlabel =>
  obtain ⟨hprintable, h⟩ := guard_eq_ok.mp h
  cases h
  have hheader := Nat.not_lt.mp (not_or.mp hbounds).1
  rw [headerLength] at hheader
  have hbytes : asBytes label = encoded.drop 48 := asBytes_fromUtf8 hlabel
  have hcount : (asBytes label).length = (encoded.getD 47 0).toNat := by
    rw [hbytes, List.length_drop, hlength, headerLength]
    omega
  refine ⟨⟨hkind, hservice, hpairing, ?_, ?_, ?_⟩, ?_⟩
  · rwa [hcount]
  · rw [hcount]
    exact Nat.not_lt.mp hshort
  · exact Bool.eq_false_iff.mpr hprintable
  · have hversionBytes : toBytesLe 2 discoveryVersion = (encoded.drop 8).take 2 := by
      rw [← hversion, toBytesLe_ofBytesLe]
      rw [List.length_take, List.length_drop]
      omega
    rw [bytes]
    dsimp only
    rw [hcount, UInt8.ofNat_toNat, hbytes, drop_getD_cons (by omega), toBytesLe_portAt (by omega),
      toBytesLe_portAt (by omega), drop_take_append, drop_take_append, fingerprintAt]
    dsimp only
    rw [drop_take_append, drop_getD_cons (by omega), hversionBytes, drop_take_append, ← hmagic,
      List.take_append_drop]

theorem portAt_remaining {port : UInt16} {rest : List UInt8} {start : Nat}
    (h : Remaining encoded start (toBytesLe 2 port.toNat ++ rest)) : portAt encoded start = port := by
  rw [portAt, h.drop, List.take_left' (length_toBytesLe _ _), ofBytesLe_toBytesLe port.toNat_lt,
    UInt16.ofNat_toNat]

theorem remaining_label (packet : Packet) :
    Remaining packet.bytes headerLength (asBytes packet.label) := by
  have hmagic : Remaining packet.bytes 8 _ := ⟨discoveryMagic, rfl, by decide⟩
  have hkind := (hmagic.skip (length_toBytesLe 2 discoveryVersion)).next
  have hports := ((hkind.skip packet.fingerprint.bytes.property).skip
    (length_toBytesLe 2 packet.servicePort.toNat)).skip (length_toBytesLe 2 packet.pairingPort.toNat)
  exact hports.next

theorem decode_bytes (h : packet.Valid) : decode packet.bytes = .ok packet := by
  have hmagicLength : discoveryMagic.length = 8 := by decide
  have hmagic : Remaining packet.bytes 8 _ := ⟨discoveryMagic, rfl, hmagicLength⟩
  have hversion := hmagic.skip (length_toBytesLe 2 discoveryVersion)
  have hkind := hversion.next
  have hfingerprint := hkind.skip packet.fingerprint.bytes.property
  have hservice := hfingerprint.skip (length_toBytesLe 2 packet.servicePort.toNat)
  have hpairing := hservice.skip (length_toBytesLe 2 packet.pairingPort.toNat)
  obtain ⟨hnonempty, hshort, hprintable⟩ := h.label
  have hlength := length_bytes packet
  have hcount : (UInt8.ofNat (asBytes packet.label).length).toNat = (asBytes packet.label).length := by
    rw [labelLimit] at hshort
    exact UInt8.toNat_ofNat_of_lt' (hshort.trans_lt (by decide))
  have hbounds : ¬(packet.bytes.length < headerLength ∨ packetLimit < packet.bytes.length) := by
    rw [hlength, packetLimit]
    omega
  have hmagicAt : packet.bytes.take 8 = discoveryMagic := List.take_left' hmagicLength
  have hkindAt : packet.bytes.getD 10 0 = packet.kind := hversion.getD 0
  have hlabelAt : packet.bytes.drop headerLength = asBytes packet.label :=
    (remaining_label packet).drop
  have hversionBytes : ofBytesLe ((packet.bytes.drop 8).take 2) = discoveryVersion := by
    rw [hmagic.drop, List.take_left' (length_toBytesLe _ _), ofBytesLe_toBytesLe (by decide)]
  have hports : ¬(portAt packet.bytes 43 ≠ Settings.servicePort ∨
      portAt packet.bytes 45 ≠ Discovery.pairingPort) := by
    rw [portAt_remaining hfingerprint, portAt_remaining hservice]
    exact not_or.mpr ⟨not_not.mpr h.servicePort, not_not.mpr h.pairingPort⟩
  have hlabelLength : ¬((packet.bytes.getD 47 0).toNat = 0 ∨
      labelLimit < (packet.bytes.getD 47 0).toNat ∨
      packet.bytes.length ≠ headerLength + (packet.bytes.getD 47 0).toNat) := by
    rw [hpairing.getD, hcount]
    exact not_or.mpr ⟨hnonempty, not_or.mpr ⟨Nat.not_lt.mpr hshort, not_not.mpr hlength⟩⟩
  have hfingerprintAt : fingerprintAt packet.bytes (Nat.not_lt.mp (not_or.mp hbounds).1) =
      packet.fingerprint := by
    have htake : (packet.bytes.drop 11).take 32 = packet.fingerprint.bytes.val := by
      rw [hkind.drop, List.take_left' packet.fingerprint.bytes.property]
    exact congrArg CertificateFingerprint.mk (Subtype.ext htake)
  rw [decode, dif_neg hbounds, if_neg (not_not.mpr hmagicAt),
    if_neg (not_not.mpr hversionBytes), if_neg (not_not.mpr (hkindAt.symm ▸ h.kind)), if_neg hports,
    if_neg hlabelLength, hlabelAt, fromUtf8_asBytes]
  dsimp only
  rw [if_neg (Bool.eq_false_iff.mp hprintable), hfingerprintAt, hkindAt,
    portAt_remaining hfingerprint, portAt_remaining hservice]

end Packet

end ClipFerry.Discovery
