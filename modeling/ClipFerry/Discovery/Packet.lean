import ClipFerry.Foundation.Fitting
import ClipFerry.Settings.Reconcile

namespace ClipFerry.Discovery

open ByteField Checked Device Foundation Protocol Server VirtualTree

def pairingPort : UInt16 := 45232

def discoveryMagic : List UInt8 := asBytes "CFDISC01".toList

def discoveryVersion : Nat := 1

def announcement : UInt8 := 1

def response : UInt8 := 2

def headerLength : Nat := 8 + 2 + 1 + 32 + 2 + 2 + 1

def labelLimit : Nat := 63

def packetLimit : Nat := headerLength + labelLimit

def unnamedDevice : Text := "Windows 设备".toList

def cleaned (label : Text) : Text := (trim label).filter fun character => !isControl character

def pushCharacters (result : Text) : Text → Text
  | [] => result
  | character :: rest =>
    if labelLimit < (asBytes result).length + character.utf8Size then result
    else pushCharacters (result ++ [character]) rest

def boundedLabel (label : Text) : Text :=
  pushCharacters [] (if cleaned label = [] then unnamedDevice else cleaned label)

structure Packet where
  kind : UInt8
  fingerprint : CertificateFingerprint
  servicePort : UInt16
  pairingPort : UInt16
  label : Text
deriving DecidableEq

def KnownKind (kind : UInt8) : Prop := kind = announcement ∨ kind = response

instance (kind : UInt8) : Decidable (KnownKind kind) := inferInstanceAs (Decidable (_ ∨ _))

namespace Packet

def new (kind : UInt8) (fingerprint : CertificateFingerprint) (label : Text) : Packet :=
  ⟨kind, fingerprint, Settings.servicePort, Discovery.pairingPort, boundedLabel label⟩

def bytes (packet : Packet) : List UInt8 :=
  discoveryMagic ++ (toBytesLe 2 discoveryVersion ++ (packet.kind ::
    (packet.fingerprint.bytes.val ++ (toBytesLe 2 packet.servicePort.toNat ++
      (toBytesLe 2 packet.pairingPort.toNat ++
        (UInt8.ofNat (asBytes packet.label).length :: asBytes packet.label))))))

def encode (packet : Packet) : Except IoError (List UInt8) :=
  if ¬KnownKind packet.kind ∨ packet.servicePort ≠ Settings.servicePort ∨
      packet.pairingPort ≠ Discovery.pairingPort then
    .error (invalidData "invalid discovery packet fields")
  else if (asBytes packet.label).length = 0 ∨ labelLimit < (asBytes packet.label).length then
    .error (invalidData "invalid discovery device label")
  else if 2 ^ 8 ≤ (asBytes packet.label).length then
    .error (invalidData "discovery device label is too long")
  else .ok packet.bytes

def fingerprintAt (encoded : List UInt8) (h : headerLength ≤ encoded.length) :
    CertificateFingerprint :=
  ⟨⟨(encoded.drop 11).take 32, by
    rw [headerLength] at h
    rw [List.length_take, List.length_drop]
    omega⟩⟩

def portAt (encoded : List UInt8) (start : Nat) : UInt16 :=
  .ofNat (ofBytesLe ((encoded.drop start).take 2))

def decode (encoded : List UInt8) : Except IoError Packet :=
  if hlength : encoded.length < headerLength ∨ packetLimit < encoded.length then
    .error (invalidData "invalid discovery packet length")
  else if encoded.take 8 ≠ discoveryMagic then
    .error (invalidData "discovery packet magic mismatch")
  else if ofBytesLe ((encoded.drop 8).take 2) ≠ discoveryVersion then
    .error (invalidData "unsupported discovery packet version")
  else if ¬KnownKind (encoded.getD 10 0) then
    .error (invalidData "unknown discovery packet kind")
  else if portAt encoded 43 ≠ Settings.servicePort ∨ portAt encoded 45 ≠ Discovery.pairingPort then
    .error (invalidData "discovery packet contains unsupported service ports")
  else if (encoded.getD 47 0).toNat = 0 ∨ labelLimit < (encoded.getD 47 0).toNat ∨
      encoded.length ≠ headerLength + (encoded.getD 47 0).toNat then
    .error (invalidData "invalid discovery device label length")
  else match fromUtf8 (encoded.drop headerLength) with
  | .error _ => .error (invalidData "discovery device label is not UTF-8")
  | .ok label =>
    if label.any isControl = true then
      .error (invalidData "discovery device label contains control characters")
    else .ok ⟨encoded.getD 10 0, fingerprintAt encoded (Nat.not_lt.mp (not_or.mp hlength).1),
      portAt encoded 43, portAt encoded 45, label⟩

end Packet

structure Announceable (label : Text) : Prop where
  nonempty : (asBytes label).length ≠ 0
  short : (asBytes label).length ≤ labelLimit
  printable : label.any isControl = false

structure Packet.Valid (packet : Packet) : Prop where
  kind : KnownKind packet.kind
  servicePort : packet.servicePort = Settings.servicePort
  pairingPort : packet.pairingPort = Discovery.pairingPort
  label : Announceable packet.label

end ClipFerry.Discovery
