import Mathlib.Data.List.DropRight
import ClipFerry.Device.Fingerprint
import ClipFerry.Device.Identity

namespace ClipFerry.Device

open ByteField Checked Foundation Protocol Server VirtualTree

def trustMagic : List UInt8 := [0x43, 0x46, 0x50, 0x52, 1, 0, 0, 0]

def trustRecordLimit : Nat := 72 * 1024

def labelByteLimit : Nat := 128

structure TrustedPeer where
  fingerprint : CertificateFingerprint
  label : Text
  certificate : List UInt8
deriving DecidableEq

def isWhitespace (c : Char) : Bool :=
  (0x09 ≤ c.val && c.val ≤ 0x0d) || c.val == 0x20 || c.val == 0x85 || c.val == 0xa0 ||
    c.val == 0x1680 || (0x2000 ≤ c.val && c.val ≤ 0x200a) || c.val == 0x2028 || c.val == 0x2029 ||
    c.val == 0x202f || c.val == 0x205f || c.val == 0x3000

def trim (text : Text) : Text := (text.dropWhile isWhitespace).rdropWhile isWhitespace

def validateLabel (label : Text) : Except IoError Text :=
  if trim label = [] ∨ labelByteLimit < (asBytes (trim label)).length ∨
      (trim label).any isControl = true then
    .error (invalidData
      s!"peer label must contain 1 to {labelByteLimit} UTF-8 bytes without control characters")
  else .ok (trim label)

def trustRecord (certificate : List UInt8) (label : Text) : List UInt8 :=
  trustMagic ++ (toBytesLe 4 certificate.length ++ (toBytesLe 2 (asBytes label).length ++
    (certificate ++ asBytes label)))

def encodeTrustRecord (peer : TrustedPeer) : Except IoError (List UInt8) := do
  validateCertificate peer.certificate
  let label ← validateLabel peer.label
  if 2 ^ 32 ≤ peer.certificate.length then
    .error (invalidData "certificate length does not fit the trust format") else
  if 2 ^ 16 ≤ (asBytes label).length then
    .error (invalidData "peer label length does not fit the trust format") else
  if 2 ^ 64 ≤ 14 + peer.certificate.length + (asBytes label).length then
    .error (invalidData "trusted peer length overflow") else
  .ok (trustRecord peer.certificate label)

def decodePeer (digest : List UInt8 → Secret) (encoded : List UInt8)
    (expected : CertificateFingerprint) : Except IoError TrustedPeer := do
  if encoded.length < 14 ∨ encoded.take 8 ≠ trustMagic then
    .error (invalidData "unsupported or corrupt trusted peer record") else
  let certificateLength ← readU32 ((encoded.drop 8).take 4)
  let labelLength := ofBytesLe ((encoded.drop 12).take 2)
  if 2 ^ 64 ≤ 14 + certificateLength + labelLength then
    .error (invalidData "trusted peer record length overflow") else
  if encoded.length ≠ 14 + certificateLength + labelLength then
    .error (invalidData "trusted peer record length mismatch") else
  let certificate := (encoded.drop 14).take certificateLength
  validateCertificate certificate
  if (⟨digest certificate⟩ : CertificateFingerprint) ≠ expected then
    .error (invalidData ("trusted peer record fingerprint mismatch: filename " ++
      .ofList (CertificateFingerprint.display expected) ++ ", certificate " ++
      .ofList (CertificateFingerprint.display ⟨digest certificate⟩))) else
  match fromUtf8 (encoded.drop (14 + certificateLength)) with
  | .error _ => .error (invalidData "trusted peer label is not valid UTF-8")
  | .ok text => do
    let label ← validateLabel text
    .ok ⟨⟨digest certificate⟩, label, certificate⟩

def decodePeerFile (digest : List UInt8 → Secret) (directory : Directory) (path : Text)
    (expected : CertificateFingerprint) : Except IoError TrustedPeer := do
  let encoded ← readBounded directory path trustRecordLimit "trusted peer record"
  decodePeer digest encoded expected

theorem trim_trim (text : Text) : trim (trim text) = trim text := by
  have hhead : (trim text).dropWhile isWhitespace = trim text := by
    rw [List.dropWhile_eq_self_iff]
    intro hlength hspace
    have hprefix : trim text <+: text.dropWhile isWhitespace := List.rdropWhile_prefix _ _
    have hne : text.dropWhile isWhitespace ≠ [] :=
      List.ne_nil_of_length_pos (hlength.trans_le hprefix.length_le)
    have hfirst := List.head_dropWhile_not isWhitespace hne
    rw [List.head_eq_getElem, ← hprefix.getElem hlength, hspace] at hfirst
    cases hfirst
  rw [trim, hhead]
  exact List.rdropWhile_idempotent _ _

structure ValidPeer (digest : List UInt8 → Secret) (peer : TrustedPeer) : Prop where
  fingerprint : peer.fingerprint = ⟨digest peer.certificate⟩
  certificate : validateCertificate peer.certificate = .ok ()
  label : validateLabel peer.label = .ok peer.label

variable {digest : List UInt8 → Secret} {label text : Text} {peer : TrustedPeer}
  {encoded : List UInt8}

theorem validateLabel_eq_ok : validateLabel label = .ok text ↔
    trim label = text ∧ text ≠ [] ∧ (asBytes text).length ≤ labelByteLimit ∧
      text.any isControl = false := by
  rw [validateLabel, guard_eq_ok, Except.ok.injEq, not_or, not_or, Nat.not_lt,
    Bool.not_eq_true]
  constructor
  · rintro ⟨hvalid, rfl⟩
    exact ⟨rfl, hvalid⟩
  · rintro ⟨rfl, hvalid⟩
    exact ⟨hvalid, rfl⟩

theorem validateLabel_validateLabel (h : validateLabel label = .ok text) :
    validateLabel text = .ok text := by
  obtain ⟨rfl, hvalid⟩ := validateLabel_eq_ok.mp h
  exact validateLabel_eq_ok.mpr ⟨trim_trim label, hvalid⟩

theorem encodeTrustRecord_eq (h : ValidPeer digest peer) :
    encodeTrustRecord peer = .ok (trustRecord peer.certificate peer.label) := by
  have hcertificate := (validateCertificate_eq_ok.mp h.certificate).2
  have hlabel := (validateLabel_eq_ok.mp h.label).2.2.1
  rw [certificateLimit] at hcertificate
  rw [labelByteLimit] at hlabel
  rw [encodeTrustRecord, h.certificate, ok_bind, h.label, ok_bind, if_neg (by omega),
    if_neg (by omega), if_neg (by omega)]

theorem length_encodeTrustRecord (h : ValidPeer digest peer)
    (hencoded : encodeTrustRecord peer = .ok encoded) :
    encoded.length = 14 + peer.certificate.length + (asBytes peer.label).length ∧
      encoded.length ≤ trustRecordLimit := by
  have hcertificate := (validateCertificate_eq_ok.mp h.certificate).2
  have hlabel := (validateLabel_eq_ok.mp h.label).2.2.1
  have hmagic : trustMagic.length = 8 := rfl
  rw [certificateLimit] at hcertificate
  rw [labelByteLimit] at hlabel
  rw [encodeTrustRecord_eq h] at hencoded
  cases hencoded
  simp only [trustRecord, List.length_append, length_toBytesLe, hmagic, trustRecordLimit]
  omega

theorem decodePeer_encodeTrustRecord (h : ValidPeer digest peer)
    (hencoded : encodeTrustRecord peer = .ok encoded) :
    decodePeer digest encoded peer.fingerprint = .ok peer := by
  obtain ⟨hlength, -⟩ := length_encodeTrustRecord h hencoded
  have hcertificate := (validateCertificate_eq_ok.mp h.certificate).2
  have hlabel := (validateLabel_eq_ok.mp h.label).2.2.1
  rw [certificateLimit] at hcertificate
  rw [labelByteLimit] at hlabel
  rw [encodeTrustRecord_eq h, Except.ok.injEq, trustRecord] at hencoded
  have hmagic : Remaining encoded 8 _ := ⟨trustMagic, hencoded.symm, rfl⟩
  have hfirst := hmagic.skip (length_toBytesLe 4 peer.certificate.length)
  have hsecond := hfirst.skip (length_toBytesLe 2 (asBytes peer.label).length)
  have hlabelLength : ofBytesLe ((toBytesLe 2 (asBytes peer.label).length ++
      (peer.certificate ++ asBytes peer.label)).take 2) = (asBytes peer.label).length := by
    rw [List.take_left' (length_toBytesLe _ _), ofBytesLe_toBytesLe (by omega)]
  have hshort : ¬(encoded.length < 14 ∨ encoded.take 8 ≠ trustMagic) := by
    rw [← hencoded, not_or, not_not]
    refine ⟨?_, rfl⟩
    rw [hencoded]
    omega
  have hfingerprint : ¬((⟨digest peer.certificate⟩ : CertificateFingerprint) ≠ peer.fingerprint) :=
    not_not.mpr h.fingerprint.symm
  rw [decodePeer, if_neg hshort, hmagic.drop, readU32_toBytesLe (by omega), ok_bind, hfirst.drop]
  dsimp only
  rw [hlabelLength, if_neg (by omega), if_neg (not_not.mpr hlength), hsecond.drop,
    List.take_left, h.certificate, ok_bind, if_neg hfingerprint, hsecond.advance.drop,
    fromUtf8_asBytes]
  dsimp only
  rw [h.label, ok_bind, ← h.fingerprint]

theorem decodePeerFile_eq_ok {directory : Directory} {path : Text} (h : ValidPeer digest peer)
    (hencoded : encodeTrustRecord peer = .ok encoded) (hread : directory.read path = some encoded) :
    decodePeerFile digest directory path peer.fingerprint = .ok peer := by
  obtain ⟨hlength, hlimit⟩ := length_encodeTrustRecord h hencoded
  have hnonempty : encoded ≠ [] := by
    rintro rfl
    rw [List.length_nil] at hlength
    omega
  rw [decodePeerFile, readBounded_eq_ok.mpr ⟨hread, hnonempty, hlimit⟩, ok_bind,
    decodePeer_encodeTrustRecord h hencoded]

end ClipFerry.Device
