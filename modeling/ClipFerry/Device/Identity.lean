import ClipFerry.Device.ReadBounded
import ClipFerry.Protocol.Manifest
import ClipFerry.Server.Session

namespace ClipFerry.Device

open ByteField Checked Foundation Protocol Server VirtualTree

def identityFile : Text := "identity.dpapi".toList

def identityMagic : List UInt8 := [0x43, 0x46, 0x49, 0x44, 1, 0, 0, 0]

def dpapiEntropy : List UInt8 := asBytes "ClipFerry device identity v1".toList

def certificateLimit : Nat := 64 * 1024

def privateKeyLimit : Nat := 64 * 1024

def identityPlaintextLimit : Nat := 2 * 64 * 1024 + 16

def identityProtectedLimit : Nat := 256 * 1024

structure TlsIdentity where
  certificate : List UInt8
  privateKey : List UInt8
  fingerprint : CertificateFingerprint

structure StoredIdentity where
  identity : TlsIdentity
  created : Bool

def validateCertificate (certificate : List UInt8) : Except IoError Unit :=
  if certificate.length = 0 ∨ certificateLimit < certificate.length then
    .error (invalidData s!"certificate length must be between 1 and {certificateLimit} bytes")
  else .ok ()

def readU32 (bytes : List UInt8) : Except IoError Nat :=
  if bytes.length = 4 then .ok (ofBytesLe bytes) else .error (invalidData "truncated length field")

def encodeIdentityBundle (certificate privateKey : List UInt8) : Except IoError (List UInt8) := do
  validateCertificate certificate
  if privateKey.length = 0 ∨ privateKeyLimit < privateKey.length then
    .error (invalidData s!"private key length must be between 1 and {privateKeyLimit} bytes") else
  if 2 ^ 32 ≤ certificate.length then
    .error (invalidData "certificate length does not fit the identity format") else
  if 2 ^ 32 ≤ privateKey.length then
    .error (invalidData "private key length does not fit the identity format") else
  if 2 ^ 64 ≤ 16 + certificate.length + privateKey.length then
    .error (invalidData "identity length overflow") else
  .ok (identityMagic ++ (toBytesLe 4 certificate.length ++ (toBytesLe 4 privateKey.length ++
    (certificate ++ privateKey))))

def decodeIdentityBundle (encoded : List UInt8) :
    Except IoError (List UInt8 × List UInt8) := do
  if encoded.length < 16 ∨ encoded.take 8 ≠ identityMagic then
    .error (invalidData "unsupported or corrupt device identity") else
  let certificateLength ← readU32 ((encoded.drop 8).take 4)
  let privateKeyLength ← readU32 ((encoded.drop 12).take 4)
  if 2 ^ 64 ≤ 16 + certificateLength + privateKeyLength then
    .error (invalidData "identity length overflow") else
  if encoded.length ≠ 16 + certificateLength + privateKeyLength then
    .error (invalidData "device identity length mismatch") else
  let certificate := (encoded.drop 16).take certificateLength
  let privateKey := encoded.drop (16 + certificateLength)
  validateCertificate certificate
  if privateKey.length = 0 ∨ privateKeyLimit < privateKey.length then
    .error (invalidData "private key length is outside the allowed bounds") else
  .ok (certificate, privateKey)

/-! DPAPI: what `CryptProtectData` may put out for an input under an entropy (`none` is a null
buffer), and what `CryptUnprotectData` puts out. -/

structure Dpapi where
  protects : List UInt8 → List UInt8 → Option (List UInt8) → Prop
  unprotect : List UInt8 → List UInt8 → Except String (Option (List UInt8))

def Dpapi.Inverts (dpapi : Dpapi) : Prop :=
  ∀ input entropy output, dpapi.protects input entropy (some output) →
    dpapi.unprotect output entropy = .ok (some input)

def inputBlob (bytes : List UInt8) : Except IoError (List UInt8) :=
  if 2 ^ 32 ≤ bytes.length then .error (invalidData "DPAPI input is too large") else .ok bytes

def copyLocalBlob (blob : Option (List UInt8)) (limit : Nat) (description : String) :
    Except IoError (List UInt8) :=
  match blob with
  | none => .error (invalidData s!"{description} length must be between 1 and {limit} bytes")
  | some bytes =>
    if bytes.length = 0 ∨ limit < bytes.length then
      .error (invalidData s!"{description} length must be between 1 and {limit} bytes")
    else .ok bytes

def protectForCurrentUser (cleartext : List UInt8) (output : Option (List UInt8)) :
    Except IoError (List UInt8) := do
  let _ ← inputBlob cleartext
  let _ ← inputBlob dpapiEntropy
  copyLocalBlob output identityProtectedLimit "protected identity"

def unprotectForCurrentUser (dpapi : Dpapi) (protectedBytes : List UInt8) :
    Except IoError (List UInt8) := do
  let input ← inputBlob protectedBytes
  let entropy ← inputBlob dpapiEntropy
  match dpapi.unprotect input entropy with
  | .error error => .error (invalidData s!"DPAPI unprotection failed: {error}")
  | .ok output => copyLocalBlob output identityPlaintextLimit "identity plaintext"

def fromDer (digest : List UInt8 → Secret) (certificate privateKey : List UInt8) :
    Except IoError TlsIdentity :=
  if certificate = [] ∨ privateKey = [] then
    .error (invalidData "certificate and private key must not be empty")
  else .ok ⟨certificate, privateKey, ⟨digest certificate⟩⟩

def identityFromProtected (dpapi : Dpapi) (digest : List UInt8 → Secret)
    (protectedBytes : List UInt8) : Except IoError TlsIdentity := do
  let cleartext ← unprotectForCurrentUser dpapi protectedBytes
  let (certificate, privateKey) ← decodeIdentityBundle cleartext
  fromDer digest certificate privateKey

def loadIdentity (dpapi : Dpapi) (digest : List UInt8 → Secret) (directory : Directory) :
    Except IoError TlsIdentity := do
  let protectedBytes ← readBounded directory identityFile identityProtectedLimit
    "protected identity"
  identityFromProtected dpapi digest protectedBytes

variable {certificate privateKey encoded bytes : List UInt8}

theorem validateCertificate_eq_ok : validateCertificate certificate = .ok () ↔
    certificate.length ≠ 0 ∧ certificate.length ≤ certificateLimit := by
  rw [validateCertificate, guard_eq_ok, not_or, Nat.not_lt, and_iff_left rfl]

theorem encodeIdentityBundle_eq_ok : encodeIdentityBundle certificate privateKey = .ok encoded ↔
    (certificate.length ≠ 0 ∧ certificate.length ≤ certificateLimit) ∧
      (privateKey.length ≠ 0 ∧ privateKey.length ≤ privateKeyLimit) ∧
      identityMagic ++ (toBytesLe 4 certificate.length ++ (toBytesLe 4 privateKey.length ++
        (certificate ++ privateKey))) = encoded := by
  rw [encodeIdentityBundle, bind_eq_ok]
  simp only [guard_eq_ok, not_or, Except.ok.injEq]
  constructor
  · rintro ⟨⟨⟩, hcertificate, ⟨hnonempty, hfits⟩, -, -, -, rfl⟩
    exact ⟨validateCertificate_eq_ok.mp hcertificate, ⟨hnonempty, Nat.not_lt.mp hfits⟩, rfl⟩
  · rintro ⟨hcertificate, ⟨hnonempty, hfits⟩, rfl⟩
    refine ⟨(), validateCertificate_eq_ok.mpr hcertificate, ⟨hnonempty, Nat.not_lt.mpr hfits⟩,
      ?_, ?_, ?_, rfl⟩
    all_goals
      rw [certificateLimit] at hcertificate
      rw [privateKeyLimit] at hfits
      omega

theorem readU32_toBytesLe {n : Nat} (h : n < 2 ^ 32) (rest : List UInt8) :
    readU32 ((toBytesLe 4 n ++ rest).take 4) = .ok n := by
  have htake : (toBytesLe 4 n ++ rest).take 4 = toBytesLe 4 n := by
    rw [List.take_left' (length_toBytesLe 4 n)]
  rw [htake, readU32, if_pos (length_toBytesLe 4 n), ofBytesLe_toBytesLe (by simpa using h)]

theorem decodeIdentityBundle_encodeIdentityBundle
    (h : encodeIdentityBundle certificate privateKey = .ok encoded) :
    decodeIdentityBundle encoded = .ok (certificate, privateKey) := by
  obtain ⟨hcertificate, ⟨hnonempty, hfits⟩, hencoded⟩ := encodeIdentityBundle_eq_ok.mp h
  have hmagic : Remaining encoded 8 _ := ⟨identityMagic, hencoded.symm, rfl⟩
  have hfirst := hmagic.skip (length_toBytesLe 4 certificate.length)
  have hsecond := hfirst.skip (length_toBytesLe 4 privateKey.length)
  have hlength : encoded.length = 16 + certificate.length + privateKey.length := by
    rw [← List.take_append_drop 16 encoded, hsecond.drop, List.length_append, List.length_take,
      List.length_append, ← hencoded]
    simp [identityMagic]
    omega
  have hhead : encoded.take 8 = identityMagic := by
    rw [← hencoded]
    rfl
  have hcertificate' := hcertificate.2
  rw [certificateLimit] at hcertificate'
  have hfits' := hfits
  rw [privateKeyLimit] at hfits'
  have hshort : ¬(encoded.length < 16 ∨ encoded.take 8 ≠ identityMagic) := by
    rw [hhead, not_or, not_not]
    exact ⟨by omega, rfl⟩
  rw [decodeIdentityBundle, if_neg hshort, hmagic.drop,
    readU32_toBytesLe (by omega), ok_bind, hfirst.drop, readU32_toBytesLe (by omega), ok_bind,
    if_neg (by omega), if_neg (not_not.mpr hlength), hsecond.drop, hsecond.advance.drop,
    List.take_left]
  dsimp only
  rw [validateCertificate_eq_ok.mpr hcertificate, ok_bind,
    if_neg (not_or.mpr ⟨hnonempty, Nat.not_lt.mpr hfits⟩)]

theorem length_encodeIdentityBundle (h : encodeIdentityBundle certificate privateKey = .ok encoded) :
    0 < encoded.length ∧ encoded.length ≤ identityPlaintextLimit := by
  obtain ⟨hcertificate, hkey, rfl⟩ := encodeIdentityBundle_eq_ok.mp h
  have hmagic : identityMagic.length = 8 := rfl
  rw [certificateLimit] at hcertificate
  rw [privateKeyLimit] at hkey
  rw [identityPlaintextLimit]
  simp only [List.length_append, length_toBytesLe, hmagic]
  omega

theorem inputBlob_eq_ok {input : List UInt8} :
    inputBlob bytes = .ok input ↔ bytes.length < 2 ^ 32 ∧ bytes = input := by
  rw [inputBlob, guard_eq_ok, Nat.not_le, Except.ok.injEq]

theorem copyLocalBlob_eq_ok {blob : Option (List UInt8)} {limit : Nat} {description : String} :
    copyLocalBlob blob limit description = .ok bytes ↔
      blob = some bytes ∧ bytes.length ≠ 0 ∧ bytes.length ≤ limit := by
  cases blob with
  | none => simp [copyLocalBlob]
  | some found =>
    rw [copyLocalBlob, guard_eq_ok, not_or, Nat.not_lt, Except.ok.injEq, Option.some.injEq]
    constructor
    · rintro ⟨hlength, rfl⟩
      exact ⟨rfl, hlength⟩
    · rintro ⟨rfl, hlength⟩
      exact ⟨hlength, rfl⟩

theorem protectForCurrentUser_eq_ok {output : Option (List UInt8)}
    (h : protectForCurrentUser encoded output = .ok bytes) :
    output = some bytes ∧ bytes.length ≠ 0 ∧ bytes.length ≤ identityProtectedLimit := by
  obtain ⟨-, -, h⟩ := bind_eq_ok.mp h
  obtain ⟨-, -, h⟩ := bind_eq_ok.mp h
  exact copyLocalBlob_eq_ok.mp h

theorem identityFromProtected_encoded {dpapi : Dpapi} (digest : List UInt8 → Secret)
    (hdpapi : dpapi.Inverts) (hencoded : encodeIdentityBundle certificate privateKey = .ok encoded)
    {output : Option (List UInt8)} (hprotects : dpapi.protects encoded dpapiEntropy output)
    (hbytes : protectForCurrentUser encoded output = .ok bytes) :
    identityFromProtected dpapi digest bytes =
      .ok ⟨certificate, privateKey, ⟨digest certificate⟩⟩ := by
  obtain ⟨rfl, hnonempty, hlimit⟩ := protectForCurrentUser_eq_ok hbytes
  obtain ⟨hsome, hfits⟩ := length_encodeIdentityBundle hencoded
  obtain ⟨hcertificate, hkey, -⟩ := encodeIdentityBundle_eq_ok.mp hencoded
  have hsmall : bytes.length < 2 ^ 32 := by
    rw [identityProtectedLimit] at hlimit
    omega
  have hentropy : dpapiEntropy.length < 2 ^ 32 := by decide
  have hcleartext : unprotectForCurrentUser dpapi bytes = .ok encoded := by
    rw [unprotectForCurrentUser, inputBlob_eq_ok.mpr ⟨hsmall, rfl⟩, ok_bind,
      inputBlob_eq_ok.mpr ⟨hentropy, rfl⟩, ok_bind, hdpapi _ _ _ hprotects]
    exact copyLocalBlob_eq_ok.mpr ⟨rfl, Nat.ne_of_gt hsome, hfits⟩
  rw [identityFromProtected, hcleartext, ok_bind,
    decodeIdentityBundle_encodeIdentityBundle hencoded, ok_bind]
  refine if_neg (not_or.mpr ⟨?_, ?_⟩)
  · rintro rfl
    exact hcertificate.1 rfl
  · rintro rfl
    exact hkey.1 rfl

end ClipFerry.Device
