import ClipFerry.Protocol.Manifest
import ClipFerry.Server.Session

namespace ClipFerry.Pairing

open ByteField Checked Protocol Server VirtualTree

def helloMagic : List UInt8 := asBytes "CFPAIR01".toList

def proofMagic : List UInt8 := asBytes "CFPROOF1".toList

def confirmMagic : List UInt8 := asBytes "CFPCNF01".toList

def transcriptDomain : List UInt8 := asBytes "ClipFerry pairing transcript v1".toList

def pairingVersion : Nat := 1

def certificateLimit : Nat := 64 * 1024

def helloHeaderLength : Nat := 8 + 2 + 1 + 32 + 4

inductive Role where
  | listener
  | connector
deriving DecidableEq, Repr

namespace Role

def code : Role → UInt8
  | listener => 1
  | connector => 2

def tryFrom (value : UInt8) : Except IoError Role :=
  if value = 1 then .ok listener
  else if value = 2 then .ok connector
  else .error (invalidData "pairing hello contains an unknown role")

def other : Role → Role
  | listener => connector
  | connector => listener

theorem tryFrom_code (role : Role) : tryFrom role.code = .ok role := by
  cases role <;> rfl

theorem code_of_tryFrom {role : Role} {value : UInt8} (h : tryFrom value = .ok role) :
    role.code = value := by
  rw [tryFrom] at h
  split at h
  · next hlistener =>
    cases h
    exact hlistener.symm
  · split at h
    · next hconnector =>
      cases h
      exact hconnector.symm
    · cases h

end Role

structure Hello where
  role : Role
  nonce : Secret
  certificate : List UInt8
deriving DecidableEq

def validateCertificate (certificate : List UInt8) : Except IoError Unit :=
  if certificate.length = 0 ∨ certificateLimit < certificate.length then
    .error (invalidData
      s!"pairing certificate length must be between 1 and {certificateLimit} bytes")
  else .ok ()

def readExact (count : Nat) (stream : List UInt8) :
    Except IoError (List UInt8 × List UInt8) :=
  if stream.length < count then .error unexpectedEof
  else .ok (stream.take count, stream.drop count)

namespace Hello

def create (role : Role) (certificate : List UInt8) (nonce : Secret) : Except IoError Hello := do
  validateCertificate certificate
  .ok ⟨role, nonce, certificate⟩

def header (hello : Hello) : List UInt8 :=
  helloMagic ++ (toBytesLe 2 pairingVersion ++ (hello.role.code :: (hello.nonce.val ++
    toBytesLe 4 hello.certificate.length)))

def bytes (hello : Hello) : List UInt8 := hello.header ++ hello.certificate

def encode (hello : Hello) : Except IoError (List UInt8) :=
  if 2 ^ 32 ≤ hello.certificate.length then
    .error (invalidData "pairing certificate length does not fit the protocol")
  else .ok hello.bytes

def ofHeader (header : List UInt8) (expectedRole : Role) : Except IoError (Role × Secret × Nat) := do
  if header.take 8 ≠ helloMagic then .error (invalidData "pairing hello magic mismatch") else
  let version := ofBytesLe ((header.drop 8).take 2)
  if version ≠ pairingVersion then
    .error (invalidData s!"unsupported pairing version {version}") else
  let role ← Role.tryFrom (header.getD 10 0)
  if role ≠ expectedRole then .error (invalidData "pairing hello role mismatch") else
  let nonce ← arrayAtIo 32 header 11
  let certificateLength := ofBytesLe ((header.drop 43).take 4)
  if certificateLength = 0 ∨ certificateLimit < certificateLength then
    .error (invalidData
      s!"pairing certificate length must be between 1 and {certificateLimit} bytes") else
  .ok (role, nonce, certificateLength)

def readFrom (stream : List UInt8) (expectedRole : Role) :
    Except IoError (Hello × List UInt8) := do
  let (header, body) ← readExact helloHeaderLength stream
  let (role, nonce, certificateLength) ← ofHeader header expectedRole
  let (certificate, rest) ← readExact certificateLength body
  .ok (⟨role, nonce, certificate⟩, rest)

structure WellFormed (hello : Hello) : Prop where
  nonempty : hello.certificate.length ≠ 0
  short : hello.certificate.length ≤ certificateLimit

end Hello

variable {hello : Hello} {stream rest : List UInt8} {role : Role}

theorem validateCertificate_eq_ok {certificate : List UInt8} :
    validateCertificate certificate = .ok () ↔
      certificate.length ≠ 0 ∧ certificate.length ≤ certificateLimit := by
  rw [validateCertificate, guard_eq_ok, not_or, Nat.not_lt, and_iff_left rfl]

theorem readExact_eq_ok {count : Nat} {front : List UInt8}
    (h : readExact count stream = .ok (front, rest)) :
    front.length = count ∧ stream = front ++ rest := by
  obtain ⟨henough, h⟩ := guard_eq_ok.mp h
  cases h
  exact ⟨List.length_take_of_le (Nat.not_lt.mp henough), (List.take_append_drop count stream).symm⟩

theorem readExact_append {count : Nat} {front : List UInt8} (h : front.length = count) :
    readExact count (front ++ rest) = .ok (front, rest) := by
  rw [readExact, if_neg (by rw [List.length_append]; omega), List.take_left' h, List.drop_left' h]

namespace Hello

theorem ofHeader_eq_ok {header : List UInt8} {nonce : Secret} {certificateLength : Nat}
    {found : Role} (h : ofHeader header role = .ok (found, nonce, certificateLength)) :
    header.take 8 = helloMagic ∧ ofBytesLe ((header.drop 8).take 2) = pairingVersion ∧
      Role.tryFrom (header.getD 10 0) = .ok found ∧ found = role ∧
      arrayAtIo 32 header 11 = .ok nonce ∧
      ofBytesLe ((header.drop 43).take 4) = certificateLength ∧
      certificateLength ≠ 0 ∧ certificateLength ≤ certificateLimit := by
  rw [ofHeader, guard_eq_ok] at h
  obtain ⟨hmagic, h⟩ := h
  dsimp only at h
  rw [guard_eq_ok] at h
  obtain ⟨hversion, h⟩ := h
  obtain ⟨found', hfound, h⟩ := bind_eq_ok.mp h
  obtain ⟨hrole, h⟩ := guard_eq_ok.mp h
  obtain ⟨nonce', hnonce, h⟩ := bind_eq_ok.mp h
  obtain ⟨hlength, h⟩ := guard_eq_ok.mp h
  obtain ⟨hnonempty, hshort⟩ := not_or.mp hlength
  cases h
  exact ⟨not_not.mp hmagic, not_not.mp hversion, hfound, not_not.mp hrole, hnonce, rfl, hnonempty,
    Nat.not_lt.mp hshort⟩

theorem length_header (hello : Hello) : hello.header.length = helloHeaderLength := by
  have hmagic : helloMagic.length = 8 := by decide
  have hnonce := hello.nonce.property
  simp only [header, List.length_append, List.length_cons, length_toBytesLe, hmagic, hnonce,
    helloHeaderLength]

theorem header_of_ofHeader {header : List UInt8} {nonce : Secret} {certificate : List UInt8}
    {found : Role} (h : ofHeader header role = .ok (found, nonce, certificate.length))
    (hlength : header.length = helloHeaderLength) :
    header = Hello.header ⟨found, nonce, certificate⟩ := by
  obtain ⟨hmagic, hversion, hfound, -, hnonce, hcount, -, -⟩ := ofHeader_eq_ok h
  rw [helloHeaderLength] at hlength
  have hversionBytes : toBytesLe 2 pairingVersion = (header.drop 8).take 2 := by
    rw [← hversion, toBytesLe_ofBytesLe]
    rw [List.length_take, List.length_drop]
    omega
  have hcountBytes : toBytesLe 4 certificate.length = header.drop 43 := by
    rw [← hcount, toBytesLe_ofBytesLe]
    · exact List.take_of_length_le (by rw [List.length_drop]; omega)
    · rw [List.length_take, List.length_drop]
      omega
  have hcode : found.code = header.getD 10 0 := Role.code_of_tryFrom hfound
  have hnonceBytes : nonce.val ++ header.drop 43 = header.drop 11 := (arrayAtIo_eq_ok hnonce).symm
  rw [Hello.header]
  dsimp only
  rw [hcountBytes, hnonceBytes, hcode, drop_getD_cons (by omega), hversionBytes, drop_take_append,
    ← hmagic, List.take_append_drop]

theorem readFrom_ok (h : readFrom stream role = .ok (hello, rest)) :
    hello.role = role ∧ hello.WellFormed ∧ stream = hello.bytes ++ rest := by
  obtain ⟨⟨header, body⟩, hfront, h⟩ := bind_eq_ok.mp h
  obtain ⟨⟨found, nonce, certificateLength⟩, hheader, h⟩ := bind_eq_ok.mp h
  obtain ⟨⟨certificate, rest'⟩, hbody, h⟩ := bind_eq_ok.mp h
  cases h
  obtain ⟨hheaderLength, rfl⟩ := readExact_eq_ok hfront
  obtain ⟨rfl, rfl⟩ := readExact_eq_ok hbody
  obtain ⟨-, -, -, hrole, -, -, hnonempty, hshort⟩ := ofHeader_eq_ok hheader
  refine ⟨hrole, ⟨hnonempty, hshort⟩, ?_⟩
  rw [bytes, ← header_of_ofHeader hheader hheaderLength, List.append_assoc]

theorem ofHeader_header (h : hello.WellFormed) :
    ofHeader hello.header hello.role = .ok (hello.role, hello.nonce, hello.certificate.length) := by
  have hmagicLength : helloMagic.length = 8 := by decide
  have hshort := h.short
  rw [certificateLimit] at hshort
  have hmagic : Remaining hello.header 8 _ := ⟨helloMagic, rfl, hmagicLength⟩
  have hversion := hmagic.skip (length_toBytesLe 2 pairingVersion)
  have hrole := hversion.getElem?
  have hnonce : Remaining hello.header 11 _ := hversion.skip (a := [hello.role.code]) rfl
  have hlength := hnonce.skip hello.nonce.property
  have hend : hello.header.drop 43 = toBytesLe 4 hello.certificate.length := hlength.drop
  have htake : (toBytesLe 2 pairingVersion ++ (hello.role.code :: (hello.nonce.val ++
      toBytesLe 4 hello.certificate.length))).take 2 = toBytesLe 2 pairingVersion :=
    List.take_left' (length_toBytesLe _ _)
  have hfour : (toBytesLe 4 hello.certificate.length).take 4 =
      toBytesLe 4 hello.certificate.length :=
    List.take_of_length_le (Nat.le_of_eq (length_toBytesLe _ _))
  have hbounds : ¬(hello.certificate.length = 0 ∨ certificateLimit < hello.certificate.length) :=
    not_or.mpr ⟨h.nonempty, Nat.not_lt.mpr h.short⟩
  have hhead : hello.header.take 8 = helloMagic := List.take_left' hmagicLength
  have hcode : hello.header.getD 10 0 = hello.role.code := by
    rw [List.getD_eq_getElem?_getD, hrole, Option.getD_some]
  rw [ofHeader, if_neg (not_not.mpr hhead)]
  dsimp only
  rw [hmagic.drop, htake, ofBytesLe_toBytesLe (by decide), if_neg (not_not.mpr rfl), hcode,
    Role.tryFrom_code, ok_bind, if_neg (not_not.mpr rfl), arrayAtIo_remaining hnonce, ok_bind,
    hend, hfour, ofBytesLe_toBytesLe (by omega), if_neg hbounds]

theorem readFrom_bytes (h : hello.WellFormed) (rest : List UInt8) :
    readFrom (hello.bytes ++ rest) hello.role = .ok (hello, rest) := by
  rw [readFrom, bytes, List.append_assoc, readExact_append (length_header hello), ok_bind]
  dsimp only
  rw [ofHeader_header h, ok_bind]
  dsimp only
  rw [readExact_append rfl, ok_bind]

end Hello

end ClipFerry.Pairing
