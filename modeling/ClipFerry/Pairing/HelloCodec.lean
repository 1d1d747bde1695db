import ClipFerry.Foundation.ChunkReader
import ClipFerry.Foundation.PrefixCode
import ClipFerry.Pairing.Hello

namespace ClipFerry.Pairing

open ByteField Checked Foundation Protocol Server VirtualTree

variable {hello : Hello} {encoded rest : List UInt8} {role : Role}

/-! `Read::read_exact` of a stream that may be cut anywhere. -/

def readExactFrom (count : Nat) (reader : ChunkReader UInt8) :
    Except IoError (List UInt8 × ChunkReader UInt8) :=
  match reader.readExact count with
  | (some bytes, later) => .ok (bytes, later)
  | (none, _) => .error unexpectedEof

def Hello.readFromChunks (reader : ChunkReader UInt8) (expectedRole : Role) :
    Except IoError (Hello × ChunkReader UInt8) := do
  let (header, reader) ← readExactFrom helloHeaderLength reader
  let (role, nonce, certificateLength) ← ofHeader header expectedRole
  let (certificate, reader) ← readExactFrom certificateLength reader
  .ok (⟨role, nonce, certificate⟩, reader)

theorem readExactFrom_refines (count : Nat) (reader : ChunkReader UInt8) :
    (readExactFrom count reader).map (Prod.map id ChunkReader.bytes) =
      readExact count reader.bytes := by
  rw [readExactFrom, readExact]
  split
  · next bytes later hread =>
    have henough : ¬reader.bytes.length < count := by
      intro hshort
      have hnone := ChunkReader.readExact_short hshort
      rw [hread] at hnone
      cases hnone
    obtain ⟨hbytes, hlater⟩ := ChunkReader.readExact_whole (Nat.not_lt.mp henough)
    rw [hread] at hbytes hlater
    cases hbytes
    rw [if_neg henough, ← hlater]
    rfl
  · next later hread =>
    have hshort : reader.bytes.length < count := by
      refine Nat.not_le.mp fun henough => ?_
      have hsome := (ChunkReader.readExact_whole henough).1
      rw [hread] at hsome
      cases hsome
    rw [if_pos hshort]
    rfl

namespace Hello

theorem readFromChunks_refines (reader : ChunkReader UInt8) (role : Role) :
    (readFromChunks reader role).map (Prod.map id ChunkReader.bytes) =
      readFrom reader.bytes role := by
  rw [readFrom, ← readExactFrom_refines, readFromChunks]
  cases readExactFrom helloHeaderLength reader with
  | error error => rfl
  | ok front =>
    obtain ⟨header, later⟩ := front
    change (ofHeader header role >>= _).map _ = (ofHeader header role >>= _)
    cases ofHeader header role with
    | error error => rfl
    | ok fields =>
      obtain ⟨found, nonce, certificateLength⟩ := fields
      change _ = (readExact certificateLength later.bytes >>= _)
      rw [← readExactFrom_refines]
      change (readExactFrom certificateLength later >>= _).map _ = _
      cases readExactFrom certificateLength later with
      | error error => rfl
      | ok body => rfl

def Encodable : Set Hello := {hello | hello.certificate.length < 2 ^ 32}

theorem encode_eq_ok : hello.encode = .ok encoded ↔ hello ∈ Encodable ∧ hello.bytes = encoded := by
  rw [encode, guard_eq_ok, Nat.not_le, Except.ok.injEq]
  rfl

theorem WellFormed.encodable (h : hello.WellFormed) : hello ∈ Encodable :=
  h.short.trans_lt (by decide)

def headerBytes (key : Role × Secret × Nat) : List UInt8 :=
  helloMagic ++ (toBytesLe 2 pairingVersion ++ ([key.1.code] ++ (key.2.1.val ++
    toBytesLe 4 key.2.2)))

theorem headerBytes_prefixFree :
    PrefixFree (Set.univ ×ˢ (Set.univ ×ˢ Set.Iio (2 ^ 32))) headerBytes := by
  have hrole : PrefixFree Set.univ fun role : Role => [role.code] := by
    refine .of_length (fun _ _ => rfl) fun role _ role' _ hsame => ?_
    have hcode := congrArg Role.tryFrom (List.singleton_inj.mp hsame)
    rw [Role.tryFrom_code, Role.tryFrom_code] at hcode
    exact Except.ok.inj hcode
  have hnonce : PrefixFree Set.univ fun nonce : Secret => nonce.val :=
    .of_length (fun nonce _ => nonce.property) Subtype.val_injective.injOn
  have hcount : PrefixFree (Set.Iio (2 ^ 32)) (toBytesLe 4) := by
    refine .of_length (fun n _ => length_toBytesLe 4 n) fun n hn n' hn' hsame => ?_
    have hvalue := congrArg ofBytesLe hsame
    rwa [ofBytesLe_toBytesLe hn, ofBytesLe_toBytesLe hn'] at hvalue
  exact ((hrole.append (hnonce.append hcount)).after _).after _

theorem bytes_prefixFree : PrefixFree Encodable bytes := by
  have hkey : Set.MapsTo (fun hello : Hello => (hello.role, hello.nonce, hello.certificate.length))
      Encodable (Set.univ ×ˢ (Set.univ ×ˢ Set.Iio (2 ^ 32))) :=
    fun _ hfits => ⟨trivial, trivial, hfits⟩
  refine headerBytes_prefixFree.counted hkey (fun hsame => (Prod.mk.inj (Prod.mk.inj hsame).2).2) ?_
  rintro ⟨role, nonce, certificate⟩ - ⟨role', nonce', certificate'⟩ - hsame
  simp only [Prod.mk.injEq] at hsame
  obtain ⟨⟨rfl, rfl, -⟩, rfl⟩ := hsame
  rfl

end Hello

end ClipFerry.Pairing
