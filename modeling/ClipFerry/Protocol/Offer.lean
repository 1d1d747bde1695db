import ClipFerry.Protocol.Frame
import ClipFerry.VirtualTree.Validator
import Mathlib.Data.List.AList

namespace ClipFerry.Protocol

open VirtualTree Checked

def nanosPerMilli : Nat := 1000000

def asMillis (d : Nat) : Nat := d / nanosPerMilli

def fromMillis (ms : Nat) : Nat := ms * nanosPerMilli

def instantLimit : Nat := 2 ^ 64 * 1000000000

def checkedAddInstant (t : Nat) (d : Nat) : Option Nat :=
  if t + d < instantLimit then some (t + d) else none

theorem checkedAddInstant_eq {t d s : Nat} (h : checkedAddInstant t d = some s) : s = t + d := by
  rw [checkedAddInstant] at h
  split at h
  · exact (Option.some.inj h).symm
  · cases h

def millisU64 (d : Nat) : UInt64 :=
  if asMillis d < 2 ^ 64 then .ofNat (asMillis d) else .ofNat (2 ^ 64 - 1)

structure OfferManifestEntry where
  fileId : ProtocolId
  descriptor : VirtualFileDescriptor
deriving DecidableEq

structure OfferManifest where
  offerId : ProtocolId
  entries : List OfferManifestEntry
  ttl : Nat
deriving DecidableEq

structure SecureOfferedFile (σ : Type) where
  storedManifest : OfferManifest
  sources : AList fun _ : ProtocolId => σ
  expiresAt : Nat

namespace SecureOfferedFile

variable {σ : Type}

def manifest (offered : SecureOfferedFile σ) (now : Nat) : OfferManifest :=
  { offered.storedManifest with ttl := offered.expiresAt - now }

def source (offered : SecureOfferedFile σ) (fileId : ProtocolId) : Option σ :=
  offered.sources.lookup fileId

def manifestEntry (offered : SecureOfferedFile σ) (fileId : ProtocolId) :
    Option OfferManifestEntry :=
  offered.storedManifest.entries.find? (·.fileId = fileId)

structure Builder (σ : Type) where
  entries : List OfferManifestEntry
  sources : AList fun _ : ProtocolId => σ

def sourceMismatch (len : σ → UInt64) (entry : VirtualFileDescriptor × Option σ) : Bool :=
  entry.1.isDirectory != entry.2.isNone || entry.2.any (entry.1.size != len ·)

def pushEntry (len : σ → UInt64) (random : Except IoError ProtocolId) (builder : Builder σ)
    (entry : VirtualFileDescriptor × Option σ) : Except IoError (Builder σ) :=
  if sourceMismatch len entry = true then
    .error (invalidData "secure offer source does not match descriptor")
  else do
    let fileId ← random
    .ok ⟨builder.entries ++ [⟨fileId, entry.1⟩], match entry.2 with
      | none => builder.sources
      | some source => builder.sources.insert fileId source⟩

def pushEntries (len : σ → UInt64) (random : Nat → Except IoError ProtocolId) :
    Nat → Builder σ → List (VirtualFileDescriptor × Option σ) → Except IoError (Builder σ)
  | _, builder, [] => .ok builder
  | i, builder, entry :: rest => do
    let builder ← pushEntry len (random i) builder entry
    pushEntries len random (i + 1) builder rest

def newTree (toLowercase : Char → Text) (len : σ → UInt64)
    (random : Nat → Except IoError ProtocolId) (now : Nat)
    (entries : List (VirtualFileDescriptor × Option σ)) (ttl : Nat) :
    Except IoError (SecureOfferedFile σ) :=
  if ttl = 0 ∨ entries = [] ∨ maxVirtualItems < entries.length then
    .error (invalidData "invalid secure offer size or lifetime")
  else match validateVirtualDescriptorTree toLowercase (entries.map Prod.fst) with
  | .error e => .error (invalidWindows e)
  | .ok () => do
    let offerId ← random 0
    let builder ← pushEntries len random 1 ⟨[], ∅⟩ entries
    match checkedAddInstant now ttl with
    | none => .error (invalidData "secure offer lifetime is too large")
    | some expiresAt => .ok ⟨⟨offerId, builder.entries, ttl⟩, builder.sources, expiresAt⟩

theorem pushEntry_descriptors {len : σ → UInt64} {random : Except IoError ProtocolId}
    {builder builder' : Builder σ} {entry : VirtualFileDescriptor × Option σ}
    (h : pushEntry len random builder entry = .ok builder') :
    builder'.entries.map (·.descriptor) = builder.entries.map (·.descriptor) ++ [entry.1] := by
  obtain ⟨-, h⟩ := guard_eq_ok.mp h
  obtain ⟨fileId, -, h⟩ := bind_eq_ok.mp h
  obtain rfl := Except.ok.inj h
  simp

theorem pushEntries_descriptors {len : σ → UInt64} {random : Nat → Except IoError ProtocolId}
    {i : Nat} {builder builder' : Builder σ} {entries : List (VirtualFileDescriptor × Option σ)}
    (h : pushEntries len random i builder entries = .ok builder') :
    builder'.entries.map (·.descriptor) =
      builder.entries.map (·.descriptor) ++ entries.map Prod.fst := by
  induction entries generalizing i builder with
  | nil => simp [Except.ok.inj h]
  | cons entry rest ih =>
    obtain ⟨mid, hmid, hrest⟩ := bind_eq_ok.mp h
    rw [ih hrest, pushEntry_descriptors hmid]
    simp

theorem newTree_wellFormed {toLowercase : Char → Text} {len : σ → UInt64}
    {random : Nat → Except IoError ProtocolId} {now : Nat}
    {entries : List (VirtualFileDescriptor × Option σ)} {ttl : Nat}
    {offered : SecureOfferedFile σ}
    (h : newTree toLowercase len random now entries ttl = .ok offered) :
    WellFormedTree toLowercase (offered.storedManifest.entries.map (·.descriptor)) := by
  obtain ⟨-, h⟩ := guard_eq_ok.mp h
  cases hv : validateVirtualDescriptorTree toLowercase (entries.map Prod.fst) with
  | error e => rw [hv] at h; cases h
  | ok u =>
    rw [hv] at h
    obtain ⟨offerId, -, h⟩ := bind_eq_ok.mp h
    obtain ⟨builder, hb, h⟩ := bind_eq_ok.mp h
    cases ht : checkedAddInstant now ttl with
    | none => rw [ht] at h; cases h
    | some expiresAt =>
      rw [ht] at h
      obtain rfl := Except.ok.inj h
      have hd := pushEntries_descriptors hb
      simp only [List.map_nil, List.nil_append] at hd
      rw [hd]
      exact (validate_eq_ok_iff _).mp hv

end SecureOfferedFile

end ClipFerry.Protocol
