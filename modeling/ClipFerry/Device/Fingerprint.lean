import ClipFerry.Device.WriteNewAtomic
import ClipFerry.Protocol.Manifest
import ClipFerry.Server.Session

namespace ClipFerry.Device

open Protocol Server VirtualTree

def isAsciiHexdigit (byte : UInt8) : Bool :=
  (0x30 ≤ byte && byte ≤ 0x39) || (0x41 ≤ byte && byte ≤ 0x46) || (0x61 ≤ byte && byte ≤ 0x66)

def hexDigit (c : Char) : Option Nat :=
  if '0' ≤ c ∧ c ≤ '9' then some (c.toNat - 48)
  else if 'a' ≤ c ∧ c ≤ 'f' then some (c.toNat - 87)
  else if 'A' ≤ c ∧ c ≤ 'F' then some (c.toNat - 55)
  else none

def fromStrRadix (high low : Char) : Option UInt8 := do
  let high ← hexDigit high
  let low ← hexDigit low
  some (UInt8.ofNat (high * 16 + low))

def hexBytes : Text → Option (List UInt8)
  | [] => some []
  | high :: low :: rest => do
    let byte ← fromStrRadix high low
    let bytes ← hexBytes rest
    some (byte :: bytes)
  | [_] => none

namespace CertificateFingerprint

def fromCompact (compact : Text) : Except IoError CertificateFingerprint :=
  if (asBytes compact).length ≠ 64 ∨ (asBytes compact).all isAsciiHexdigit = false then
    .error (invalidData "certificate fingerprint must contain exactly 32 hexadecimal bytes")
  else
    match hexBytes compact with
    | some bytes =>
      if h : bytes.length = 32 then .ok ⟨⟨bytes, h⟩⟩
      else .error (invalidData "invalid certificate fingerprint")
    | none => .error (invalidData "invalid certificate fingerprint")

def fromStr (value : Text) : Except IoError CertificateFingerprint :=
  fromCompact (value.filter (· ≠ ':'))

def display (fingerprint : CertificateFingerprint) : Text :=
  ((fingerprint.bytes.val.map fun byte => upperHex 2 byte.toNat).intersperse [':']).flatten

end CertificateFingerprint

def compactFingerprint (fingerprint : CertificateFingerprint) : Text :=
  fingerprint.bytes.val.flatMap fun byte => lowerHex 2 byte.toNat

def parseCompactFingerprint (value : Text) : Except IoError CertificateFingerprint :=
  if (asBytes value).length ≠ 64 ∨ (asBytes value).all isAsciiHexdigit = false then
    .error (invalidData "trusted peer filename is not a fingerprint")
  else CertificateFingerprint.fromStr value

theorem lowerHex_two (byte : UInt8) :
    lowerHex 2 byte.toNat = [Nat.digitChar (byte.toNat / 16), Nat.digitChar (byte.toNat % 16)] := by
  have hb := byte.toNat_lt
  have hmod : byte.toNat / 16 % 16 = byte.toNat / 16 := Nat.mod_eq_of_lt (by omega)
  simp [lowerHex, hmod]

theorem upperHex_two (byte : UInt8) :
    upperHex 2 byte.toNat = [(Nat.digitChar (byte.toNat / 16)).toUpper,
      (Nat.digitChar (byte.toNat % 16)).toUpper] := by
  have hb := byte.toNat_lt
  have hmod : byte.toNat / 16 % 16 = byte.toNat / 16 := Nat.mod_eq_of_lt (by omega)
  simp [upperHex, hmod]

theorem digitChar_hex (digit : Fin 16) : hexDigit (Nat.digitChar digit) = some digit.val ∧
    Nat.digitChar digit ≠ ':' ∧ Nat.digitChar digit ≠ '.' ∧
    (asBytes [Nat.digitChar digit]).length = 1 ∧
    (asBytes [Nat.digitChar digit]).all isAsciiHexdigit = true := by
  revert digit
  decide

theorem hexDigit_digitChar {n : Nat} (h : n < 16) : hexDigit (Nat.digitChar n) = some n :=
  (digitChar_hex ⟨n, h⟩).1

structure HexWriter (write : Nat → Char) : Prop where
  digit : ∀ digit : Fin 16, hexDigit (write digit) = some digit.val
  colon : ∀ digit : Fin 16, write digit ≠ ':'
  length : ∀ digit : Fin 16, (asBytes [write digit]).length = 1
  ascii : ∀ digit : Fin 16, (asBytes [write digit]).all isAsciiHexdigit = true

theorem hexWriter_lower : HexWriter Nat.digitChar where
  digit := fun digit => (digitChar_hex digit).1
  colon := fun digit => (digitChar_hex digit).2.1
  length := fun digit => (digitChar_hex digit).2.2.2.1
  ascii := fun digit => (digitChar_hex digit).2.2.2.2

theorem hexWriter_upper : HexWriter fun digit => (Nat.digitChar digit).toUpper := by
  constructor <;> decide

def hexText (write : Nat → Char) (bytes : List UInt8) : Text :=
  bytes.flatMap fun byte => [write (byte.toNat / 16), write (byte.toNat % 16)]

theorem lowerHex_hexText (bytes : List UInt8) :
    (bytes.flatMap fun byte => lowerHex 2 byte.toNat) = hexText Nat.digitChar bytes := by
  simp only [lowerHex_two]
  rfl

theorem upperHex_hexText (bytes : List UInt8) :
    (bytes.flatMap fun byte => upperHex 2 byte.toNat) =
      hexText (fun digit => (Nat.digitChar digit).toUpper) bytes := by
  simp only [upperHex_two]
  rfl

section HexWriter

variable {write : Nat → Char} {bytes : List UInt8} {c : Char}

theorem mem_hexText (h : c ∈ hexText write bytes) : ∃ digit : Fin 16, c = write digit := by
  obtain ⟨byte, -, hbyte⟩ := List.mem_flatMap.mp h
  have hb := byte.toNat_lt
  rw [List.mem_cons, List.mem_singleton] at hbyte
  rcases hbyte with rfl | rfl
  · exact ⟨⟨byte.toNat / 16, by omega⟩, rfl⟩
  · exact ⟨⟨byte.toNat % 16, by omega⟩, rfl⟩

theorem length_hexText (write : Nat → Char) (bytes : List UInt8) :
    (hexText write bytes).length = 2 * bytes.length := by
  rw [hexText, List.length_flatMap]
  simp only [List.length_cons, List.length_nil, List.map_const', List.sum_replicate_nat]
  exact Nat.mul_comm ..

theorem hexBytes_hexText (h : HexWriter write) (bytes : List UInt8) :
    hexBytes (hexText write bytes) = some bytes := by
  induction bytes with
  | nil => rfl
  | cons byte bytes ih =>
    have hb := byte.toNat_lt
    have hsum : byte.toNat / 16 * 16 + byte.toNat % 16 = byte.toNat := by omega
    have hhigh : hexDigit (write (byte.toNat / 16)) = some (byte.toNat / 16) :=
      h.digit ⟨byte.toNat / 16, by omega⟩
    have hlow : hexDigit (write (byte.toNat % 16)) = some (byte.toNat % 16) :=
      h.digit ⟨byte.toNat % 16, by omega⟩
    have htail : hexBytes (bytes.flatMap fun byte =>
        [write (byte.toNat / 16), write (byte.toNat % 16)]) = some bytes := ih
    rw [hexText, List.flatMap_cons, List.cons_append, List.cons_append, List.nil_append, hexBytes,
      htail, fromStrRadix, hhigh, hlow]
    simp only [Option.bind_eq_bind, Option.bind_some, hsum, UInt8.ofNat_toNat]

theorem asBytes_hexText (h : HexWriter write) {text : Text}
    (htext : ∀ c ∈ text, ∃ digit : Fin 16, c = write digit) :
    (asBytes text).length = text.length ∧ (asBytes text).all isAsciiHexdigit = true := by
  induction text with
  | nil => exact ⟨rfl, rfl⟩
  | cons c text ih =>
    obtain ⟨digit, rfl⟩ := htext c List.mem_cons_self
    obtain ⟨hlength, hall⟩ := ih fun c hc => htext c (List.mem_cons_of_mem _ hc)
    have hsplit : asBytes (write digit :: text) = asBytes [write digit] ++ asBytes text := by
      simp [asBytes]
    rw [hsplit, List.length_append, List.all_append, h.length, hlength, h.ascii, hall,
      List.length_cons, Nat.add_comm]
    exact ⟨rfl, rfl⟩

theorem filter_hexText (h : HexWriter write) (bytes : List UInt8) :
    (hexText write bytes).filter (· ≠ ':') = hexText write bytes := by
  rw [List.filter_eq_self]
  intro c hc
  obtain ⟨digit, rfl⟩ := mem_hexText hc
  exact decide_eq_true (h.colon digit)

theorem hexText_valid (h : HexWriter write) (hlength : bytes.length = 32) :
    ¬((asBytes (hexText write bytes)).length ≠ 64 ∨
      (asBytes (hexText write bytes)).all isAsciiHexdigit = false) := by
  obtain ⟨hbytes, hall⟩ := @asBytes_hexText _ h (hexText write bytes) fun _ => mem_hexText
  rw [hbytes, hall, length_hexText, hlength]
  simp

theorem fromCompact_hexText (h : HexWriter write) (hlength : bytes.length = 32) :
    CertificateFingerprint.fromCompact (hexText write bytes) = .ok ⟨⟨bytes, hlength⟩⟩ := by
  rw [CertificateFingerprint.fromCompact, if_neg (hexText_valid h hlength), hexBytes_hexText h]
  exact dif_pos hlength

end HexWriter

variable {fingerprint other : CertificateFingerprint}

theorem mem_compactFingerprint {c : Char} (h : c ∈ compactFingerprint fingerprint) :
    ∃ digit : Fin 16, c = Nat.digitChar digit := by
  rw [compactFingerprint, lowerHex_hexText] at h
  exact mem_hexText h

theorem length_compactFingerprint (fingerprint : CertificateFingerprint) :
    (compactFingerprint fingerprint).length = 64 := by
  rw [compactFingerprint, lowerHex_hexText, length_hexText, fingerprint.bytes.property]

theorem parseCompactFingerprint_compactFingerprint (fingerprint : CertificateFingerprint) :
    parseCompactFingerprint (compactFingerprint fingerprint) = .ok fingerprint := by
  have hlength : fingerprint.bytes.val.length = 32 := fingerprint.bytes.property
  rw [compactFingerprint, lowerHex_hexText, parseCompactFingerprint,
    if_neg (hexText_valid hexWriter_lower hlength), CertificateFingerprint.fromStr,
    filter_hexText hexWriter_lower, fromCompact_hexText hexWriter_lower hlength]
  rfl

theorem compactFingerprint_injective
    (h : compactFingerprint fingerprint = compactFingerprint other) : fingerprint = other := by
  have hparse := parseCompactFingerprint_compactFingerprint fingerprint
  rw [h, parseCompactFingerprint_compactFingerprint] at hparse
  exact (Except.ok.inj hparse).symm

theorem filter_intersperse (texts : List Text) :
    (texts.intersperse [':']).flatten.filter (· ≠ ':') = texts.flatten.filter (· ≠ ':') := by
  induction texts with
  | nil => rfl
  | cons text texts ih =>
    cases texts with
    | nil => rfl
    | cons next texts =>
      rw [List.intersperse_cons_cons, List.flatten_cons, List.flatten_cons, List.filter_append,
        List.filter_append, ih, List.flatten_cons (L := next :: texts), List.filter_append]
      rfl

namespace CertificateFingerprint

theorem fromStr_display (fingerprint : CertificateFingerprint) :
    fromStr (display fingerprint) = .ok fingerprint := by
  have hlength : fingerprint.bytes.val.length = 32 := fingerprint.bytes.property
  rw [fromStr, display, filter_intersperse, ← List.flatMap_def, upperHex_hexText,
    filter_hexText hexWriter_upper, fromCompact_hexText hexWriter_upper hlength]
  rfl

theorem mem_display {c : Char} (h : c ∈ display fingerprint) : c = ':' ∨ hexDigit c ≠ none := by
  by_cases hcolon : c = ':'
  · exact .inl hcolon
  · have hkept : c ∈ (display fingerprint).filter (· ≠ ':') :=
      List.mem_filter.mpr ⟨h, decide_eq_true hcolon⟩
    rw [display, filter_intersperse, ← List.flatMap_def, upperHex_hexText] at hkept
    obtain ⟨digit, rfl⟩ := mem_hexText (List.mem_of_mem_filter hkept)
    rw [hexWriter_upper.digit]
    exact .inr (Option.some_ne_none _)

end CertificateFingerprint

end ClipFerry.Device
