import Mathlib.Data.List.Basic

namespace ClipFerry.Utf16

def encodeChar (c : Char) : List UInt16 :=
  if c.toNat < 0x10000 then [.ofNat c.toNat]
  else [.ofNat (0xD800 + (c.toNat - 0x10000) / 0x400),
    .ofNat (0xDC00 + (c.toNat - 0x10000) % 0x400)]

def encode (text : List Char) : List UInt16 := text.flatMap encodeChar

def decode : List UInt16 → Option (List Char)
  | [] => some []
  | unit :: rest =>
    if unit.toNat < 0xD800 ∨ 0xE000 ≤ unit.toNat then (decode rest).map (.ofNat unit.toNat :: ·)
    else match rest with
    | [] => none
    | low :: rest =>
      if unit.toNat < 0xDC00 ∧ 0xDC00 ≤ low.toNat ∧ low.toNat < 0xE000 then
        (decode rest).map
          (.ofNat (0x10000 + (unit.toNat - 0xD800) * 0x400 + (low.toNat - 0xDC00)) :: ·)
      else none

variable {c : Char} {text : List Char} {rest : List UInt16}

theorem valid (c : Char) : c.toNat < 0xD800 ∨ (0xDFFF < c.toNat ∧ c.toNat < 0x110000) := c.valid

theorem encodeChar_small (h : c.toNat < 0x10000) : encodeChar c = [.ofNat c.toNat] := if_pos h

theorem encodeChar_large (h : ¬c.toNat < 0x10000) :
    encodeChar c = [.ofNat (0xD800 + (c.toNat - 0x10000) / 0x400),
      .ofNat (0xDC00 + (c.toNat - 0x10000) % 0x400)] := if_neg h

theorem toNat_unit {n : Nat} (h : n < 0x10000) : (UInt16.ofNat n).toNat = n :=
  UInt16.toNat_ofNat_of_lt' h

theorem decode_encodeChar (c : Char) (rest : List UInt16) :
    decode (encodeChar c ++ rest) = (decode rest).map (c :: ·) := by
  have hvalid := valid c
  by_cases hsmall : c.toNat < 0x10000
  · have hunit : (UInt16.ofNat c.toNat).toNat = c.toNat := toNat_unit hsmall
    have hplain : c.toNat < 0xD800 ∨ 0xE000 ≤ c.toNat := by omega
    rw [encodeChar_small hsmall, List.singleton_append, decode.eq_def]
    simp only [hunit]
    rw [if_pos hplain, Char.ofNat_toNat]
  · have hhigh : (UInt16.ofNat (0xD800 + (c.toNat - 0x10000) / 0x400)).toNat =
        0xD800 + (c.toNat - 0x10000) / 0x400 := toNat_unit (by omega)
    have hlow : (UInt16.ofNat (0xDC00 + (c.toNat - 0x10000) % 0x400)).toNat =
        0xDC00 + (c.toNat - 0x10000) % 0x400 := toNat_unit (by omega)
    have hcode : 0x10000 + (0xD800 + (c.toNat - 0x10000) / 0x400 - 0xD800) * 0x400 +
        (0xDC00 + (c.toNat - 0x10000) % 0x400 - 0xDC00) = c.toNat := by omega
    rw [encodeChar_large hsmall, List.cons_append, List.singleton_append, decode.eq_def]
    simp only [hhigh, hlow]
    rw [if_neg (by omega), if_pos (by omega), hcode, Char.ofNat_toNat]

theorem decode_encode (text : List Char) : decode (encode text) = some text := by
  induction text with
  | nil => rfl
  | cons c text ih =>
    rw [encode, List.flatMap_cons, decode_encodeChar]
    rw [encode] at ih
    rw [ih, Option.map_some]

theorem length_encodeChar (c : Char) :
    (encodeChar c).length = if c.val < 0x10000 then 1 else 2 := by
  have hval : c.val < 0x10000 ↔ c.toNat < 0x10000 := UInt32.lt_iff_toNat_lt
  by_cases hsmall : c.toNat < 0x10000
  · rw [encodeChar_small hsmall, if_pos (hval.mpr hsmall)]
    rfl
  · rw [encodeChar_large hsmall, if_neg (mt hval.mp hsmall)]
    rfl

theorem encodeChar_nonzero (h : c ≠ '\x00') : (0 : UInt16) ∉ encodeChar c := by
  have hzero : c.toNat ≠ 0 := fun hc => h (Char.toNat_inj.mp hc)
  have hvalid := valid c
  by_cases hsmall : c.toNat < 0x10000
  · rw [encodeChar_small hsmall, List.mem_singleton]
    intro hunit
    have hnat := congrArg UInt16.toNat hunit
    rw [toNat_unit hsmall] at hnat
    exact hzero hnat.symm
  · rw [encodeChar_large hsmall]
    intro hmem
    rcases List.mem_pair.mp hmem with hunit | hunit
    · have hnat := congrArg UInt16.toNat hunit
      rw [toNat_unit (by omega)] at hnat
      have hleft : (0 : UInt16).toNat = 0 := rfl
      omega
    · have hnat := congrArg UInt16.toNat hunit
      rw [toNat_unit (by omega)] at hnat
      have hleft : (0 : UInt16).toNat = 0 := rfl
      omega

theorem encode_nonzero (h : '\x00' ∉ text) : (0 : UInt16) ∉ encode text := by
  intro hmem
  obtain ⟨c, hc, hunit⟩ := List.mem_flatMap.mp hmem
  exact encodeChar_nonzero (fun hzero => h (hzero ▸ hc)) hunit

theorem decode_terminated (h : '\x00' ∉ text) (rest : List UInt16) :
    decode ((encode text ++ 0 :: rest).takeWhile (· != 0)) = some text := by
  have hall : ∀ unit ∈ encode text, (unit != 0) = true := fun unit hunit =>
    bne_iff_ne.mpr fun hzero => encode_nonzero h (hzero ▸ hunit)
  rw [List.takeWhile_append_of_pos hall, List.takeWhile_cons_of_neg (by simp), List.append_nil,
    decode_encode]

end ClipFerry.Utf16
