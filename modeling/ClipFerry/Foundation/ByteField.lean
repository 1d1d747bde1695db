import Mathlib.Data.List.Induction
import Mathlib.Data.Vector.Basic

namespace ClipFerry.ByteField

def toBytes : Nat → Nat → List UInt8
  | 0, _ => []
  | w + 1, n => toBytes w (n / 256) ++ [UInt8.ofNat (n % 256)]

def ofBytes (bytes : List UInt8) : Nat := bytes.foldl (fun n b => n * 256 + b.toNat) 0

@[simp] theorem length_toBytes (w n : Nat) : (toBytes w n).length = w := by
  induction w generalizing n with
  | zero => rfl
  | succ w ih => simp [toBytes, ih]

@[simp] theorem ofBytes_concat (bytes : List UInt8) (b : UInt8) :
    ofBytes (bytes ++ [b]) = ofBytes bytes * 256 + b.toNat := by
  simp [ofBytes]

theorem ofBytes_toBytes {w n : Nat} (h : n < 256 ^ w) : ofBytes (toBytes w n) = n := by
  induction w generalizing n with
  | zero => simp at h; simp [toBytes, ofBytes, h]
  | succ w ih =>
    have hdiv : n / 256 < 256 ^ w := Nat.div_lt_of_lt_mul (by rw [Nat.pow_succ] at h; omega)
    have hmod : (UInt8.ofNat (n % 256)).toNat = n % 256 :=
      UInt8.toNat_ofNat_of_lt' (Nat.mod_lt _ (by decide))
    rw [toBytes, ofBytes_concat, ih hdiv, hmod]
    omega

theorem ofBytes_lt (bytes : List UInt8) : ofBytes bytes < 256 ^ bytes.length := by
  induction bytes using List.reverseRecOn with
  | nil => exact Nat.one_pos
  | append_singleton bytes b ih =>
    have hb := b.toNat_lt
    rw [ofBytes_concat, List.length_append, List.length_singleton, Nat.pow_succ]
    omega

theorem toBytes_ofBytes (bytes : List UInt8) : toBytes bytes.length (ofBytes bytes) = bytes := by
  induction bytes using List.reverseRecOn with
  | nil => rfl
  | append_singleton bytes b ih =>
    have hb := b.toNat_lt
    have hdiv : (ofBytes bytes * 256 + b.toNat) / 256 = ofBytes bytes := by omega
    have hmod : (ofBytes bytes * 256 + b.toNat) % 256 = b.toNat := by omega
    rw [ofBytes_concat, List.length_append, List.length_singleton, toBytes, hdiv, hmod, ih,
      UInt8.ofNat_toNat]

def toBytesLe (w n : Nat) : List UInt8 := (toBytes w n).reverse

def ofBytesLe (bytes : List UInt8) : Nat := ofBytes bytes.reverse

@[simp] theorem length_toBytesLe (w n : Nat) : (toBytesLe w n).length = w := by
  simp [toBytesLe]

theorem ofBytesLe_toBytesLe {w n : Nat} (h : n < 256 ^ w) : ofBytesLe (toBytesLe w n) = n := by
  rw [ofBytesLe, toBytesLe, List.reverse_reverse, ofBytes_toBytes h]

theorem toBytesLe_ofBytesLe {w : Nat} {bytes : List UInt8} (h : bytes.length = w) :
    toBytesLe w (ofBytesLe bytes) = bytes := by
  have hreverse := toBytes_ofBytes bytes.reverse
  rw [List.length_reverse, h] at hreverse
  rw [toBytesLe, ofBytesLe, hreverse, List.reverse_reverse]

def fieldAt (n : Nat) (bytes : List UInt8) (start : Nat) : Option (List.Vector UInt8 n) :=
  if h : start + n ≤ bytes.length then
    some ⟨(bytes.drop start).take n, by rw [List.length_take, List.length_drop]; omega⟩
  else
    none

theorem fieldAt_eq_some {n start : Nat} {bytes : List UInt8} {v : List.Vector UInt8 n}
    (h : fieldAt n bytes start = some v) : bytes.drop start = v.val ++ bytes.drop (start + n) := by
  rw [fieldAt] at h
  split at h
  · cases h
    rw [← List.drop_drop, List.take_append_drop]
  · cases h

def rangeAt (bytes : List UInt8) (start stop : Nat) : Option (List UInt8) :=
  if start ≤ stop ∧ stop ≤ bytes.length then some ((bytes.drop start).take (stop - start)) else none

def Remaining (bytes : List UInt8) (cursor : Nat) (rest : List UInt8) : Prop :=
  ∃ front, bytes = front ++ rest ∧ front.length = cursor

theorem Remaining.start (bytes : List UInt8) : Remaining bytes 0 bytes := ⟨[], rfl, rfl⟩

theorem Remaining.advance {bytes a rest : List UInt8} {cursor : Nat}
    (h : Remaining bytes cursor (a ++ rest)) : Remaining bytes (cursor + a.length) rest := by
  obtain ⟨front, rfl, rfl⟩ := h
  exact ⟨front ++ a, by simp, by simp⟩

theorem Remaining.skip {bytes a rest : List UInt8} {cursor n : Nat}
    (h : Remaining bytes cursor (a ++ rest)) (hn : a.length = n) :
    Remaining bytes (cursor + n) rest := hn ▸ h.advance

theorem Remaining.drop {bytes rest : List UInt8} {cursor : Nat} (h : Remaining bytes cursor rest) :
    bytes.drop cursor = rest := by
  obtain ⟨front, rfl, rfl⟩ := h
  exact List.drop_left

theorem Remaining.fieldAt {bytes rest : List UInt8} {cursor n : Nat} {v : List.Vector UInt8 n}
    (h : Remaining bytes cursor (v.val ++ rest)) : fieldAt n bytes cursor = some v := by
  obtain ⟨front, rfl, rfl⟩ := h
  have hv := v.property
  have hle : front.length + n ≤ (front ++ (v.val ++ rest)).length := by
    rw [List.length_append, List.length_append]; omega
  rw [ByteField.fieldAt, dif_pos hle]
  congr 1
  apply Subtype.ext
  simp [hv]

theorem Remaining.rangeAt {bytes a rest : List UInt8} {cursor : Nat}
    (h : Remaining bytes cursor (a ++ rest)) :
    rangeAt bytes cursor (cursor + a.length) = some a := by
  obtain ⟨front, rfl, rfl⟩ := h
  rw [ByteField.rangeAt, if_pos (by simp)]
  simp

theorem Remaining.getElem? {bytes rest : List UInt8} {cursor : Nat} {b : UInt8}
    (h : Remaining bytes cursor (b :: rest)) : bytes[cursor]? = some b := by
  obtain ⟨front, rfl, rfl⟩ := h
  simp

theorem Remaining.next {bytes rest : List UInt8} {cursor : Nat} {b : UInt8}
    (h : Remaining bytes cursor (b :: rest)) : Remaining bytes (cursor + 1) rest :=
  Remaining.advance (a := [b]) h

theorem Remaining.getD {bytes rest : List UInt8} {cursor : Nat} {b : UInt8}
    (h : Remaining bytes cursor (b :: rest)) (default : UInt8) : bytes.getD cursor default = b := by
  rw [List.getD_eq_getElem?_getD, h.getElem?, Option.getD_some]

theorem drop_take_append (bytes : List UInt8) (start n : Nat) :
    (bytes.drop start).take n ++ bytes.drop (start + n) = bytes.drop start := by
  rw [← List.drop_drop, List.take_append_drop]

theorem drop_getD_cons {bytes : List UInt8} {start : Nat} (h : start < bytes.length) (b : UInt8) :
    bytes.getD start b :: bytes.drop (start + 1) = bytes.drop start := by
  rw [List.getD_eq_getElem?_getD, List.getElem?_eq_getElem h, Option.getD_some,
    ← List.drop_eq_getElem_cons]

end ClipFerry.ByteField
