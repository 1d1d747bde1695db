import ClipFerry.Foundation.Checked
import ClipFerry.Server.Source
import Mathlib.Algebra.Ring.Int.Defs

namespace ClipFerry.Stream

open Checked VirtualTree Server

structure VirtualStream where
  source : ReadAtSource
  position : UInt64

def checkedAdd (position : UInt64) (read : Nat) : Except HResult UInt64 :=
  if 2 ^ 64 ≤ position.toNat + read then .error .invalidFunction
  else .ok (position + .ofNat read)

namespace VirtualStream

/-! The bytes that the loop has in the destination are the list `read`. -/

def fill (stream : VirtualStream) (attempt requested : Nat) (read : List UInt8) :
    Except HResult (List UInt8) :=
  if requested ≤ read.length then .ok read else do
  let offset ← checkedAdd stream.position read.length
  let (chunk, buffer) ← stream.source.readAt attempt offset.toNat (requested - read.length)
  if _ : requested - read.length < chunk then .error .unexpected
  else if _ : chunk = 0 then .ok read
  else stream.fill (attempt + 1) requested (read ++ buffer.val.take chunk)
termination_by requested - read.length
decreasing_by
  have hbuffer := buffer.property
  simp only [List.length_append, List.length_take]
  omega

def readImpl (stream : VirtualStream) (attempt : Nat) (destinationNull : Bool)
    (requested : UInt32) : Except HResult (List UInt8 × VirtualStream) :=
  if requested ≠ 0 ∧ destinationNull = true then .error .invalidPointer else do
  let read ← stream.fill attempt requested.toNat []
  let position ← checkedAdd stream.position read.length
  .ok (read, { stream with position := position })

def streamSeekSet : UInt32 := 0

def streamSeekCur : UInt32 := 1

def streamSeekEnd : UInt32 := 2

def seekBase (stream : VirtualStream) (origin : UInt32) : Except HResult Int :=
  if origin = streamSeekSet then .ok 0
  else if origin = streamSeekCur then .ok stream.position.toNat
  else if origin = streamSeekEnd then .ok stream.source.len.toNat
  else .error .invalidFunction

def tryFromI128 (next : Int) : Except HResult UInt64 :=
  if 0 ≤ next ∧ next < 2 ^ 64 then .ok (.ofNat next.toNat) else .error .invalidFunction

def seekImpl (stream : VirtualStream) (displacement : Int64) (origin : UInt32) :
    Except HResult (UInt64 × VirtualStream) := do
  let base ← stream.seekBase origin
  let next ← tryFromI128 (base + displacement.toInt)
  .ok (next, { stream with position := next })

end VirtualStream

theorem checkedAdd_toNat {position offset : UInt64} {read : Nat}
    (h : checkedAdd position read = .ok offset) : offset.toNat = position.toNat + read := by
  rw [checkedAdd, guard_eq_ok] at h
  obtain ⟨hlt, h⟩ := h
  cases h
  rw [UInt64.toNat_add, UInt64.toNat_ofNat']
  omega

/-! A source without gaps: every answer is the next part of the content, and an empty one
comes at its end only. -/

def Exact (source : ReadAtSource) (content : List UInt8) : Prop :=
  ∀ attempt (offset : UInt64) length read buffer, 0 < length →
    source.readAt attempt offset.toNat length = .ok (read, buffer) →
      read ≤ length ∧ buffer.val.take read = (content.drop offset.toNat).take read ∧
        (read = 0 ↔ content.length ≤ offset.toNat)

namespace VirtualStream

variable {stream stream' : VirtualStream} {content read bytes : List UInt8}
  {attempt requested : Nat}

theorem fill_full (h : requested ≤ read.length) : stream.fill attempt requested read = .ok read := by
  rw [fill, if_pos h]

theorem fill_more {offset : UInt64} {chunk : Nat}
    {buffer : List.Vector UInt8 (requested - read.length)} (hmore : ¬requested ≤ read.length)
    (hoffset : checkedAdd stream.position read.length = .ok offset)
    (hanswer : stream.source.readAt attempt offset.toNat (requested - read.length) =
      .ok (chunk, buffer)) (hfits : chunk ≤ requested - read.length) (hempty : chunk ≠ 0) :
    stream.fill attempt requested read =
      stream.fill (attempt + 1) requested (read ++ buffer.val.take chunk) := by
  rw [fill, if_neg hmore, hoffset, ok_bind, hanswer, ok_bind]
  simp only [dif_neg (Nat.not_lt.mpr hfits), dif_neg hempty]

theorem fill_exact (hexact : Exact stream.source content) (hle : read.length ≤ requested)
    (hread : read = (content.drop stream.position.toNat).take read.length)
    (h : stream.fill attempt requested read = .ok bytes) :
    bytes = (content.drop stream.position.toNat).take requested := by
  induction attempt, read using fill.induct requested with
  | case1 attempt read hfull =>
    rw [fill, if_pos hfull] at h
    cases h
    rw [hread, Nat.le_antisymm hle hfull]
  | case2 attempt read hmore ih =>
    rw [fill, if_neg hmore, bind_eq_ok] at h
    obtain ⟨offset, hoffset, h⟩ := h
    rw [bind_eq_ok] at h
    obtain ⟨⟨chunk, buffer⟩, hanswer, h⟩ := h
    have hat := checkedAdd_toNat hoffset
    obtain ⟨hchunk, hbytes, hzero⟩ := hexact _ _ _ _ _ (by omega) hanswer
    rw [hat] at hbytes hzero
    simp only [dif_neg (Nat.not_lt.mpr hchunk)] at h
    split at h
    · rename_i hempty
      have hend := hzero.mp hempty
      have hshort : (content.drop stream.position.toNat).length ≤ read.length := by
        rw [List.length_drop]
        omega
      rw [← Except.ok.inj h, List.take_of_length_le (Nat.le_trans hshort hle), hread,
        List.take_of_length_le hshort]
    · rename_i hempty
      have hlength : (buffer.val.take chunk).length = chunk := by
        rw [List.length_take, buffer.property, Nat.min_eq_left hchunk]
      refine ih chunk buffer (by omega) hempty ?_ ?_ h
      · rw [List.length_append, hlength]
        omega
      · rw [List.length_append, hlength, List.take_add, ← hread, hbytes, List.drop_drop]

theorem readImpl_eq_ok {destinationNull : Bool} {count : UInt32}
    (h : stream.readImpl attempt destinationNull count = .ok (bytes, stream')) :
    stream.fill attempt count.toNat [] = .ok bytes ∧
      ∃ position, checkedAdd stream.position bytes.length = .ok position ∧
        stream' = { stream with position := position } := by
  rw [readImpl, guard_eq_ok] at h
  obtain ⟨-, h⟩ := h
  rw [bind_eq_ok] at h
  obtain ⟨read, hfill, h⟩ := h
  rw [bind_eq_ok] at h
  obtain ⟨position, hposition, h⟩ := h
  cases h
  exact ⟨hfill, position, hposition, rfl⟩

theorem readImpl_exact (hexact : Exact stream.source content) {destinationNull : Bool}
    {count : UInt32} (h : stream.readImpl attempt destinationNull count = .ok (bytes, stream')) :
    bytes = (content.drop stream.position.toNat).take count.toNat ∧
      stream'.source = stream.source ∧
      stream'.position.toNat = stream.position.toNat + bytes.length := by
  obtain ⟨hfill, position, hposition, rfl⟩ := readImpl_eq_ok h
  exact ⟨fill_exact hexact (Nat.zero_le _) rfl hfill, rfl, checkedAdd_toNat hposition⟩

end VirtualStream

end ClipFerry.Stream
