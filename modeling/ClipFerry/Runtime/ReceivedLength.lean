import ClipFerry.Runtime.SecureFetch

namespace ClipFerry.Runtime

open Checked VirtualTree Protocol Server ClipFerry.Stream Client Transition

section Stream

variable {stream stream' : VirtualStream} {attempt requested last : Nat} {read bytes : List UInt8}
  {size : UInt64}

theorem fill_length_le (hle : read.length ≤ requested)
    (h : stream.fill attempt requested read = .ok bytes) : bytes.length ≤ requested := by
  induction attempt, read using VirtualStream.fill.induct requested with
  | case1 attempt read hfull =>
    rw [VirtualStream.fill_full hfull] at h
    cases h
    exact hle
  | case2 attempt read hmore ih =>
    rw [VirtualStream.fill, if_neg hmore, bind_eq_ok] at h
    obtain ⟨offset, hoffset, h⟩ := h
    rw [bind_eq_ok] at h
    obtain ⟨⟨chunk, buffer⟩, hanswer, h⟩ := h
    dsimp only at h
    split at h
    · cases h
    · rename_i hfits
      split at h
      · cases h
        exact hle
      · rename_i hempty
        refine ih chunk buffer hfits hempty ?_ h
        rw [List.length_append, List.length_take, buffer.property]
        omega

theorem readImpl_length {destinationNull : Bool} {count : UInt32}
    (h : stream.readImpl attempt destinationNull count = .ok (bytes, stream')) :
    bytes.length ≤ count.toNat ∧ stream.position.toNat + bytes.length < 2 ^ 64 := by
  obtain ⟨hfill, position, hposition, -⟩ := VirtualStream.readImpl_eq_ok h
  refine ⟨fill_length_le (Nat.zero_le _) hfill, ?_⟩
  rw [← checkedAdd_toNat hposition]
  exact position.toNat_lt

theorem checkedAdd_of_lt (position : UInt64) {added : Nat} (h : position.toNat + added < 2 ^ 64) :
    ∃ offset, checkedAdd position added = .ok offset ∧
      offset.toNat = position.toNat + added := by
  have hok : checkedAdd position added = .ok (position + .ofNat added) := by
    rw [checkedAdd, if_neg (Nat.not_le.mpr h)]
  exact ⟨_, hok, checkedAdd_toNat hok⟩

theorem fill_overlong (attempt requested : Nat) (hsource : stream.source = overlong size last)
    (hposition : stream.position.toNat ≤ last) (hlast : last < 2 ^ 64)
    (hle : read.length ≤ min requested (last - stream.position.toNat)) :
    ∃ bytes, stream.fill attempt requested read = .ok bytes ∧
      bytes.length = min requested (last - stream.position.toNat) := by
  induction attempt, read using VirtualStream.fill.induct requested with
  | case1 attempt read hfull =>
    exact ⟨read, VirtualStream.fill_full hfull, by omega⟩
  | case2 attempt read hmore ih =>
    have hmax : 0 < maxSecureRangeBytes := by decide
    obtain ⟨offset, hoffset, hat⟩ := @checkedAdd_of_lt stream.position read.length
      (by omega)
    have hanswer : stream.source.readAt attempt offset.toNat (requested - read.length) =
        .ok (min (min (requested - read.length) maxSecureRangeBytes) (last - offset.toNat),
          .replicate (requested - read.length) 0) := by
      rw [hsource]
      rfl
    by_cases hempty :
        min (min (requested - read.length) maxSecureRangeBytes) (last - offset.toNat) = 0
    · refine ⟨read, ?_, by omega⟩
      rw [VirtualStream.fill, if_neg hmore, hoffset, ok_bind, hanswer, ok_bind]
      simp only [hempty, dif_neg (Nat.not_lt_zero _), dif_pos]
    · rw [VirtualStream.fill_more hmore hoffset hanswer (by omega) hempty]
      refine ih _ _ (by omega) hempty ?_
      rw [List.length_append, List.length_take, List.Vector.length_val]
      omega

theorem readImpl_overlong (count : UInt32) (hsource : stream.source = overlong size last)
    (hposition : stream.position.toNat ≤ last) (hlast : last < 2 ^ 64) :
    ∃ bytes stream', stream.readImpl 0 false count = .ok (bytes, stream') ∧
      bytes.length = min count.toNat (last - stream.position.toNat) := by
  obtain ⟨bytes, hfill, hlength⟩ := @fill_overlong stream last [] size 0 count.toNat hsource hposition
    hlast (Nat.zero_le _)
  obtain ⟨position, hnew, -⟩ := @checkedAdd_of_lt stream.position bytes.length
    (by omega)
  refine ⟨bytes, { stream with position := position }, ?_, hlength⟩
  rw [VirtualStream.readImpl, if_neg (by simp), hfill, ok_bind, hnew, ok_bind]

end Stream

theorem received_length_iff (windowsText : HResult → String) :
    (∀ (size offset : UInt64) (length : Nat),
      (∀ bytes, Accepts size offset length bytes →
        bytes.length ≤ size.toNat - min offset.toNat size.toNat) ↔
      min length maxSecureRangeBytes ≤ size.toNat - min offset.toNat size.toNat) ∧
    (∀ (size position : UInt64) (count : UInt32),
      (∀ (stream : VirtualStream) attempt destinationNull bytes stream',
        PeerAnswers stream.source → stream.source.len = size → stream.position = position →
        stream.readImpl attempt destinationNull count = .ok (bytes, stream') →
        bytes.length ≤ size.toNat - min position.toNat size.toNat) ↔
      count.toNat ≤ size.toNat - min position.toNat size.toNat ∨
        2 ^ 64 ≤ max position.toNat size.toNat + 1) ∧
    ∀ size : UInt64, ∃ source k, PeerAnswers source ∧ source.len = size ∧
      size.toNat < ((SecureFetch.step source windowsText)^[k] .start).written.length := by
  refine ⟨fun size offset length => ⟨fun h => ?_, fun h bytes haccepts => ?_⟩,
    fun size position count => ⟨fun h => ?_, fun h => ?_⟩, fun size => ?_⟩
  · by_cases hzero : min length maxSecureRangeBytes = 0
    · omega
    · have hbytes := h (List.replicate (min length maxSecureRangeBytes) 0)
        (accepts_any size offset (by rwa [ne_eq, List.replicate_eq_nil_iff])
          (by rw [List.length_replicate]))
      rwa [List.length_replicate] at hbytes
  · exact Nat.le_trans haccepts.limit h
  · by_contra hover
    rw [not_or, Nat.not_le, Nat.not_le] at hover
    obtain ⟨hcount, hlast⟩ := hover
    obtain ⟨bytes, stream', hread, hlength⟩ := @readImpl_overlong
      ⟨overlong size (max position.toNat size.toNat + 1), position⟩ _ _ count rfl
      (by dsimp only; omega) hlast
    have hbytes := h _ _ _ _ _ (overlong_answers (by omega)) rfl rfl hread
    dsimp only at hlength
    omega
  · rintro stream attempt destinationNull bytes stream' - - rfl hread
    obtain ⟨hle, hlt⟩ := readImpl_length hread
    have hsize := size.toNat_lt
    omega
  · obtain ⟨k, hk⟩ := SecureFetch.written_past_any_size size windowsText
    exact ⟨_, k, overlong_answers (Nat.le_of_lt (Nat.lt_trans size.toNat_lt (by decide))), rfl, hk⟩

/-! One byte at the end of a file of five. -/

theorem byte_past_the_end_accepted :
    ∃ bytes, Accepts 5 5 1 bytes ∧ ¬bytes.length ≤ (5 : UInt64).toNat -
      min (5 : UInt64).toNat (5 : UInt64).toNat :=
  ⟨[0], accepts_any 5 5 (List.cons_ne_nil _ _) (by decide), by decide⟩

end ClipFerry.Runtime
