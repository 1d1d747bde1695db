import ClipFerry.Device.StoredLabel
import ClipFerry.Discovery.PacketCodec

namespace ClipFerry.Discovery

open Device Foundation Protocol VirtualTree

variable {label source : Text} {packet : Packet} {encoded : List UInt8}

def VisibleBytes (bytes : List UInt8) : Prop := ∃ text, asBytes text = bytes ∧ Visible text

def FitsVisible (label : Text) : Prop :=
  (∀ c ∈ trim label, isControl c = true) ∨ ∃ before c after, trim label = before ++ c :: after ∧
    isWhitespace c = false ∧ isControl c = false ∧
    (asBytes (before.filter fun character => !isControl character)).length + c.utf8Size ≤ labelLimit

theorem Announceable.storable (h : Announceable label) : Storable label ↔ Visible label :=
  storable_iff.trans (validLabel_trim_iff (h.short.trans (by decide)) h.printable)

theorem asBytes_injective : Function.Injective asBytes := by
  intro text text' hsame
  have hdecode := fromUtf8_asBytes text
  rw [hsame, fromUtf8_asBytes] at hdecode
  exact (Except.ok.inj hdecode).symm

theorem visibleBytes_asBytes : VisibleBytes (asBytes label) ↔ Visible label := by
  constructor
  · rintro ⟨text, htext, hvisible⟩
    exact asBytes_injective htext ▸ hvisible
  · exact fun hvisible => ⟨label, rfl, hvisible⟩

theorem decode_label (h : Packet.decode encoded = .ok packet) :
    encoded.drop headerLength = asBytes packet.label := by
  obtain ⟨-, rfl⟩ := Packet.decode_ok h
  exact (Packet.remaining_label packet).drop

theorem decode_storable (h : Packet.decode encoded = .ok packet) :
    Storable packet.label ↔ VisibleBytes (encoded.drop headerLength) := by
  rw [decode_label h, visibleBytes_asBytes, (Packet.decode_ok h).1.label.storable]

theorem visible_pushCharacters : Visible (pushCharacters [] source) ↔
    ∃ before c after, source = before ++ c :: after ∧ isWhitespace c = false ∧
      (asBytes before).length + c.utf8Size ≤ labelLimit := by
  simp only [length_asBytes]
  rw [Visible, pushCharacters_eq]
  exact exists_mem_takeFitting

theorem visible_boundedLabel : Visible (boundedLabel label) ↔ FitsVisible label := by
  rw [boundedLabel]
  by_cases hcleaned : cleaned label = []
  · have hcontrol : ∀ c ∈ trim label, isControl c = true := by
      simpa [cleaned, List.filter_eq_nil_iff] using hcleaned
    rw [if_pos hcleaned]
    refine iff_of_true ?_ (.inl hcontrol)
    exact visible_pushCharacters.mpr ⟨[], 'W', _, rfl, by decide, by decide⟩
  · rw [if_neg hcleaned, visible_pushCharacters]
    constructor
    · rintro ⟨before, c, after, hsplit, hspace, hfits⟩
      obtain ⟨front, back, htrim, rfl, hback⟩ := List.filter_eq_append_iff.mp hsplit
      obtain ⟨skipped, rest, rfl, hskipped, hc, -⟩ := List.filter_eq_cons_iff.mp hback
      have hnone : skipped.filter (fun character => !isControl character) = [] :=
        List.filter_eq_nil_iff.mpr hskipped
      refine .inr ⟨front ++ skipped, c, rest, ?_, hspace, by simpa using hc, ?_⟩
      · rw [htrim, List.append_assoc]
      · rwa [List.filter_append, hnone, List.append_nil]
    · rintro (hcontrol | ⟨before, c, after, htrim, hspace, hc, hfits⟩)
      · refine absurd ?_ hcleaned
        exact List.filter_eq_nil_iff.mpr fun c hc => by simp [hcontrol c hc]
      · refine ⟨before.filter fun character => !isControl character, c,
          after.filter fun character => !isControl character, ?_, hspace, hfits⟩
        rw [cleaned, htrim, List.filter_append, List.filter_cons_of_pos (by simpa using hc)]

theorem boundedLabel_storable (label : Text) : Storable (boundedLabel label) ↔ FitsVisible label :=
  (boundedLabel_announceable label).storable.trans visible_boundedLabel

end ClipFerry.Discovery
