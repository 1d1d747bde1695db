import ClipFerry.Device.TrustOutcome

namespace ClipFerry.Device

open Checked Protocol Server VirtualTree

variable {label text : Text}

def Visible (text : Text) : Prop := ∃ c ∈ text, isWhitespace c = false

structure Storable (label : Text) : Prop where
  accepted : validateLabel label = .ok (trim label)
  recorded : ∀ {digest certificate}, validateCertificate certificate = .ok () →
    ∃ record, encodeTrustRecord ⟨⟨digest certificate⟩, label, certificate⟩ = .ok record ∧
      decodePeer digest record ⟨digest certificate⟩ =
        .ok ⟨⟨digest certificate⟩, trim label, certificate⟩
  stored : ∀ {dpapi digest readDir processId draws certificate expected other peer}
    {store store' : DeviceStore}, Lists readDir →
    store.trustPeer dpapi digest readDir processId draws certificate expected other =
      (store', .ok peer) →
    ∃ store', store.trustPeer dpapi digest readDir processId draws certificate expected label =
        (store', .ok ⟨expected, trim label, certificate⟩) ∧
      store'.loadPeer digest expected = .ok ⟨expected, trim label, certificate⟩

theorem trim_split (text : Text) : ∃ before after, text = before ++ (trim text ++ after) := by
  obtain ⟨before, hbefore⟩ := List.dropWhile_suffix (l := text) isWhitespace
  obtain ⟨after, hafter⟩ := List.rdropWhile_prefix isWhitespace (text.dropWhile isWhitespace)
  exact ⟨before, after, by rw [trim, hafter, hbefore]⟩

theorem trim_subset (text : Text) : trim text ⊆ text := by
  obtain ⟨before, after, hsplit⟩ := trim_split text
  intro c hc
  rw [hsplit]
  exact List.mem_append_right before (List.mem_append_left after hc)

theorem length_trim_le (text : Text) : (asBytes (trim text)).length ≤ (asBytes text).length := by
  obtain ⟨before, after, hsplit⟩ := trim_split text
  have hbytes : asBytes text = asBytes before ++ (asBytes (trim text) ++ asBytes after) := by
    rw [asBytes, asBytes, asBytes, asBytes, ← List.flatMap_append, ← List.flatMap_append, ← hsplit]
  rw [hbytes, List.length_append, List.length_append]
  omega

theorem trim_eq_nil : trim text = [] ↔ ¬Visible text := by
  have hall : ¬Visible text ↔ ∀ c ∈ text, isWhitespace c = true := by simp [Visible]
  rw [hall, trim, List.rdropWhile_eq_nil_iff]
  constructor
  · intro hspaces
    rw [← List.dropWhile_eq_nil_iff]
    by_contra hne
    have hhead := List.head_dropWhile_not isWhitespace hne
    rw [hspaces _ (List.head_mem hne)] at hhead
    cases hhead
  · intro hspaces c hc
    exact hspaces c ((List.dropWhile_suffix _).subset hc)

theorem validLabel_trim_iff (hshort : (asBytes label).length ≤ labelByteLimit)
    (hprintable : label.any isControl = false) : ValidLabel (trim label) ↔ Visible label := by
  constructor
  · intro hvalid
    by_contra hblank
    exact hvalid.nonempty (trim_eq_nil.mpr hblank)
  · intro hvisible
    refine ⟨trim_trim label, fun hnil => trim_eq_nil.mp hnil hvisible,
      (length_trim_le label).trans hshort, ?_⟩
    rw [List.any_eq_false]
    exact fun c hc => List.any_eq_false.mp hprintable c (trim_subset label hc)

theorem encodeTrustRecord_trim {fingerprint : CertificateFingerprint} {certificate : List UInt8}
    (h : validateLabel label = .ok text) : encodeTrustRecord ⟨fingerprint, label, certificate⟩ =
      encodeTrustRecord ⟨fingerprint, text, certificate⟩ := by
  rw [encodeTrustRecord, encodeTrustRecord, h, validateLabel_validateLabel h]

theorem storable_iff : Storable label ↔ ValidLabel (trim label) := by
  constructor
  · intro h
    exact validLabel_iff.mpr (validateLabel_validateLabel h.accepted)
  · intro hvalid
    have haccepted : validateLabel label = .ok (trim label) := validateLabel_eq_ok.mpr
      ⟨rfl, hvalid.nonempty, hvalid.short, hvalid.printable⟩
    refine ⟨haccepted, fun {digest certificate} hcertificate => ?_, fun hreadDir htrusted =>
      trustPeer_relabel hreadDir htrusted hvalid⟩
    have hpeer : ValidPeer digest ⟨⟨digest certificate⟩, trim label, certificate⟩ :=
      ⟨rfl, hcertificate, validLabel_iff.mp hvalid⟩
    have hrecord : encodeTrustRecord ⟨⟨digest certificate⟩, trim label, certificate⟩ =
        .ok (trustRecord certificate (trim label)) := encodeTrustRecord_eq hpeer
    have hdecode := decodePeer_encodeTrustRecord hpeer hrecord
    exact ⟨_, (encodeTrustRecord_trim haccepted).trans hrecord, hdecode⟩

end ClipFerry.Device
