import ClipFerry.Device.TrustRefinement

namespace ClipFerry.Device

open Checked Foundation Protocol Server VirtualTree

variable {dpapi : Dpapi} {digest : List UInt8 → Secret} {readDir : Directory → List Text}
  {processId : UInt32} {draws : List UInt64} {store store' : DeviceStore} {label other : Text}
  {peer : TrustedPeer} {certificate : List UInt8} {expected : CertificateFingerprint}

theorem Admits.trusts (h : Admits digest processId draws (store.trust.getD .empty) ⟨digest certificate⟩)
    (hreadDir : Lists readDir)
    (htrustable : Trustable (ownFingerprint dpapi digest store.root) ⟨digest certificate⟩
      certificate (trim label)) :
    ∃ store', store.trustPeer dpapi digest readDir processId draws certificate ⟨digest certificate⟩
        label = (store', .ok ⟨⟨digest certificate⟩, trim label, certificate⟩) ∧
      store'.loadPeer digest ⟨digest certificate⟩ =
        .ok ⟨⟨digest certificate⟩, trim label, certificate⟩ := by
  have hvalid := htrustable.validPeer
  obtain ⟨written, hrecord, hread⟩ := h.records hreadDir hvalid
  refine ⟨{ store with trust := some written }, ?_,
    decodePeerFile_eq_ok hvalid (encodeTrustRecord_eq hvalid) ((hread _).trans (if_pos rfl))⟩
  rw [DeviceStore.trustPeer, checkPeer_eq_ok.mpr ⟨htrustable, rfl, rfl⟩]
  dsimp only
  rw [hrecord]

theorem trustPeer_ok (hreadDir : Lists readDir)
    (h : store.trustPeer dpapi digest readDir processId draws certificate expected label =
      (store', .ok peer)) :
    Trustable (ownFingerprint dpapi digest store.root) ⟨digest certificate⟩ certificate
        (trim label) ∧ ⟨digest certificate⟩ = expected ∧
      Admits digest processId draws (store.trust.getD .empty) expected := by
  rw [DeviceStore.trustPeer] at h
  split at h
  · cases h
  next checked hchecked =>
  obtain ⟨htrustable, hexpected, rfl⟩ := checkPeer_eq_ok.mp hchecked
  dsimp only at h
  obtain ⟨-, hresult⟩ := Prod.mk.inj h
  have hrecord : recordPeer digest readDir processId draws (store.trust.getD .empty)
      ⟨⟨digest certificate⟩, trim label, certificate⟩ = (_, .ok peer) := Prod.ext rfl hresult
  exact ⟨htrustable, hexpected, hexpected ▸ Admits.of_recordPeer hreadDir hrecord⟩

theorem trustPeer_relabel (hreadDir : Lists readDir)
    (h : store.trustPeer dpapi digest readDir processId draws certificate expected other =
      (store', .ok peer)) (hlabel : ValidLabel (trim label)) :
    ∃ store', store.trustPeer dpapi digest readDir processId draws certificate expected label =
        (store', .ok ⟨expected, trim label, certificate⟩) ∧
      store'.loadPeer digest expected = .ok ⟨expected, trim label, certificate⟩ := by
  obtain ⟨htrustable, rfl, hadmits⟩ := trustPeer_ok hreadDir h
  exact hadmits.trusts hreadDir { htrustable with label := hlabel }

end ClipFerry.Device
