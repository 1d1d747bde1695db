import ClipFerry.Device.TrustOutcome
import ClipFerry.Pairing.PairingLaw

namespace ClipFerry.Pairing

open Checked Device Protocol Server VirtualTree

/-! What the system gives to a call on the trust registry. -/

structure StoreHost where
  dpapi : Dpapi
  readDir : Directory → List Text
  listed : Lists readDir
  processId : UInt32
  draws : List UInt64

abbrev ConfirmMessage : Type := List.Vector UInt8 confirmLength

namespace PendingPairing

def message (pending : PendingPairing) (localApproved : Bool) : ConfirmMessage :=
  ⟨confirmMessage pending.transcriptHash localApproved, length_confirmMessage _ _⟩

/-! `confirm`. `remote` is what its stream comes to: a failure, or the other end's message. -/

def confirm (digest : List UInt8 → Secret) (host : StoreHost) (store : DeviceStore)
    (pending : PendingPairing) (localApproved : Bool) (peerLabel : Text)
    (remote : Except IoError ConfirmMessage) : DeviceStore × Except IoError TrustedPeer :=
  match remote with
  | .error error => (store, .error error)
  | .ok remote =>
    match checkConfirm pending.transcriptHash localApproved remote.val with
    | .error error => (store, .error error)
    | .ok () =>
      match loadIdentity host.dpapi digest store.root with
      | .error error => (store, .error error)
      | .ok currentIdentity =>
        if currentIdentity.fingerprint ≠ pending.localFingerprint then
          (store, .error (invalidData "local device identity changed during pairing"))
        else
          store.trustPeer host.dpapi digest host.readDir host.processId host.draws
            pending.peerCertificate pending.peerFingerprint peerLabel

variable {digest : List UInt8 → Secret} {host : StoreHost} {store store' : DeviceStore}
  {pending : PendingPairing} {approved : Bool} {label other : Text}
  {remote : Except IoError ConfirmMessage} {peer : TrustedPeer} {identity : TlsIdentity}

theorem confirm_reaches (hremote : remote = .ok (pending.message true))
    (hload : loadIdentity host.dpapi digest store.root = .ok identity)
    (hidentity : identity.fingerprint = pending.localFingerprint) :
    pending.confirm digest host store true label remote =
      store.trustPeer host.dpapi digest host.readDir host.processId host.draws
        pending.peerCertificate pending.peerFingerprint label := by
  have hcheck : checkConfirm pending.transcriptHash true (pending.message true).val = .ok () :=
    (checkConfirm_eq_ok (length_confirmMessage _ _)).mpr ⟨rfl, rfl⟩
  subst hremote
  unfold confirm
  dsimp only
  rw [hcheck, hload]
  dsimp only
  rw [if_neg (not_not.mpr hidentity)]

theorem confirm_ok
    (h : pending.confirm digest host store approved label remote = (store', .ok peer)) :
    approved = true ∧ remote = .ok (pending.message true) ∧
      ∃ identity, loadIdentity host.dpapi digest store.root = .ok identity ∧
        identity.fingerprint = pending.localFingerprint := by
  unfold confirm at h
  split at h
  · cases h
  next message =>
  split at h
  · cases h
  next hcheck =>
  split at h
  · cases h
  next identity hload =>
  split at h
  · cases h
  next hidentity =>
  obtain ⟨happroved, hmessage⟩ := (checkConfirm_eq_ok message.property).mp hcheck
  exact ⟨happroved, congrArg Except.ok (Subtype.ext hmessage), identity, hload, not_not.mp hidentity⟩

theorem confirm_validLabel
    (h : pending.confirm digest host store approved label remote = (store', .ok peer)) :
    ValidLabel (trim label) := by
  obtain ⟨rfl, hremote, identity, hload, hidentity⟩ := confirm_ok h
  rw [confirm_reaches hremote hload hidentity] at h
  exact (trustPeer_ok host.listed h).1.label

theorem confirm_relabel
    (h : pending.confirm digest host store approved other remote = (store', .ok peer))
    (hlabel : ValidLabel (trim label)) :
    ∃ store', pending.confirm digest host store approved label remote =
        (store', .ok ⟨pending.peerFingerprint, trim label, pending.peerCertificate⟩) ∧
      store'.loadPeer digest pending.peerFingerprint =
        .ok ⟨pending.peerFingerprint, trim label, pending.peerCertificate⟩ := by
  obtain ⟨rfl, hremote, identity, hload, hidentity⟩ := confirm_ok h
  rw [confirm_reaches hremote hload hidentity] at h ⊢
  exact trustPeer_relabel host.listed h hlabel

end PendingPairing

end ClipFerry.Pairing
