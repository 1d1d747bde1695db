import ClipFerry.Discovery.DiscoveryLaw
import ClipFerry.Pairing.Confirm
import ClipFerry.Tray.PairingRuntime

namespace ClipFerry.Tray

open Device Discovery Pairing Protocol Server Transition VirtualTree

def named (peer : Discovery.DiscoveredPeer) : NamedPeer :=
  ⟨⟨peer.fingerprint, peer.serviceEndpoint⟩, peer.label⟩

/-! What one device brings to a `complete_native_pairing`; `answer` is its user's. -/

structure PairingEnd where
  host : StoreHost
  store : DeviceStore
  knownPeer : Option Discovery.DiscoveredPeer
  known : KnownPeers
  now : Nat
  answer : Bool

namespace PairingEnd

variable (digest : List UInt8 → Secret) (device : PairingEnd) (pending : ReachedPairing)

def discovered : Option NamedPeer := (device.known.peer device.now pending.peerFingerprint).map named

def trusted : Bool := (device.store.loadPeer digest pending.peerFingerprint).isOk

def chosen : Except (Text × IoError) NamedPeer :=
  checkChosen pending (chosenPeer pending (device.knownPeer.map named) (device.discovered pending))
    (device.trusted digest pending)

def decision : Bool × Text :=
  match device.chosen digest pending with
  | .error (label, _) => (false, label)
  | .ok peer => (device.answer, peer.label)

def confirm (remote : Except IoError ConfirmMessage) : DeviceStore × Except IoError TrustedPeer :=
  pending.confirm digest device.host device.store (device.decision digest pending).1
    (device.decision digest pending).2 remote

/-! `complete_native_pairing` as far as `activate_discovered_peer`. -/

def completeNativePairing (remote : Except IoError ConfirmMessage) : DeviceStore × CompletePhase :=
  match device.chosen digest pending with
  | .error (_, error) => ((device.confirm digest pending remote).1, .done (.error error))
  | .ok peer =>
    match device.confirm digest pending remote with
    | (store, .error error) => (store, .done (.error error))
    | (store, .ok _) => (store, .activating peer)

end PairingEnd

variable {digest : List UInt8 → Secret} {device : PairingEnd} {pending : ReachedPairing}
  {remote : Except IoError ConfirmMessage} {peer : NamedPeer}

namespace PairingEnd

theorem discovered_fingerprint : ∀ peer ∈ device.discovered pending,
    peer.fingerprint = pending.peerFingerprint := by
  intro peer hpeer
  obtain ⟨found, hfound, rfl⟩ := Option.map_eq_some_iff.mp hpeer
  have hsame : found.fingerprint = pending.peerFingerprint := by simpa using List.find?_some hfound
  exact hsame

theorem decision_chosen (h : device.chosen digest pending = .ok peer) :
    device.decision digest pending = (device.answer, peer.label) := by
  rw [decision, h]

theorem completeNativePairing_steps :
    Relation.ReflTransGen (CompleteStep pending (device.knownPeer.map named)) .choosing
      (device.completeNativePairing digest pending remote).2 := by
  have hfound := @discovered_fingerprint device pending
  rw [completeNativePairing]
  cases hchosen : device.chosen digest pending with
  | error refusal =>
    obtain ⟨label, error⟩ := refusal
    exact .tail (.single (.declines hfound hchosen)) .declined
  | ok peer =>
    have hasked : Relation.ReflTransGen (CompleteStep pending (device.knownPeer.map named))
        .choosing (.confirming peer device.answer) :=
      .tail (.single (.asks hfound hchosen)) (.answered device.answer)
    dsimp only
    split
    · exact hasked.tail (.unconfirmed _)
    · next store trusted hconfirm =>
      rw [confirm, decision_chosen hchosen] at hconfirm
      have happroved : device.answer = true := (PendingPairing.confirm_ok hconfirm).1
      rw [happroved] at hasked
      exact hasked.tail .confirmed

end PairingEnd

structure PendingBetween (digest : List UInt8 → Secret) (world : PairingWorld) (j k : Nat)
    (p q : ReachedPairing) : Prop where
  channel : (world.sessions j).channel = some (.session k)
  first : (world.sessions j).pendingPairing digest = some p.toPendingPairing
  second : (world.sessions k).pendingPairing digest = some q.toPendingPairing

/-! Both users have approved and the other device has stored this one, which has failed to store
the other for no other reason than the label. -/

structure OneSided (digest : List UInt8 → Secret) (device other : PairingEnd)
    (p q : ReachedPairing) (peer : NamedPeer) : Prop where
  chosen : device.chosen digest p = .ok peer
  approved : device.answer = true
  otherApproved : (other.decision digest q).1 = true
  persisted : ∃ store trusted, other.confirm digest q (.ok (p.message true)) = (store, .ok trusted) ∧
    store.loadPeer digest p.localFingerprint = .ok trusted
  failed : ∃ store error, device.completeNativePairing digest p (.ok (q.message true)) =
    (store, .done (.error error))
  label : ∃ text store trusted, p.confirm digest device.host device.store true text
    (.ok (q.message true)) = (store, .ok trusted)

end ClipFerry.Tray
