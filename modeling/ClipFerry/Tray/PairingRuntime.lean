import ClipFerry.Foundation.Flag
import ClipFerry.Pairing.Session
import ClipFerry.Settings.Reconcile

namespace ClipFerry.Tray

open Foundation Pairing Protocol Server Settings VirtualTree

structure NamedPeer extends DiscoveredPeer where
  label : Text
deriving DecidableEq

structure ReachedPairing extends PendingPairing where
  peerAddress : SocketAddr

def alreadyPairing : IoError := .new .alreadyExists "已有配对确认正在进行"

def chosenPeer (pending : ReachedPairing) (knownPeer discovered : Option NamedPeer) :
    Option NamedPeer :=
  (knownPeer.filter (·.fingerprint = pending.peerFingerprint)).or discovered

def checkChosen (pending : ReachedPairing) (chosen : Option NamedPeer) (trusted : Bool) :
    Except (Text × IoError) NamedPeer :=
  match chosen with
  | none => .error ("未发现设备".toList,
      .new .permissionDenied "对端身份与局域网发现记录不匹配，已拒绝配对")
  | some peer =>
    if peer.serviceEndpoint.ip ≠ pending.peerAddress.ip then
      .error ("地址不匹配的设备".toList,
        .new .permissionDenied "对端连接地址与局域网发现记录不匹配，已拒绝配对")
    else if trusted = true then
      .error (peer.label, .new .alreadyExists "该设备已经配对，无需重复确认")
    else .ok peer

inductive CompletePhase where
  | choosing
  | declining (label : Text) (error : IoError)
  | asking (peer : NamedPeer)
  | confirming (peer : NamedPeer) (approved : Bool)
  | activating (peer : NamedPeer)
  | announcing (peer : NamedPeer)
  | done (result : Except IoError Unit)

inductive CompleteStep (pending : ReachedPairing) (knownPeer : Option NamedPeer) :
    CompletePhase → CompletePhase → Prop
  | declines {discovered : Option NamedPeer} {trusted : Bool} {label : Text} {error : IoError}
      (hfound : ∀ peer ∈ discovered, peer.fingerprint = pending.peerFingerprint)
      (hcheck : checkChosen pending (chosenPeer pending knownPeer discovered) trusted =
        .error (label, error)) :
      CompleteStep pending knownPeer .choosing (.declining label error)
  | declined {label : Text} {error : IoError} :
      CompleteStep pending knownPeer (.declining label error) (.done (.error error))
  | asks {discovered : Option NamedPeer} {trusted : Bool} {peer : NamedPeer}
      (hfound : ∀ peer ∈ discovered, peer.fingerprint = pending.peerFingerprint)
      (hcheck : checkChosen pending (chosenPeer pending knownPeer discovered) trusted =
        .ok peer) :
      CompleteStep pending knownPeer .choosing (.asking peer)
  | answered {peer : NamedPeer} (approved : Bool) :
      CompleteStep pending knownPeer (.asking peer) (.confirming peer approved)
  | unconfirmed {peer : NamedPeer} {approved : Bool} (error : IoError) :
      CompleteStep pending knownPeer (.confirming peer approved) (.done (.error error))
  | confirmed {peer : NamedPeer} :
      CompleteStep pending knownPeer (.confirming peer true) (.activating peer)
  | inactive {peer : NamedPeer} (error : IoError) :
      CompleteStep pending knownPeer (.activating peer) (.done (.error error))
  | activated {peer : NamedPeer} :
      CompleteStep pending knownPeer (.activating peer) (.announcing peer)
  | announced {peer : NamedPeer} :
      CompleteStep pending knownPeer (.announcing peer) (.done (.ok ()))

inductive PairingParty where
  | connector (call : Nat)
  | listener
deriving DecidableEq

/-! One call of `PairingRuntime::connect` and the thread it starts. -/

inductive ConnectPhase where
  | idle
  | called (peer : NamedPeer)
  | spawning (peer : NamedPeer)
  | refused (error : IoError)
  | unspawned (error : IoError)
  | connecting (peer : NamedPeer)
  | completing (peer : NamedPeer) (pending : ReachedPairing) (phase : CompletePhase)
  | logging (result : Except IoError Unit)
  | releasing
  | finished

namespace ConnectPhase

def attempting : ConnectPhase → Bool
  | connecting _ | completing _ _ _ | logging _ => true
  | _ => false

def holding : ConnectPhase → Bool
  | spawning _ | connecting _ | completing _ _ _ | logging _ | releasing => true
  | _ => false

end ConnectPhase

inductive ConnectStep (self : PairingParty) :
    Bool → ConnectPhase → FlagEvent PairingParty → Bool → ConnectPhase → Prop
  | call {busy : Bool} (peer : NamedPeer) : ConnectStep self busy .idle .work busy (.called peer)
  | take {peer : NamedPeer} :
      ConnectStep self false (.called peer) (.take self) true (.spawning peer)
  | refuse {peer : NamedPeer} :
      ConnectStep self true (.called peer) (.refuse self) true (.refused alreadyPairing)
  | spawn {busy : Bool} {peer : NamedPeer} :
      ConnectStep self busy (.spawning peer) .work busy (.connecting peer)
  | unspawned {busy : Bool} {peer : NamedPeer} (error : IoError) :
      ConnectStep self busy (.spawning peer) (.leak self) busy (.unspawned error)
  | unconnected {busy : Bool} {peer : NamedPeer} (error : IoError) :
      ConnectStep self busy (.connecting peer) .work busy (.logging (.error error))
  | connected {busy : Bool} {peer : NamedPeer} (pending : ReachedPairing) :
      ConnectStep self busy (.connecting peer) .work busy (.completing peer pending .choosing)
  | complete {busy : Bool} {peer : NamedPeer} {pending : ReachedPairing}
      {phase phase' : CompletePhase} (h : CompleteStep pending (some peer) phase phase') :
      ConnectStep self busy (.completing peer pending phase) .work busy
        (.completing peer pending phase')
  | completed {busy : Bool} {peer : NamedPeer} {pending : ReachedPairing}
      {result : Except IoError Unit} :
      ConnectStep self busy (.completing peer pending (.done result)) .work busy
        (.logging result)
  | logged {busy : Bool} {result : Except IoError Unit} :
      ConnectStep self busy (.logging result) .work busy .releasing
  | release {busy : Bool} : ConnectStep self busy .releasing (.release self) false .finished

/-! `pairing_listener_loop`. -/

inductive ListenPhase where
  | top
  | listening
  | listened (result : Except IoError ReachedPairing)
  | matching (result : Except IoError ReachedPairing)
  | declining (pending : ReachedPairing)
  | completing (pending : ReachedPairing) (phase : CompletePhase)
  | logging (result : Except IoError Unit)
  | releasing
  | sleeping (error : IoError)
  | stopped

namespace ListenPhase

def confirming : ListenPhase → Bool
  | completing _ _ => true
  | _ => false

def holding : ListenPhase → Bool
  | completing _ _ | logging _ | releasing => true
  | _ => false

end ListenPhase

inductive ListenStep (stop : Bool) :
    Bool → ListenPhase → FlagEvent PairingParty → Bool → ListenPhase → Prop
  | exit {busy : Bool} (hstop : stop = true) : ListenStep stop busy .top .work busy .stopped
  | listen {busy : Bool} (hstop : stop = false) : ListenStep stop busy .top .work busy .listening
  | listened {busy : Bool} (result : Except IoError ReachedPairing) :
      ListenStep stop busy .listening .work busy (.listened result)
  | leave {busy : Bool} {result : Except IoError ReachedPairing} (hstop : stop = true) :
      ListenStep stop busy (.listened result) .work busy .stopped
  | go {busy : Bool} {result : Except IoError ReachedPairing} (hstop : stop = false) :
      ListenStep stop busy (.listened result) .work busy (.matching result)
  | refuse {pending : ReachedPairing} :
      ListenStep stop true (.matching (.ok pending)) (.refuse .listener) true (.declining pending)
  | declined {busy : Bool} {pending : ReachedPairing} :
      ListenStep stop busy (.declining pending) .work busy .top
  | take {pending : ReachedPairing} :
      ListenStep stop false (.matching (.ok pending)) (.take .listener) true
        (.completing pending .choosing)
  | complete {busy : Bool} {pending : ReachedPairing} {phase phase' : CompletePhase}
      (h : CompleteStep pending none phase phase') :
      ListenStep stop busy (.completing pending phase) .work busy (.completing pending phase')
  | completed {busy : Bool} {pending : ReachedPairing} {result : Except IoError Unit} :
      ListenStep stop busy (.completing pending (.done result)) .work busy (.logging result)
  | logged {busy : Bool} {result : Except IoError Unit} :
      ListenStep stop busy (.logging result) .work busy .releasing
  | release {busy : Bool} :
      ListenStep stop busy .releasing (.release .listener) false .top
  | waited {busy : Bool} {error : IoError} (htimeout : error.kind = .timedOut) :
      ListenStep stop busy (.matching (.error error)) .work busy .top
  | failed {busy : Bool} {error : IoError} (hfailure : error.kind ≠ .timedOut) :
      ListenStep stop busy (.matching (.error error)) .work busy (.sleeping error)
  | slept {busy : Bool} {error : IoError} :
      ListenStep stop busy (.sleeping error) .work busy .top

structure PairingRuntime where
  stop : Bool
  busy : Bool
  calls : Nat → ConnectPhase
  listener : ListenPhase

inductive RuntimeStep : PairingRuntime → FlagEvent PairingParty → PairingRuntime → Prop
  | connect {runtime : PairingRuntime} (call : Nat) {event : FlagEvent PairingParty} {busy : Bool}
      {phase : ConnectPhase}
      (h : ConnectStep (.connector call) runtime.busy (runtime.calls call) event busy phase) :
      RuntimeStep runtime event { runtime with
        busy := busy
        calls := Function.update runtime.calls call phase }
  | listen {runtime : PairingRuntime} {event : FlagEvent PairingParty} {busy : Bool}
      {phase : ListenPhase}
      (h : ListenStep runtime.stop runtime.busy runtime.listener event busy phase) :
      RuntimeStep runtime event { runtime with busy := busy, listener := phase }
  | drop {runtime : PairingRuntime} : RuntimeStep runtime .work { runtime with stop := true }

namespace PairingRuntime

def start : PairingRuntime := ⟨false, false, fun _ => .idle, .top⟩

def inProgress (runtime : PairingRuntime) : PairingParty → Bool
  | .connector call => (runtime.calls call).attempting
  | .listener => runtime.listener.confirming

def holding (runtime : PairingRuntime) : PairingParty → Bool
  | .connector call => (runtime.calls call).holding
  | .listener => runtime.listener.holding

end PairingRuntime

end ClipFerry.Tray
