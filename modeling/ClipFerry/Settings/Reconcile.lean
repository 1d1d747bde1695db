import Mathlib.Logic.Function.Basic
import ClipFerry.Settings.SettingsFile

namespace ClipFerry.Settings

open Device Foundation Protocol Server Transition VirtualTree

def servicePort : UInt16 := 45233

structure DiscoveredPeer where
  fingerprint : CertificateFingerprint
  serviceEndpoint : SocketAddr
deriving DecidableEq

def reconciledSettings (peer : DiscoveredPeer) (localIp : IpAddr) (existing : Option AppSettings) :
    AppSettings where
  localEndpoint := .new localIp servicePort
  activePeer := peer.fingerprint
  peerEndpoint := peer.serviceEndpoint
  autoReceive := existing.all (·.autoReceive)

/-! The file steps of `reconcile_trusted_endpoint`. -/

inductive ReconcilePhase where
  | checking
  | loading (load : LoadPhase)
  | routing (existing : Option AppSettings)
  | saving (existing : Option AppSettings) (settings : AppSettings) (save : SavePhase)
  | returned

namespace ReconcilePhase

def afterLoad (peer : DiscoveredPeer) (existing : Option AppSettings) : ReconcilePhase :=
  if existing.any (·.activePeer ≠ peer.fingerprint) = true then .returned else .routing existing

def afterRoute (peer : DiscoveredPeer) (existing : Option AppSettings) (localIp : IpAddr) :
    ReconcilePhase :=
  if existing = some (reconciledSettings peer localIp existing) then .returned
  else .saving existing (reconciledSettings peer localIp existing) .validating

end ReconcilePhase

inductive ReconcileStep (peer : DiscoveredPeer) :
    Stored × ReconcilePhase → Option SaveEvent → Stored × ReconcilePhase → Prop
  | untrusted {stored : Stored} :
      ReconcileStep peer (stored, .checking) none (stored, .returned)
  | trusted {stored : Stored} :
      ReconcileStep peer (stored, .checking) none (stored, .loading .opening)
  | loads {stored : Stored} {load load' : LoadPhase} (loadPeer : LoadPeer)
      (h : LoadStep loadPeer stored load load') :
      ReconcileStep peer (stored, .loading load) none (stored, .loading load')
  | loaded {stored : Stored} (result : Except IoError AppSettings) :
      ReconcileStep peer (stored, .loading (.finished result)) none
        (stored, .afterLoad peer result.toOption)
  | noRoute {stored : Stored} {existing : Option AppSettings} :
      ReconcileStep peer (stored, .routing existing) none (stored, .returned)
  | routed {stored : Stored} {existing : Option AppSettings} (localIp : IpAddr) :
      ReconcileStep peer (stored, .routing existing) none
        (stored, .afterRoute peer existing localIp)
  | saves {stored stored' : Stored} {existing : Option AppSettings} {settings : AppSettings}
      {save save' : SavePhase} {event : SaveEvent} (loadPeer : LoadPeer)
      (h : SaveStep loadPeer settings (stored, save) event (stored', save')) :
      ReconcileStep peer (stored, .saving existing settings save) (some event)
        (stored', .saving existing settings save')
  | saved {stored : Stored} {existing : Option AppSettings} {settings : AppSettings}
      (result : Except IoError Unit) :
      ReconcileStep peer (stored, .saving existing settings (.finished result)) none
        (stored, .returned)

/-! Saves of the user or of pairing, and discovery, over one file. -/

inductive SettingsCall where
  | user (settings : AppSettings) (save : SavePhase)
  | discovery (peer : DiscoveredPeer) (phase : ReconcilePhase)

def SavePhase.written : SavePhase → Option Nat
  | writing written => some written
  | _ => none

namespace SettingsCall

def saving : SettingsCall → Option (AppSettings × SavePhase)
  | user settings save => some (settings, save)
  | discovery _ (.saving _ settings save) => some (settings, save)
  | discovery _ _ => none

def writing (call : SettingsCall) : Option (AppSettings × Nat) :=
  call.saving.bind fun (settings, save) => save.written.map fun written => (settings, written)

def found : SettingsCall → Option DiscoveredPeer
  | user _ _ => none
  | discovery peer _ => some peer

def begun : SettingsCall → Bool
  | user _ .validating | discovery _ .checking => false
  | _ => true

def ended : SettingsCall → Bool
  | user _ (.finished _) | discovery _ .returned => true
  | _ => false

end SettingsCall

inductive SettingsCallStep :
    Stored × SettingsCall → Option SaveEvent → Stored × SettingsCall → Prop
  | user {stored stored' : Stored} {settings : AppSettings} {save save' : SavePhase}
      {event : SaveEvent} (loadPeer : LoadPeer)
      (h : SaveStep loadPeer settings (stored, save) event (stored', save')) :
      SettingsCallStep (stored, .user settings save) (some event) (stored', .user settings save')
  | discovery {stored stored' : Stored} {peer : DiscoveredPeer} {phase phase' : ReconcilePhase}
      {event : Option SaveEvent} (h : ReconcileStep peer (stored, phase) event (stored', phase')) :
      SettingsCallStep (stored, .discovery peer phase) event (stored', .discovery peer phase')

structure SettingsWorld where
  stored : Stored
  calls : Nat → SettingsCall
  last : Option AppSettings

namespace SettingsWorld

def lastAfter (last : Option AppSettings) : SettingsCall → Option AppSettings
  | .user settings .syncing => some settings
  | _ => last

def quiet (world : SettingsWorld) : Prop :=
  ∀ k, (world.calls k).begun = true → (world.calls k).ended = true

end SettingsWorld

inductive SettingsStep : SettingsWorld → Nat × Option SaveEvent → SettingsWorld → Prop
  | mk {world : SettingsWorld} {k : Nat} {event : Option SaveEvent} {stored : Stored}
      {call call' : SettingsCall} (hcall : world.calls k = call)
      (h : SettingsCallStep (world.stored, call) event (stored, call')) :
      SettingsStep world (k, event)
        ⟨stored, Function.update world.calls k call', SettingsWorld.lastAfter world.last call'⟩

def storedSettings : Stored → Except IoError AppSettings
  | none => .error notFound
  | some contents => readToString contents >>= decode

def PrivateEndpoints (settings : AppSettings) : Prop :=
  validatePrivateEndpoint settings.localEndpoint = .ok () ∧
    validatePrivateEndpoint settings.peerEndpoint = .ok ()

structure SettingsStart (world : SettingsWorld) : Prop where
  calls : ∀ k, (world.calls k).begun = false
  last : ∀ settings, world.last = some settings →
    PrivateEndpoints settings ∧ world.stored = some settings.bytes

end ClipFerry.Settings
