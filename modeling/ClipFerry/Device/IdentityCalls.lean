import ClipFerry.Device.Crew
import ClipFerry.Device.Identity
import ClipFerry.Foundation.Transition

namespace ClipFerry.Device

open Foundation Protocol Server Transition VirtualTree

/-! The file steps of `load_or_create_identity`. -/

inductive IdentityPhase where
  | preparing
  | loading (read : ReadPhase)
  | generating
  | publishing (bytes : List UInt8) (publish : PublishPhase)
  | reloading (created : Bool) (read : ReadPhase)
  | returned (result : Except IoError StoredIdentity)
  | stopped

namespace IdentityPhase

def afterLoad : Except IoError TlsIdentity → IdentityPhase
  | .ok identity => .returned (.ok ⟨identity, false⟩)
  | .error error => if error.kind = .notFound then .generating else .returned (.error error)

def afterPublish : Except IoError Unit → IdentityPhase
  | .ok () => .reloading true .statting
  | .error error =>
    if error.kind = .alreadyExists then .reloading false .statting else .returned (.error error)

def afterReload (created : Bool) : Except IoError TlsIdentity → IdentityPhase
  | .ok identity => .returned (.ok ⟨identity, created⟩)
  | .error error => .returned (.error error)

def publication : IdentityPhase → List UInt8 × PublishPhase
  | publishing bytes publish => (bytes, publish)
  | _ => ([], .drawing 0)

end IdentityPhase

def ReadIdentityStep : Directory → ReadPhase → ReadPhase → Prop :=
  ReadStep identityFile identityProtectedLimit "protected identity"

variable (dpapi : Dpapi) (digest : List UInt8 → Secret)

def loaded (result : Except IoError (List UInt8)) : Except IoError TlsIdentity :=
  result >>= identityFromProtected dpapi digest

inductive IdentityCallStep :
    Directory → IdentityPhase → Directory → IdentityPhase → Prop
  | prepared {directory : Directory} :
      IdentityCallStep directory .preparing directory (.loading .statting)
  | notPrepared {directory : Directory} (error : IoError) :
      IdentityCallStep directory .preparing directory (.returned (.error error))
  | loads {directory : Directory} {read read' : ReadPhase}
      (h : ReadIdentityStep directory read read') :
      IdentityCallStep directory (.loading read) directory (.loading read')
  | loaded {directory : Directory} (result : Except IoError (List UInt8)) :
      IdentityCallStep directory (.loading (.finished result)) directory
        (.afterLoad (loaded dpapi digest result))
  | generated {directory : Directory} {certificate privateKey encoded bytes : List UInt8}
      {output : Option (List UInt8)}
      (hencoded : encodeIdentityBundle certificate privateKey = .ok encoded)
      (hprotects : dpapi.protects encoded dpapiEntropy output)
      (hbytes : protectForCurrentUser encoded output = .ok bytes) :
      IdentityCallStep directory .generating directory (.publishing bytes (.drawing 0))
  | notGenerated {directory : Directory} (error : IoError) :
      IdentityCallStep directory .generating directory (.returned (.error error))
  | publishes {directory directory' : Directory} {bytes : List UInt8}
      {publish publish' : PublishPhase}
      (h : PublishStep identityFile bytes directory publish directory' publish') :
      IdentityCallStep directory (.publishing bytes publish) directory' (.publishing bytes publish')
  | published {directory : Directory} {bytes : List UInt8} (result : Except IoError Unit) :
      IdentityCallStep directory (.publishing bytes (.finished result)) directory
        (.afterPublish result)
  | reloads {directory : Directory} {created : Bool} {read read' : ReadPhase}
      (h : ReadIdentityStep directory read read') :
      IdentityCallStep directory (.reloading created read) directory (.reloading created read')
  | reloaded {directory : Directory} {created : Bool} (result : Except IoError (List UInt8)) :
      IdentityCallStep directory (.reloading created (.finished result)) directory
        (.afterReload created (loaded dpapi digest result))
  | stops {directory : Directory} {phase : IdentityPhase}
      (hrunning : ∀ result, phase ≠ .returned result) :
      IdentityCallStep directory phase directory .stopped

structure IdentityWorld where
  directory : Directory
  calls : Nat → IdentityPhase

inductive IdentityStep : IdentityWorld → Nat → IdentityWorld → Prop
  | mk {world : IdentityWorld} {k : Nat} {directory : Directory} {phase phase' : IdentityPhase}
      (hphase : world.calls k = phase)
      (h : IdentityCallStep dpapi digest world.directory phase directory phase') :
      IdentityStep world k ⟨directory, Function.update world.calls k phase'⟩

def AbsentOrComplete (directory : Directory) : Prop :=
  directory.read identityFile = none ∨
    ∃ identity, loadIdentity dpapi digest directory = .ok identity

structure IdentityStart (world : IdentityWorld) : Prop where
  calls : ∀ k, world.calls k = .preparing
  identity : AbsentOrComplete dpapi digest world.directory

end ClipFerry.Device
