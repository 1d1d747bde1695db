import ClipFerry.Server.Session

namespace ClipFerry.Client

open VirtualTree Protocol Server

def ioToWindowsError (error : IoError) : HResult :=
  match error.kind with
  | .interrupted => .cancelled
  | .timedOut | .wouldBlock => .timeout
  | .permissionDenied | .invalidData => .accessDenied
  | .invalidInput => .invalidArg
  | _ => .readFault

structure RemoteSource (κ : Type) where
  client : Nat
  offerId : ProtocolId
  fileId : ProtocolId
  fileName : Text
  size : UInt64
  transfer : Option κ
  transferLocked : Bool
  nextControlSequence : Nat
  completionSent : Bool
  readCalls : Nat
  bytesRead : Nat

def RemoteSource.new {κ : Type} (client : Nat) (manifest : OfferManifest)
    (entry : OfferManifestEntry) : RemoteSource κ :=
  ⟨client, manifest.offerId, entry.fileId, entry.descriptor.fileName, entry.descriptor.size, none,
    false, 1, false, 0, 0⟩

/-! The commands a source sends, over the type of the credentials that name a transfer. -/

inductive Rpc (κ : Type) where
  | beginTransfer (source : Nat)
  | readRange (credentials : κ) (offset : UInt64) (requested : Nat)
  | control (credentials : κ) (sequence : Nat) (opcode : Opcode)
  | status (credentials : κ)
deriving DecidableEq

inductive Reply (κ : Type) where
  | began (credentials : κ)
  | range (status : TransferStatus) (bytes : List UInt8)
  | status (status : TransferStatus)
  | failed (error : IoError)

inductive SourceTask where
  | readAt (offset : UInt64) (length : Nat)
  | sendControl (opcode : Opcode)
  | complete
  | status
  | cancelLocalFirst
deriving DecidableEq

inductive Purpose where
  | read (offset : UInt64) (requested : Nat)
  | control (sequence : Nat) (opcode : Opcode)
  | status
deriving DecidableEq

inductive SourcePc (κ : Type) where
  | start (task : SourceTask)
  | gateCancelled (offset : UInt64) (length : Nat)
  | gatePaused (offset : UInt64) (length : Nat)
  | allocate (opcode : Opcode)
  | lockTransfer (purpose : Purpose)
  | beginning (purpose : Purpose)
  | checkCancelled (purpose : Purpose) (credentials : κ)
  | allocateCancel (purpose : Purpose) (credentials : κ)
  | sendCancel (purpose : Purpose) (credentials : κ) (sequence : Nat)
  | checkPaused (purpose : Purpose) (credentials : κ)
  | allocatePause (purpose : Purpose) (credentials : κ)
  | sendPause (purpose : Purpose) (credentials : κ) (sequence : Nat)
  | reading (credentials : κ) (offset : UInt64) (requested : Nat)
  | napping (credentials : κ) (offset : UInt64) (requested : Nat)
  | received (credentials : κ) (offset : UInt64) (bytes : List UInt8)
  | allocateComplete (credentials : κ)
  | sendComplete (credentials : κ) (sequence : Nat)
  | unmarkComplete (error : IoError)
  | markComplete (status : TransferStatus)
  | allocateLocal (credentials : κ)
  | controlling (credentials : κ) (sequence : Nat) (opcode : Opcode)
  | asking (credentials : κ)
  | returned (result : Except HResult (List UInt8))
  | done (result : Except IoError TransferStatus)

namespace SourcePc

variable {κ : Type}

def fail (error : IoError) : Purpose → SourcePc κ
  | .read _ _ => .returned (.error (ioToWindowsError error))
  | .control _ _ | .status => .done (.error error)

def proceed (credentials : κ) : Purpose → SourcePc κ
  | .read offset requested => .reading credentials offset requested
  | .control sequence opcode => .controlling credentials sequence opcode
  | .status => .asking credentials

/-! One step between two exchanges with the server; a step that has to wait for a lock is none. -/

def advance (groupPaused groupCancelled : Bool) (source : RemoteSource κ) :
    SourcePc κ → Option (RemoteSource κ × SourcePc κ)
  | .start (.readAt offset length) =>
    some (source, if length = 0 then .returned (.ok []) else .gateCancelled offset length)
  | .start (.sendControl opcode) => some (source, .allocate opcode)
  | .start .complete =>
    some (source, if source.completionSent = true then .lockTransfer .status
      else .allocate .complete)
  | .start .status => some (source, .lockTransfer .status)
  | .start .cancelLocalFirst =>
    if source.transferLocked = true then none
    else match source.transfer with
    | none => some (source, .done (.error (.new .notConnected "transfer has not started")))
    | some credentials => some (source, .allocateLocal credentials)
  | .gateCancelled offset length =>
    some (source, if groupCancelled = true then .returned (.error .cancelled)
      else .gatePaused offset length)
  | .gatePaused offset length =>
    if groupPaused = true then some (source, .gateCancelled offset length)
    else some ({ source with readCalls := source.readCalls + 1 },
      .lockTransfer (.read offset (min length maxSecureRangeBytes)))
  | .allocate opcode =>
    some ({ source with nextControlSequence := source.nextControlSequence + 1 },
      .lockTransfer (.control source.nextControlSequence opcode))
  | .lockTransfer purpose =>
    if source.transferLocked = true then none
    else match source.transfer with
    | some credentials => some (source, proceed credentials purpose)
    | none => some ({ source with transferLocked := true }, .beginning purpose)
  | .checkCancelled purpose credentials =>
    some (source, if groupCancelled = true then .allocateCancel purpose credentials
      else .checkPaused purpose credentials)
  | .allocateCancel purpose credentials =>
    some ({ source with nextControlSequence := source.nextControlSequence + 1 },
      .sendCancel purpose credentials source.nextControlSequence)
  | .checkPaused purpose credentials =>
    some (source, if groupPaused = true then .allocatePause purpose credentials
      else proceed credentials purpose)
  | .allocatePause purpose credentials =>
    some ({ source with nextControlSequence := source.nextControlSequence + 1 },
      .sendPause purpose credentials source.nextControlSequence)
  | .napping credentials offset requested => some (source, .reading credentials offset requested)
  | .received credentials offset bytes =>
    if bytes = [] ∧ offset < source.size then some (source, .returned (.error .readFault))
    else if bytes = [] ∧ source.size ≤ offset ∧ source.completionSent = false then
      some ({ source with completionSent := true }, .allocateComplete credentials)
    else some ({ source with bytesRead := source.bytesRead + bytes.length }, .returned (.ok bytes))
  | .allocateComplete credentials =>
    some ({ source with nextControlSequence := source.nextControlSequence + 1 },
      .sendComplete credentials source.nextControlSequence)
  | .unmarkComplete error =>
    some ({ source with completionSent := false }, .returned (.error (ioToWindowsError error)))
  | .markComplete status => some ({ source with completionSent := true }, .done (.ok status))
  | .allocateLocal credentials =>
    some ({ source with nextControlSequence := source.nextControlSequence + 1 },
      .controlling credentials source.nextControlSequence .cancel)
  | .beginning _ | .sendCancel _ _ _ | .sendPause _ _ _ | .reading _ _ _ | .sendComplete _ _
  | .controlling _ _ _ | .asking _ | .returned _ | .done _ => none

def rpc (s : Nat) : SourcePc κ → Option (Rpc κ)
  | .beginning _ => some (.beginTransfer s)
  | .sendCancel _ credentials sequence => some (.control credentials sequence .cancel)
  | .sendPause _ credentials sequence => some (.control credentials sequence .pause)
  | .reading credentials offset requested => some (.readRange credentials offset requested)
  | .sendComplete credentials sequence => some (.control credentials sequence .complete)
  | .controlling credentials sequence opcode => some (.control credentials sequence opcode)
  | .asking credentials => some (.status credentials)
  | _ => none

def answer (source : RemoteSource κ) : SourcePc κ → Reply κ → Option (RemoteSource κ × SourcePc κ)
  | .beginning purpose, .began credentials =>
    some ({ source with transfer := some credentials, transferLocked := false },
      .checkCancelled purpose credentials)
  | .beginning purpose, .failed error =>
    some ({ source with transferLocked := false }, fail error purpose)
  | .sendCancel purpose _ _, .status _ | .sendCancel purpose _ _, .failed _ =>
    some (source, fail (.new .interrupted "transfer group was cancelled") purpose)
  | .sendPause purpose credentials _, .status _ => some (source, proceed credentials purpose)
  | .sendPause purpose _ _, .failed error => some (source, fail error purpose)
  | .reading credentials offset requested, .range status bytes =>
    some (source, if status.state = .paused ∧ bytes = [] then .napping credentials offset requested
      else .received credentials offset bytes)
  | .reading _ _ _, .failed error => some (source, .returned (.error (ioToWindowsError error)))
  | .sendComplete _ _, .status _ => some (source, .returned (.ok []))
  | .sendComplete _ _, .failed error => some (source, .unmarkComplete error)
  | .controlling _ _ opcode, .status status =>
    some (source, if opcode = .complete then .markComplete status else .done (.ok status))
  | .controlling _ _ _, .failed error => some (source, .done (.error error))
  | .asking _, .status status => some (source, .done (.ok status))
  | .asking _, .failed error => some (source, .done (.error error))
  | _, _ => none

end SourcePc

end ClipFerry.Client
