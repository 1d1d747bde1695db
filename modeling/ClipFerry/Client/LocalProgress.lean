import ClipFerry.Client.Registry

namespace ClipFerry.Client

open VirtualTree

variable {κ : Type}

structure TransferLocalProgress where
  startedTransfers : Nat
  completedTransfers : Nat
  readCalls : Nat
  bytesRead : Nat
  paused : Bool
  cancelled : Bool
deriving DecidableEq

def RemoteSource.hasStarted (source : RemoteSource κ) : Bool := source.transfer.isSome

namespace Registry

variable (registry : Registry κ)

def rememberedSources : List (RemoteSource κ) :=
  registry.remembered.filterMap fun s => registry.sources[s]?

def localProgress : TransferLocalProgress where
  startedTransfers := registry.rememberedSources.countP (·.hasStarted)
  completedTransfers := registry.rememberedSources.countP (·.completionSent)
  readCalls := (registry.rememberedSources.map (·.readCalls)).sum
  bytesRead := (registry.rememberedSources.map (·.bytesRead)).sum
  paused := registry.groupPaused
  cancelled := registry.groupCancelled

def currentFileProgress : Option (Text × Nat × UInt64) :=
  let newest := registry.rememberedSources.reverse
  ((newest.find? fun source => source.hasStarted && !source.completionSent).or
    (newest.find? (·.hasStarted))).map fun source =>
      (source.fileName, min source.bytesRead source.size.toNat, source.size)

end Registry

namespace SourcePc

def completing : SourcePc κ → Bool
  | allocateComplete _ | sendComplete _ _ | unmarkComplete _ => true
  | _ => false

def atEnd : SourcePc κ → Bool
  | returned (.ok []) => true
  | _ => false

def forRead : Purpose → Bool
  | .read _ _ => true
  | _ => false

def reads : SourcePc κ → Bool
  | start (.readAt _ _) | gateCancelled _ _ | gatePaused _ _ | reading _ _ _ | napping _ _ _
  | received _ _ _ | allocateComplete _ | sendComplete _ _ | unmarkComplete _ | returned _ => true
  | lockTransfer purpose | beginning purpose | checkCancelled purpose _ | allocateCancel purpose _
  | sendCancel purpose _ _ | checkPaused purpose _ | allocatePause purpose _
  | sendPause purpose _ _ => forRead purpose
  | _ => false

def toComplete : Purpose → Bool
  | .control _ .complete => true
  | _ => false

def completes : SourcePc κ → Bool
  | start .complete | start (.sendControl .complete) | allocate .complete
  | controlling _ _ .complete | markComplete _ => true
  | lockTransfer purpose | beginning purpose | checkCancelled purpose _ | allocateCancel purpose _
  | sendCancel purpose _ _ | checkPaused purpose _ | allocatePause purpose _
  | sendPause purpose _ _ => toComplete purpose
  | _ => false

end SourcePc

end ClipFerry.Client
