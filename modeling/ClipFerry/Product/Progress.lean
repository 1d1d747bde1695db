import ClipFerry.Client.LocalProgress
import ClipFerry.Product.Session

namespace ClipFerry.Product

open VirtualTree Protocol Client

structure SecureMetricsSnapshot where
  begunTransfers : Nat
  uniqueBytes : Nat
  cancelledTransfers : Nat
deriving DecidableEq

structure SecureRecoverySnapshot where
  activeRecoveries : Nat
  reconnectAttempts : Nat
  recoveredCommands : Nat
deriving DecidableEq

/-! What the session reads of its transfer registries and of its servers. -/

structure Outside (κ : Type) where
  registry : Nat → Registry κ
  recovery : Nat → SecureRecoverySnapshot
  metrics : Nat → SecureMetricsSnapshot

structure ProgressReading where
  bytes : Nat
  state : ProductTransferState
  startedFiles : Nat
  totalFiles : Nat
  totalSize : UInt64
  currentFile : Option (Text × Nat × UInt64)
  recovery : SecureRecoverySnapshot
deriving DecidableEq

namespace ProgressReading

def idle : ProgressReading := ⟨0, .awaitingPaste, 0, 0, 0, none, ⟨0, 0, 0⟩⟩

def remoteState (progress : TransferLocalProgress) (totalFiles : Nat) : ProductTransferState :=
  if progress.cancelled = true then .cancelled
  else if progress.paused = true then .paused
  else if totalFiles ≠ 0 ∧ progress.completedTransfers = totalFiles then .completed
  else if progress.startedTransfers ≠ 0 then .running
  else .awaitingPaste

def ofRemote {κ : Type} (registry : Registry κ) (recovery : SecureRecoverySnapshot)
    (manifest : OfferManifest) : ProgressReading :=
  let progress := registry.localProgress
  let summary := summarizeManifest "接收" manifest
  { bytes := min progress.bytesRead summary.totalSize.toNat
    state := remoteState progress summary.files
    startedFiles := progress.startedTransfers
    totalFiles := summary.files
    totalSize := summary.totalSize
    currentFile := registry.currentFileProgress
    recovery := recovery }

def ofSource (metrics : SecureMetricsSnapshot) (manifest : OfferManifest) : ProgressReading :=
  let summary := summarizeManifest "发送" manifest
  let bytes := min metrics.uniqueBytes summary.totalSize.toNat
  { bytes := bytes
    state :=
      if metrics.cancelledTransfers ≠ 0 then .cancelled
      else if summary.totalSize ≠ 0 ∧ bytes = summary.totalSize.toNat then .completed
      else if metrics.begunTransfers ≠ 0 then .running
      else .awaitingPaste
    startedFiles := metrics.begunTransfers
    totalFiles := summary.files
    totalSize := summary.totalSize
    currentFile := none
    recovery := ⟨0, 0, 0⟩ }

end ProgressReading

namespace ProductSession

variable {κ : Type}

def reading (session : ProductSession) (outside : Outside κ) : ProgressReading :=
  match session.activeDirection, session.remote, session.sources.getLast? with
  | some .remote, some lease, _ =>
    .ofRemote (outside.registry lease.registry) (outside.recovery lease.registry) lease.manifest
  | some .source, _, some source => .ofSource (outside.metrics source.server) source.manifest
  | _, _, _ => .idle

def rawSpeed (session : ProductSession) (now bytes : Nat) : Nat :=
  if now - session.lastSampleAt = 0 ∨ bytes < session.lastSampleBytes then 0
  else min ((bytes - session.lastSampleBytes) * 1000 /
    max (asMillis (now - session.lastSampleAt)) 1) u64Max

def smooth (session : ProductSession) (now : Nat) (reading : ProgressReading) :
    ProductSession :=
  let raw := session.rawSpeed now reading.bytes
  if reading.state = .running ∧ reading.bytes ≠ 0 then
    { session with
      transferStartedAt := some (session.transferStartedAt.getD session.lastSampleAt)
      smoothedSpeed :=
        if raw = 0 then session.smoothedSpeed
        else if session.smoothedSpeed = 0 then raw
        else saturatingAdd (min (session.smoothedSpeed * 3) u64Max) raw / 4 }
  else if reading.state ≠ .paused then { session with smoothedSpeed := 0 }
  else session

def averageSpeed (session : ProductSession) (now bytes : Nat) : Nat :=
  match session.transferStartedAt with
  | none => 0
  | some startedAt => min (bytes * 1000 / max (asMillis (now - startedAt)) 1) u64Max

def transferSnapshot (session : ProductSession) (now : Nat) (reading : ProgressReading) :
    ProductTransferSnapshot where
  state := reading.state
  transferred := reading.bytes
  totalSize := reading.totalSize
  bytesPerSecond := if reading.state = .running then session.smoothedSpeed else 0
  averageBytesPerSecond := session.averageSpeed now reading.bytes
  startedFiles := reading.startedFiles
  totalFiles := reading.totalFiles
  currentFileName := reading.currentFile.map (·.1)
  currentFileTransferred := (reading.currentFile.map (·.2.1)).getD 0
  currentFileSize := (reading.currentFile.map (·.2.2)).getD 0
  reconnectAttempts := reading.recovery.reconnectAttempts
  recoveredCommands := reading.recovery.recoveredCommands
  recoveryActive := reading.recovery.activeRecoveries != 0

def refreshProgress (session : ProductSession) (outside : Outside κ) (now : Nat) :
    ProductSession :=
  if session.activeDirection = none then session
  else
    let reading := session.reading outside
    let smoothed := session.smooth now reading
    { smoothed with
      lastSampleAt := now
      lastSampleBytes := reading.bytes
      snapshot := { smoothed.snapshot with
        transfer := smoothed.snapshot.transfer.map fun _ => smoothed.transferSnapshot now reading } }

structure SameTransfer (session smoothed : ProductSession) : Prop where
  snapshot : smoothed.snapshot = session.snapshot
  remote : smoothed.remote = session.remote
  activeDirection : smoothed.activeDirection = session.activeDirection
  sources : smoothed.sources = session.sources

theorem smooth_same (session : ProductSession) (now : Nat) (reading : ProgressReading) :
    session.SameTransfer (session.smooth now reading) := by
  rw [smooth]
  split
  · exact ⟨rfl, rfl, rfl, rfl⟩
  · split <;> exact ⟨rfl, rfl, rfl, rfl⟩

end ProductSession

end ClipFerry.Product
