import ClipFerry.Local.Offer
import ClipFerry.Settings.AppSettings
import Mathlib.Data.UInt

namespace ClipFerry.Product

open VirtualTree Protocol Server Local Settings

def offerTtl : Nat := fromMillis 900000

def maxLiveSourceOffers : Nat := 4

inductive ProductTransferState where
  | awaitingPaste
  | running
  | paused
  | cancelled
  | completed
  | failed
deriving DecidableEq, Repr

structure ProductManifestSummary where
  direction : String
  primaryName : Text
  items : Nat
  files : Nat
  directories : Nat
  totalSize : UInt64
deriving DecidableEq

structure ProductTransferSnapshot where
  state : ProductTransferState
  transferred : Nat
  totalSize : UInt64
  bytesPerSecond : Nat
  averageBytesPerSecond : Nat
  startedFiles : Nat
  totalFiles : Nat
  currentFileName : Option Text
  currentFileTransferred : Nat
  currentFileSize : UInt64
  reconnectAttempts : Nat
  recoveredCommands : Nat
  recoveryActive : Bool
deriving DecidableEq

structure ProductSnapshot where
  listenerRunning : Bool
  localEndpoint : SocketAddr
  activePeerLabel : Text
  activePeer : CertificateFingerprint
  autoReceive : Bool
  pendingOffer : Bool
  lastManifest : Option ProductManifestSummary
  transfer : Option ProductTransferSnapshot
  transferGeneration : UInt64
  lastError : Option String
deriving DecidableEq

structure OfferAnnouncement where
  endpoint : SocketAddr
  peer : CertificateFingerprint
deriving DecidableEq

inductive TransferDirection where
  | source
  | remote
deriving DecidableEq

-- a server, a transfer registry and a file source are named by their place among all created
structure LiveSourceOffer where
  server : Nat
  manifest : OfferManifest

structure ProductRemoteLease where
  registry : Nat
  manifest : OfferManifest

structure ProductSession where
  settings : AppSettings
  snapshot : ProductSnapshot
  registry : LocalWorld
  sources : List LiveSourceOffer
  pending : Option OfferAnnouncement
  remote : Option ProductRemoteLease
  activeDirection : Option TransferDirection
  lastClipboardSequence : Option UInt32
  lastSampleAt : Nat
  lastSampleBytes : Nat
  smoothedSpeed : Nat
  transferStartedAt : Option Nat

def emptyManifestName : Text := "（空清单）".toList

def summarizeManifest (direction : String) (manifest : OfferManifest) : ProductManifestSummary :=
  let files := (manifest.entries.filter fun entry => !entry.descriptor.isDirectory).length
  { direction := direction
    primaryName := (manifest.entries.head?.map (·.descriptor.fileName)).getD emptyManifestName
    items := manifest.entries.length
    files := files
    directories := manifest.entries.length - files
    totalSize := (manifest.entries.map (·.descriptor.size)).sum }

def ProductTransferSnapshot.awaiting (summary : ProductManifestSummary) :
    ProductTransferSnapshot where
  state := .awaitingPaste
  transferred := 0
  totalSize := summary.totalSize
  bytesPerSecond := 0
  averageBytesPerSecond := 0
  startedFiles := 0
  totalFiles := summary.files
  currentFileName := none
  currentFileTransferred := 0
  currentFileSize := 0
  reconnectAttempts := 0
  recoveredCommands := 0
  recoveryActive := false

def ProductSnapshot.announce (snapshot : ProductSnapshot) (summary : ProductManifestSummary) :
    ProductSnapshot :=
  { snapshot with
    lastManifest := some summary
    transferGeneration := snapshot.transferGeneration + 1
    transfer := some (.awaiting summary)
    lastError := none }

def ProductSession.recordError (session : ProductSession) (error : String) : ProductSession :=
  { session with snapshot := { session.snapshot with lastError := some error } }

def ProductSession.resetSamples (session : ProductSession) (now : Nat) : ProductSession :=
  { session with
    lastSampleAt := now
    lastSampleBytes := 0
    smoothedSpeed := 0
    transferStartedAt := none }

def ProductSnapshot.initial (settings : AppSettings) (peerLabel : Text) : ProductSnapshot where
  listenerRunning := false
  localEndpoint := settings.localEndpoint
  activePeerLabel := peerLabel
  activePeer := settings.activePeer
  autoReceive := settings.autoReceive
  pendingOffer := false
  lastManifest := none
  transfer := none
  transferGeneration := 0
  lastError := none

def ProductSession.start (settings : AppSettings) (peerLabel : Text) (now : Nat) :
    ProductSession where
  settings := settings
  snapshot := { ProductSnapshot.initial settings peerLabel with listenerRunning := true }
  registry := { LocalWorld.empty with now := now }
  sources := []
  pending := none
  remote := none
  activeDirection := none
  lastClipboardSequence := none
  lastSampleAt := now
  lastSampleBytes := 0
  smoothedSpeed := 0
  transferStartedAt := none

def soloFingerprint : CertificateFingerprint := ⟨repeatedSecret 7⟩

def soloHost (host : UInt8) : List.Vector UInt8 4 := ⟨[192, 168, 0, host], rfl⟩

def soloSettings (autoReceive : Bool) : AppSettings where
  localEndpoint := .v4 (soloHost 1) 45000
  activePeer := soloFingerprint
  peerEndpoint := .v4 (soloHost 2) 45000
  autoReceive := autoReceive

end ClipFerry.Product
