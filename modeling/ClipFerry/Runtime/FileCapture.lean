import ClipFerry.Local.StartedOffer
import ClipFerry.Product.ListedTree
import ClipFerry.Product.Provenance

namespace ClipFerry.Runtime

open VirtualTree Local Capture Product DataObject Checked Transition Client

structure CapturedLease where
  offer : LocalFileOffer
  object : VirtualFileDataObject

structure FileCaptureSession where
  offerTtl : Nat
  registry : LocalWorld
  lease : Option CapturedLease
  accepted : Nat
  rejected : Nat
  ignored : Nat

def FileCaptureSession.new (offerTtl : Nat) : FileCaptureSession :=
  ⟨offerTtl, .empty, none, 0, 0, 0⟩

structure ServedRead where
  disk : Disk
  source : Nat
  offset : UInt64
  length : Nat

/-! One notice that the clipboard has changed, and what is answered while it is handled; `reads`
are those that the object has served before it is known to be registered. The length of a source
is the size of its snapshot. -/

structure CaptureNotice where
  leaseCurrent : Bool
  clipboard : Clipboard
  files : FileSystem
  guid : Except HResult (List.Vector UInt8 16)
  formats : Except HResult ClipboardFormats
  factory : LocalOfferEntry → SourceFactory
  sizes : ∀ entry attempt, (factory entry attempt).len = entry.snapshot.size
  setClipboard : Nat → Except HResult Unit
  reads : List ServedRead

def offeredEntry (factory : LocalOfferEntry → SourceFactory) (entry : LocalOfferEntry) :
    VirtualFileEntry :=
  ⟨entry.snapshot.descriptor, entry.source.map fun _ => factory entry⟩

def serveReads (world : LocalWorld) (reads : List ServedRead) : LocalWorld :=
  reads.foldl (fun world read => world.readAt read.disk read.source read.offset read.length) world

def readCalls (world : LocalWorld) (offer : LocalFileOffer) : Nat :=
  (offer.sources.map fun s => ((world.sources[s]?).map (·.readCalls)).getD 0).sum

def bytesRead (world : LocalWorld) (offer : LocalFileOffer) : Nat :=
  (offer.sources.map fun s => ((world.sources[s]?).map (·.bytesRead)).getD 0).sum

def registerLease (toLowercase : Char → Text) (notice : CaptureNotice) (world : LocalWorld)
    (offer : LocalFileOffer) : LocalWorld × Except HResult CapturedLease :=
  match createWithEntries toLowercase notice.formats
      (offer.entries.map (offeredEntry notice.factory)) offer.originPayload with
  | .error error => (world, .error error)
  | .ok object =>
    match oleSetClipboardWithRetry notice.setClipboard with
    | .error error => (world, .error error)
    | .ok () =>
      let served := serveReads world notice.reads
      if readCalls served offer ≠ 0 ∨ bytesRead served offer ≠ 0 then (served, .error .unexpected)
      else (served, .ok ⟨offer, object⟩)

namespace FileCaptureSession

def reject (session : FileCaptureSession) : FileCaptureSession :=
  { session with rejected := saturatingAdd session.rejected 1 }

def ignore (session : FileCaptureSession) : FileCaptureSession :=
  { session with ignored := saturatingAdd session.ignored 1 }

def acceptCandidates (desk : Desk) (session : FileCaptureSession) (notice : CaptureNotice)
    (paths : List (List UInt16)) : FileCaptureSession :=
  match notice.files.capture desk.lowercase desk.toLowercase paths with
  | .error _ => session.reject
  | .ok tree =>
    match session.registry.publishTree notice.guid tree session.offerTtl with
    | (world, .error _) => { session with registry := world }.reject
    | (world, .ok offer) =>
      match registerLease desk.toLowercase notice world offer with
      | (served, .ok lease) =>
        { session with
          registry := served
          lease := some lease
          accepted := saturatingAdd session.accepted 1 }
      | (served, .error _) => { session with registry := served.revokeCurrent }.reject

def handleClipboardUpdate (desk : Desk) (session : FileCaptureSession) (notice : CaptureNotice) :
    FileCaptureSession :=
  if session.lease.isSome = true ∧ notice.leaseCurrent = true then session
  else
    let revoked := { session with registry := session.registry.revokeCurrent, lease := none }
    match notice.clipboard.captureFiles desk.formats with
    | .ok (.candidates paths _) => revoked.acceptCandidates desk notice paths
    | .ok (.rejected _) | .error _ => revoked.reject
    | .ok .privateOffer | .ok .notFileClipboard => revoked.ignore

end FileCaptureSession

inductive CaptureStep (desk : Desk) :
    FileCaptureSession → Option CaptureNotice → FileCaptureSession → Prop
  | update (session : FileCaptureSession) (notice : CaptureNotice) :
      CaptureStep desk session (some notice) (session.handleClipboardUpdate desk notice)
  | read (session : FileCaptureSession) (read : ServedRead) :
      CaptureStep desk session none { session with
        registry := session.registry.readAt read.disk read.source read.offset read.length }
  | elapse (session : FileCaptureSession) (duration : Nat) :
      CaptureStep desk session none
        { session with registry := session.registry.apply (.elapse duration) }

end ClipFerry.Runtime
