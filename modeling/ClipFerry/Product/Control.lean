import ClipFerry.Product.Progress
import ClipFerry.Product.Publish

namespace ClipFerry.Product

open VirtualTree Protocol Server Local Settings Client

inductive ProductCommand where
  | acceptPending
  | pause
  | resume
  | cancel
deriving DecidableEq

inductive WorkerEvent where
  | remoteOffer (announcement : OfferAnnouncement)
  | announcementResult (result : Except IoError Unit)

/-! What the store, the peer and the clipboard answer while an offer is accepted; `register` has
the manifest once the clipboard holds the object. -/

structure AcceptAnswers where
  client : Except IoError Unit
  register : Except IoError OfferManifest
  acceptedAt : Nat

namespace ProductSession

variable (session : ProductSession)

def installLease (lease : ProductRemoteLease) (now : Nat) : ProductSession :=
  ({ session with
    remote := some lease
    activeDirection := some .remote
    pending := none
    snapshot := { session.snapshot.announce (summarizeManifest "接收" lease.manifest) with
      pendingOffer := false } } : ProductSession).resetSamples now

def acceptedManifest (answers : AcceptAnswers) : Except IoError OfferManifest :=
  match session.pending with
  | none => .error (.new .notFound "当前没有待接收清单")
  | some announcement => do
    validatePrivateEndpoint announcement.endpoint
    answers.client
    answers.register

def acceptPending (registry : Nat) (answers : AcceptAnswers) :
    ProductSession × Except IoError Unit :=
  match session.acceptedManifest answers with
  | .error error => (session, .error error)
  | .ok manifest => (session.installLease ⟨registry, manifest⟩ answers.acceptedAt, .ok ())

def receiveOffer (announcement : OfferAnnouncement) : ProductSession :=
  { session with
    pending := some announcement
    snapshot := { session.snapshot with pendingOffer := true } }

def handleEvent (registry : Nat) (answers : AcceptAnswers) : WorkerEvent → ProductSession
  | .remoteOffer announcement =>
    if announcement.peer ≠ session.settings.activePeer then
      session.recordError "收到非活动设备的 Offer，已拒绝"
    else if session.settings.autoReceive = true then
      match (session.receiveOffer announcement).acceptPending registry answers with
      | (accepted, .ok ()) => accepted
      | (refused, .error error) => refused.recordError ("自动接收远端清单失败：" ++ error.message)
    else session.receiveOffer announcement
  | .announcementResult (.ok ()) =>
    { session with snapshot := { session.snapshot with lastError := none } }
  | .announcementResult (.error error) =>
    session.recordError ("无法通知对端设备：" ++ error.message)

def noRemote : IoError := .new .notConnected "当前没有远端剪贴板"

def recordControl (result : Except IoError Unit) : ProductSession :=
  match result with
  | .ok () => session
  | .error error => session.recordError ("传输控制失败：" ++ error.message)

def dropLease : ProductSession :=
  { session with
    remote := none
    activeDirection := none
    snapshot := { session.snapshot with
      transfer := session.snapshot.transfer.map fun transfer =>
        { transfer with state := .cancelled, bytesPerSecond := 0 } } }

end ProductSession

def claimClipboardSequence (lastSequence : Option UInt32) (observed : UInt32) :
    Option UInt32 × Bool :=
  if observed = 0 then (lastSequence, true)
  else if lastSequence = some observed then (lastSequence, false)
  else (some observed, true)

inductive ClipboardCapture where
  | candidates (sequence : UInt32)
  | other
  | rejected (reason : CaptureRejection)
  | failed (error : CaptureError)

def captureErrorText (windowsText : HResult → String) : CaptureError → String
  | .windows error =>
    windowsText error ++ " (0x" ++ .ofList (upperHex 8 error.code.toNat) ++ ")"
  | .rejected .missingCopyEffect => "rejected: missing-copy-effect"
  | .rejected .cutOperation => "rejected: cut-operation"
  | .rejected .tooManyItems => "rejected: too-many-items"
  | .rejected .treeTooDeep => "rejected: tree-too-deep"
  | .rejected .manifestTooLarge => "rejected: manifest-too-large"
  | .rejected .invalidPath => "rejected: invalid-path"
  | .rejected .nonUnicodeName => "rejected: non-unicode-name"
  | .rejected .directory => "rejected: directory"
  | .rejected .nonDiskFile => "rejected: non-disk-file"

def ProductSession.handleClipboardUpdate (toLowercase : Char → Text)
    (windowsText : HResult → String) (session : ProductSession) (observed : UInt32)
    (leaseCurrent : Bool) (capture : ClipboardCapture) (answers : PublishAnswers) :
    ProductSession :=
  let (claimed, fresh) := claimClipboardSequence session.lastClipboardSequence observed
  let session := { session with lastClipboardSequence := claimed }
  if fresh = false ∨ (session.remote.isSome = true ∧ leaseCurrent = true) then session
  else match capture with
  | .other => session
  | .rejected reason => session.recordError ("本机文件剪贴板未发送：" ++ userMessage reason)
  | .failed error =>
    session.recordError ("读取本机剪贴板失败：" ++ captureErrorText windowsText error)
  | .candidates sequence =>
    let session := { session with
      lastClipboardSequence := if sequence = 0 then session.lastClipboardSequence
        else some sequence }
    match session.publishPaths toLowercase windowsText answers with
    | (published, .ok ()) => published
    | (refused, .error error) => refused.recordError ("本机文件清单发布失败：" ++ error.message)

end ClipFerry.Product
