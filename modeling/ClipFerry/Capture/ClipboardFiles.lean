import ClipFerry.Capture.TreeCapture
import ClipFerry.DataObject.VirtualFileDataObject

namespace ClipFerry.Capture

open VirtualTree Local Product Checked DataObject

def maxCapturePathU16 : Nat := 32767

def cfHdrop : UInt32 := 15

def dropEffectMove : UInt32 := 2

structure CaptureFormats where
  preferredEffect : UInt32
  privateOrigin : UInt32
deriving DecidableEq

/-! A block of memory on the clipboard, of the size that `GlobalSize` gives it. -/

structure GlobalBlock where
  bytes : List UInt8
  lock : Except HResult Unit

/-! What `DragQueryFileW` answers: how many names, how long each is, and the buffer it fills. -/

structure HDrop where
  count : UInt32
  length (index : Nat) : UInt32
  copy (index size : Nat) : UInt32 × List.Vector UInt16 size

/-! What the system answers about its clipboard while it is held open. -/

structure Clipboard where
  openClipboard (attempt : Nat) : Except HResult Unit
  sequence : UInt32
  isFormatAvailable (format : UInt32) : Bool
  getData (format : UInt32) : Except HResult GlobalBlock
  getDrop : Except HResult HDrop
  isAbsolute (path : List UInt16) : Bool

inductive ClipboardContents where
  | candidates (paths : List (List UInt16)) (sequence : UInt32)
  | notFileClipboard
  | privateOffer
  | rejected (reason : CaptureRejection)
deriving DecidableEq

def isPrivateOriginPayload (payload : List UInt8) : Bool :=
  payload.length = privateOriginPrefix.length + 16 && privateOriginPrefix.isPrefixOf payload

def validateDropEffect (effect : UInt32) : Except CaptureRejection Unit :=
  if effect &&& dropEffectMove ≠ 0 then .error .cutOperation
  else if effect &&& dropEffectCopy = 0 then .error .missingCopyEffect
  else .ok ()

namespace Clipboard

variable (clipboard : Clipboard)

def openAttempts : Nat := 8

def openFrom (last : HResult) : List Nat → Except HResult Unit
  | [] => .error last
  | attempt :: later =>
    match clipboard.openClipboard attempt with
    | .ok () => .ok ()
    | .error error => openFrom error later

def guardOpen : Except HResult Unit := clipboard.openFrom .unexpected (List.range openAttempts)

def readDropEffect (format : UInt32) : Except HResult UInt32 := do
  let block ← clipboard.getData format
  if block.bytes.length < 4 then .error .invalidArg else
  block.lock
  .ok (readU32 block.bytes 0)

def readPrivateOrigin (format : UInt32) : Bool :=
  match clipboard.getData format with
  | .error _ => false
  | .ok block =>
    if block.bytes.length ≠ privateOriginPrefix.length + 16 then false
    else match block.lock with
    | .error _ => false
    | .ok () => isPrivateOriginPayload block.bytes

def readPath (drop : HDrop) (index : Nat) : Except CaptureRejection (List UInt16) :=
  let length := (drop.length index).toNat
  if length = 0 ∨ maxCapturePathU16 < length then .error .invalidPath
  else
    let (copied, buffer) := drop.copy index (length + 1)
    if copied.toNat ≠ length ∨ buffer.val.getD length 0 ≠ 0 then .error .invalidPath
    else if clipboard.isAbsolute (buffer.val.take length) = false then .error .invalidPath
    else .ok (buffer.val.take length)

def readPaths (drop : HDrop) : Except CaptureRejection (List (List UInt16)) :=
  if drop.count.toNat = 0 ∨ maxCaptureRoots < drop.count.toNat then .error .tooManyItems
  else (List.range drop.count.toNat).mapM (clipboard.readPath drop)

def orRejected {α : Type} (result : Except CaptureRejection α) (next : α → ClipboardContents) :
    ClipboardContents :=
  match result with
  | .error reason => .rejected reason
  | .ok value => next value

def captureFiles (formats : CaptureFormats) : Except CaptureError ClipboardContents := do
  windows clipboard.guardOpen
  if clipboard.isFormatAvailable formats.privateOrigin = true ∧
      clipboard.readPrivateOrigin formats.privateOrigin = true then .ok .privateOffer
  else if clipboard.isFormatAvailable cfHdrop = false then .ok .notFileClipboard
  else if clipboard.isFormatAvailable formats.preferredEffect = false then
    .ok (.rejected .missingCopyEffect)
  else
    let effect ← windows (clipboard.readDropEffect formats.preferredEffect)
    match validateDropEffect effect with
    | .error reason => .ok (.rejected reason)
    | .ok () =>
      let drop ← windows clipboard.getDrop
      .ok (orRejected (clipboard.readPaths drop) fun paths =>
        .candidates paths clipboard.sequence)

end Clipboard

end ClipFerry.Capture
