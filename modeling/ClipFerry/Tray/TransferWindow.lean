import ClipFerry.Client.Registry
import ClipFerry.Product.Control
import ClipFerry.Settings.AddressText

namespace ClipFerry.Product

open VirtualTree

def ProductTransferState.label : ProductTransferState → Text
  | .awaitingPaste => "等待粘贴".toList
  | .running => "传输中".toList
  | .paused => "已暂停".toList
  | .cancelled => "已取消".toList
  | .completed => "已完成".toList
  | .failed => "失败".toList

end ClipFerry.Product

namespace ClipFerry.Tray

open VirtualTree Settings Product Client

def progressTenths (transferred total : Nat) (state : ProductTransferState) : Nat :=
  if total = 0 then if state = .completed then 1000 else 0
  else
    let tenths := min (min transferred total * 1000) u64Max / total
    if tenths < 65536 then tenths else 1000

def formatScaledBytes (bytes unit decimals : Nat) (suffix : Text) : Text :=
  let fraction := bytes % unit * 10 ^ decimals / unit
  decimal (bytes / unit) ++ '.' :: (decimal fraction).leftpad decimals '0' ++ ' ' :: suffix

def kib : Nat := 1024

def mib : Nat := kib * 1024

def gib : Nat := mib * 1024

def formatBytes (bytes : Nat) : Text :=
  if gib ≤ bytes then formatScaledBytes bytes gib 2 "GiB".toList
  else if mib ≤ bytes then formatScaledBytes bytes mib 1 "MiB".toList
  else if kib ≤ bytes then formatScaledBytes bytes kib 1 "KiB".toList
  else decimal bytes ++ " B".toList

def divCeil (a b : Nat) : Nat := a / b + if a % b = 0 then 0 else 1

def formatRemaining (transfer : ProductTransferSnapshot) : Text :=
  if transfer.state = .completed then "已完成".toList
  else if transfer.state = .paused then "已暂停".toList
  else if transfer.bytesPerSecond = 0 then "计算中".toList
  else
    let seconds := divCeil (transfer.totalSize.toNat - transfer.transferred) transfer.bytesPerSecond
    if 3600 ≤ seconds then
      decimal (seconds / 3600) ++ " 小时 ".toList ++ decimal (seconds % 3600 / 60) ++ " 分".toList
    else if 60 ≤ seconds then
      decimal (seconds / 60) ++ " 分 ".toList ++ decimal (seconds % 60) ++ " 秒".toList
    else decimal seconds ++ " 秒".toList

def truncate (text : Text) (maxChars : Nat) : Text :=
  match text.drop maxChars with
  | [] => text.take maxChars
  | _ :: _ => text.take maxChars ++ ['…']

inductive TextControl where
  | caption
  | heading
  | state
  | amount
  | speed
  | currentFile
  | recovery
  | cancel
deriving DecidableEq

def tenthsText (tenths : Nat) : Text :=
  decimal (tenths / 10) ++ '.' :: decimal (tenths % 10) ++ ['%']

def currentFileText (transfer : ProductTransferSnapshot) : Text :=
  "当前文件：".toList ++
    (transfer.currentFileName.elim "尚未开始".toList fun name => truncate name 52) ++
    "    ".toList ++ formatBytes transfer.currentFileTransferred ++ " / ".toList ++
    formatBytes transfer.currentFileSize.toNat ++ "    文件 ".toList ++
    decimal (min transfer.startedFiles transfer.totalFiles) ++ '/' :: decimal transfer.totalFiles

def recoveryText (transfer : ProductTransferSnapshot) : Text :=
  if transfer.recoveryActive = true then
    "网络状态：正在重连 · 已尝试 ".toList ++ decimal transfer.reconnectAttempts ++
      " 次 · 已恢复 ".toList ++ decimal transfer.recoveredCommands ++ " 次命令".toList
  else if transfer.reconnectAttempts ≠ 0 then
    "网络状态：已恢复 · 共尝试 ".toList ++ decimal transfer.reconnectAttempts ++
      " 次 · 已恢复 ".toList ++ decimal transfer.recoveredCommands ++ " 次命令".toList
  else "网络状态：稳定".toList

def cancelText : ProductTransferState → Text
  | .completed => "完成".toList
  | .cancelled | .failed => "关闭".toList
  | .awaitingPaste | .running | .paused => "取消".toList

def shownText (peerLabel : Text) (manifest : ProductManifestSummary)
    (transfer : ProductTransferSnapshot) : TextControl → Text
  | .caption => "ClipFerry · 从“".toList ++ peerLabel ++ "”接收".toList
  | .heading =>
    truncate manifest.primaryName 72 ++ " · ".toList ++ decimal manifest.files ++
      " 个文件 / ".toList ++ decimal manifest.directories ++ " 个目录".toList
  | .state =>
    transfer.state.label ++ " · ".toList ++
      tenthsText (progressTenths transfer.transferred transfer.totalSize.toNat transfer.state)
  | .amount =>
    "已传输：".toList ++ formatBytes transfer.transferred ++ " / ".toList ++
      formatBytes transfer.totalSize.toNat
  | .speed =>
    "当前速度：".toList ++ formatBytes transfer.bytesPerSecond ++ "/s    平均速度：".toList ++
      formatBytes transfer.averageBytesPerSecond ++ "/s    剩余：".toList ++
      formatRemaining transfer
  | .currentFile => currentFileText transfer
  | .recovery => recoveryText transfer
  | .cancel => cancelText transfer.state

inductive ProgressState where
  | normal
  | error
  | paused
deriving DecidableEq

def progressState : ProductTransferState → ProgressState
  | .paused => .paused
  | .cancelled | .failed => .error
  | .awaitingPaste | .running | .completed => .normal

def terminal : ProductTransferState → Bool
  | .completed | .cancelled | .failed => true
  | .awaitingPaste | .running | .paused => false

structure TransferWindow where
  texts : TextControl → Text
  progress : Nat
  progressState : ProgressState
  pauseEnabled : Bool
  resumeEnabled : Bool
  cancelEnabled : Bool
  visible : Bool
  hiddenByUser : Bool
  primaryIsClose : Bool
  generation : Option UInt64

def createdText : TextControl → Text
  | .caption => "ClipFerry 文件接收".toList
  | .heading => "等待接收文件".toList
  | .state => "等待传输开始".toList
  | .amount => "0 B / 0 B".toList
  | .speed => "当前速度：0 B/s".toList
  | .currentFile => "当前文件：尚未开始".toList
  | .recovery => "网络状态：稳定".toList
  | .cancel => "取消".toList

def receivedTransfer (snapshot : ProductSnapshot) :
    Option (ProductManifestSummary × ProductTransferSnapshot) :=
  match snapshot.lastManifest.filter (·.direction = "接收"), snapshot.transfer with
  | some manifest, some transfer => some (manifest, transfer)
  | _, _ => none

def hasReceiverTransfer (snapshot : ProductSnapshot) : Bool :=
  snapshot.transfer.isSome && snapshot.lastManifest.any (·.direction = "接收")

def shouldPresentGeneration (displayed : Option UInt64) (incoming : UInt64)
    (state : ProductTransferState) : Bool :=
  displayed.isNone || displayed = some incoming || state ≠ .awaitingPaste

namespace TransferWindow

def create : TransferWindow where
  texts := createdText
  progress := 0
  progressState := .normal
  pauseEnabled := true
  resumeEnabled := true
  cancelEnabled := true
  visible := false
  hiddenByUser := false
  primaryIsClose := false
  generation := none

def enter (window : TransferWindow) (generation : UInt64) : TransferWindow :=
  if window.generation = some generation then window
  else { window with generation := some generation, hiddenByUser := false }

-- `set_text` of one control after another, until one fails
def setTexts (setText : TextControl → Except String Unit) (text : TextControl → Text) :
    List TextControl → TransferWindow → TransferWindow × Except String Unit
  | [], window => (window, .ok ())
  | control :: rest, window =>
    match setText control with
    | .error error => (window, .error error)
    | .ok () =>
      setTexts setText text rest
        { window with texts := fun other => if other = control then text control else
            window.texts other }

def describedControls : List TextControl :=
  [.caption, .heading, .state, .amount, .speed, .currentFile, .recovery]

def controls (window : TransferWindow) (transfer : ProductTransferSnapshot) : TransferWindow :=
  { window with
    progress := progressTenths transfer.transferred transfer.totalSize.toNat transfer.state
    progressState := Tray.progressState transfer.state
    pauseEnabled := transfer.state = .running
    resumeEnabled := transfer.state = .paused
    cancelEnabled := true }

def appear (window : TransferWindow) (state : ProductTransferState) : TransferWindow :=
  if (state = .running ∨ state = .paused) ∧ window.hiddenByUser = false ∧
      window.visible = false then { window with visible := true }
  else window

def present (window : TransferWindow) (setText : TextControl → Except String Unit)
    (peerLabel : Text) (generation : UInt64) (manifest : ProductManifestSummary)
    (transfer : ProductTransferSnapshot) : TransferWindow × Except String Unit :=
  match setTexts setText (shownText peerLabel manifest transfer) describedControls
      (window.enter generation) with
  | (described, .error error) => (described, .error error)
  | (described, .ok ()) =>
    match setTexts setText (shownText peerLabel manifest transfer) [.cancel]
        { described with primaryIsClose := terminal transfer.state } with
    | (labelled, .error error) => (labelled, .error error)
    | (labelled, .ok ()) => ((labelled.controls transfer).appear transfer.state, .ok ())

def update (window : TransferWindow) (setText : TextControl → Except String Unit)
    (snapshot : ProductSnapshot) : TransferWindow × Except String Unit :=
  match receivedTransfer snapshot with
  | none => (window, .ok ())
  | some (manifest, transfer) =>
    if shouldPresentGeneration window.generation snapshot.transferGeneration transfer.state = false
    then (window, .ok ())
    else window.present setText snapshot.activePeerLabel snapshot.transferGeneration manifest transfer

def showWindow (window : TransferWindow) : TransferWindow :=
  { window with hiddenByUser := false, visible := true }

def putAway (window : TransferWindow) : TransferWindow :=
  { window with hiddenByUser := true, visible := false }

end TransferWindow

structure TransferWindowCommands where
  pause : Nat
  resume : Nat
  cancel : Nat

def controlPause : Nat := 1

def controlResume : Nat := 2

def controlCancel : Nat := 3

inductive WindowMessage where
  | command (wparam : Nat) (delivered : Bool)
  | close
  | sysCommand (wparam : Nat)
  | other

def scMinimize : Nat := 0xf020

def minimizes (wparam : Nat) : Bool :=
  (if wparam < 2 ^ 32 then wparam else 0) &&& 0xfff0 = scMinimize

def commandOf (commands : TransferWindowCommands) (control : Nat) : Option Nat :=
  if control = controlPause then some commands.pause
  else if control = controlResume then some commands.resume
  else if control = controlCancel then some commands.cancel
  else none

def transferWindowProcedure (commands : TransferWindowCommands) (window : TransferWindow) :
    WindowMessage → TransferWindow × Option Nat
  | .command wparam delivered =>
    let control := wparam &&& 0xffff
    if control = controlCancel ∧ window.primaryIsClose = true then (window.putAway, none)
    else
      match commandOf commands control with
      | none => (window, none)
      | some command =>
        (if control = controlCancel then window.putAway else window,
          if delivered = true then some command else none)
  | .close => (window.putAway, none)
  | .sysCommand wparam => if minimizes wparam = true then (window.putAway, none) else (window, none)
  | .other => (window, none)

def commandPause : Nat := 1004

def commandResume : Nat := 1005

def commandCancel : Nat := 1006

def commandAcceptPending : Nat := 1011

def commandTransferWindow : Nat := 1012

def trayCommands : TransferWindowCommands := ⟨commandPause, commandResume, commandCancel⟩

/-! The tray thread as far as a transfer is concerned: its window, the commands that the window
posted to the hidden window, and those handed to the runtime. -/

structure TrayState where
  transferWindow : Option TransferWindow
  transferWindowError : Option String
  posted : List Nat
  handed : List ProductCommand

structure WindowAnswers where
  create : Except String Unit
  setText : TextControl → Except String Unit

namespace TrayState

def initial : TrayState := ⟨none, none, [], []⟩

def ensureTransferWindow (state : TrayState) (answers : WindowAnswers) :
    Except String TransferWindow :=
  match state.transferWindow with
  | some window => .ok window
  | none => answers.create.map fun _ => .create

def refreshUi (state : TrayState) (snapshot : Option ProductSnapshot) (answers : WindowAnswers) :
    TrayState :=
  match snapshot.filter (hasReceiverTransfer ·) with
  | none => state
  | some snapshot =>
    match state.ensureTransferWindow answers with
    | .error error => { state with transferWindowError := some error }
    | .ok window =>
      match window.update answers.setText snapshot with
      | (updated, .ok ()) =>
        { state with transferWindow := some updated, transferWindowError := none }
      | (updated, .error error) =>
        { state with transferWindow := some updated, transferWindowError := some error }

def showTransferWindow (state : TrayState) (snapshot : Option ProductSnapshot)
    (answers : WindowAnswers) : TrayState :=
  match snapshot.filter (hasReceiverTransfer ·) with
  | none => state
  | some snapshot =>
    match state.ensureTransferWindow answers with
    | .error _ => state
    | .ok window =>
      match window.update answers.setText snapshot with
      | (updated, .ok ()) => { state with transferWindow := some updated.showWindow }
      | (updated, .error _) => { state with transferWindow := some updated }

-- a runtime is there exactly when it has a snapshot
def productCommand (state : TrayState) (snapshot : Option ProductSnapshot)
    (command : ProductCommand) : TrayState :=
  if snapshot.isSome = true then { state with handed := state.handed ++ [command] } else state

def handleCommand (state : TrayState) (command : Nat) (snapshot : Option ProductSnapshot)
    (answers : WindowAnswers) : TrayState :=
  if command = commandAcceptPending then state.productCommand snapshot .acceptPending
  else if command = commandTransferWindow then state.showTransferWindow snapshot answers
  else if command = commandPause then state.productCommand snapshot .pause
  else if command = commandResume then state.productCommand snapshot .resume
  else if command = commandCancel then state.productCommand snapshot .cancel
  else state

end TrayState

inductive UiMessage where
  | timer (snapshot : Option ProductSnapshot) (answers : WindowAnswers)
  | tray (command : Nat) (snapshot : Option ProductSnapshot) (answers : WindowAnswers)
  | posted (snapshot : Option ProductSnapshot) (answers : WindowAnswers)
  | window (message : WindowMessage)

def TrayState.handle (state : TrayState) : UiMessage → TrayState
  | .timer snapshot answers => state.refreshUi snapshot answers
  | .tray command snapshot answers => state.handleCommand command snapshot answers
  | .posted snapshot answers =>
    match state.posted with
    | [] => state
    | command :: rest => { state with posted := rest }.handleCommand command snapshot answers
  | .window message =>
    match state.transferWindow with
    | none => state
    | some window =>
      let (after, command) := transferWindowProcedure trayCommands window message
      { state with transferWindow := some after, posted := state.posted ++ command.toList }

def UiStep (state : TrayState) (message : UiMessage) (state' : TrayState) : Prop :=
  state' = state.handle message

end ClipFerry.Tray
