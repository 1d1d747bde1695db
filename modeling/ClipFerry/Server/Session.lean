import ClipFerry.Protocol.Offer
import ClipFerry.Server.Coverage

namespace ClipFerry.Server

open VirtualTree Protocol

structure CertificateFingerprint where
  bytes : List.Vector UInt8 32
deriving DecidableEq

inductive RemoteTransferState where
  | running
  | paused
  | cancelled
  | completed
deriving DecidableEq, Repr

namespace RemoteTransferState

def encode : RemoteTransferState → UInt8
  | running => 0
  | paused => 1
  | cancelled => 2
  | completed => 3

def decode (value : UInt8) : Except IoError RemoteTransferState :=
  if value = 0 then .ok running
  else if value = 1 then .ok paused
  else if value = 2 then .ok cancelled
  else if value = 3 then .ok completed
  else .error (invalidData "invalid transfer state")

theorem decode_encode (state : RemoteTransferState) : decode state.encode = .ok state := by
  cases state <;> rfl

def active : RemoteTransferState → Bool
  | running | paused => true
  | cancelled | completed => false

def lifeCycle : RemoteTransferState → Opcode → RemoteTransferState
  | running, .pause => paused
  | paused, .resume => running
  | running, .cancel | paused, .cancel => cancelled
  | running, .complete => completed
  | state, _ => state

inductive Moves : RemoteTransferState → RemoteTransferState → Prop
  | pause : Moves running paused
  | resume : Moves paused running
  | cancel {state : RemoteTransferState} (h : state.active = true) : Moves state cancelled
  | complete : Moves running completed

theorem lifeCycle_moves (state : RemoteTransferState) (opcode : Opcode) :
    lifeCycle state opcode = state ∨ Moves state (lifeCycle state opcode) := by
  cases state <;> cases opcode <;>
    first | exact .inl rfl | exact .inr .pause | exact .inr .resume | exact .inr .complete
          | exact .inr (.cancel rfl)

theorem Moves.active {a b : RemoteTransferState} (h : Moves a b) : a.active = true := by
  cases h with
  | cancel hactive => exact hactive
  | pause | resume | complete => rfl

end RemoteTransferState

structure TransferStatus where
  state : RemoteTransferState
  uniqueBytes : Nat
deriving DecidableEq, Repr

structure TransferCredentials where
  offerId : ProtocolId
  fileId : ProtocolId
  transferId : ProtocolId
  capability : Secret
  serverNonce : Secret
  expiresAtMillis : UInt64
deriving DecidableEq

structure TransferInner where
  state : RemoteTransferState
  lastControlSequence : Nat
  lastControlOpcode : Option Opcode
  coverage : RangeCoverage
deriving DecidableEq

namespace TransferInner

def fresh : TransferInner := ⟨.running, 0, none, .empty⟩

def status (inner : TransferInner) : TransferStatus := ⟨inner.state, inner.coverage.uniqueBytes⟩

def accept (inner : TransferInner) (sequence : Nat) (opcode : Opcode) : TransferInner :=
  { inner with
    state := inner.state.lifeCycle opcode
    lastControlSequence := sequence
    lastControlOpcode := some opcode }

def cancel (inner : TransferInner) : TransferInner :=
  if inner.state.active = true then { inner with state := .cancelled } else inner

def serve (inner : TransferInner) (offset read : Nat) : TransferInner :=
  { inner with coverage := inner.coverage.note offset read }

end TransferInner

structure BeginTransferRecord where
  authorizedPeer : CertificateFingerprint
  offerId : ProtocolId
  fileId : ProtocolId
  transferId : ProtocolId
  expiresAt : Nat
deriving DecidableEq

structure TransferSession where
  authorizedPeer : CertificateFingerprint
  offerId : ProtocolId
  fileId : ProtocolId
  transferId : ProtocolId
  capability : Secret
  serverNonce : Secret
  expiresAt : Nat
  inner : TransferInner
deriving DecidableEq

namespace TransferSession

def credentials (session : TransferSession) (now : Nat) : TransferCredentials where
  offerId := session.offerId
  fileId := session.fileId
  transferId := session.transferId
  capability := session.capability
  serverNonce := session.serverNonce
  expiresAtMillis := millisU64 (session.expiresAt - now)

def record (session : TransferSession) : BeginTransferRecord where
  authorizedPeer := session.authorizedPeer
  offerId := session.offerId
  fileId := session.fileId
  transferId := session.transferId
  expiresAt := session.expiresAt

def matchesCredentials (session : TransferSession) (peer : CertificateFingerprint)
    (credentials : TransferCredentials) : Bool :=
  session.authorizedPeer = peer && session.offerId = credentials.offerId &&
    session.fileId = credentials.fileId && session.capability = credentials.capability &&
    session.serverNonce = credentials.serverNonce

end TransferSession

end ClipFerry.Server
