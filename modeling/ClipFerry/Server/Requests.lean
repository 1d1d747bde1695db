import ClipFerry.Server.Source
import ClipFerry.Server.State

namespace ClipFerry.Server

open Protocol Foundation

def maxActiveTransfers : Nat := 64

def maxBeginNonces : Nat := 4096

structure ServerState where
  offered : SecureOfferedFile ReadAtSource
  authorizedPeer : CertificateFingerprint
  trustStore : Bool
  transferTtl : Nat

structure View where
  shared : Shared
  now : Nat
  trusted : CertificateFingerprint → Bool

inductive Request where
  | connect (peer : CertificateFingerprint)
  | beginTransfer (peer : CertificateFingerprint) (offerId fileId : ProtocolId) (nonce : Secret)
  | control (peer : CertificateFingerprint) (credentials : TransferCredentials) (sequence : Nat)
      (opcode : Opcode)
  | status (peer : CertificateFingerprint) (credentials : TransferCredentials)
  | readRange (peer : CertificateFingerprint) (credentials : TransferCredentials)
      (offset requested : Nat)
deriving DecidableEq

inductive Answer where
  | connected
  | began (credentials : TransferCredentials)
  | status (status : TransferStatus)
  | range (status : TransferStatus) (bytes : List UInt8)
deriving DecidableEq

inductive Pc where
  | authorize
  | revoke
  | cancelling (todo : List Nat)
  | sample
  | admission (now : Nat)
  | counting (now : Nat) (todo : List Nat) (active : Nat)
  | lookup
  | apply (session : Nat)
  | gate (session : Nat)
  | waiting (session : Nat)
  | recheck (session : Nat)
  | fetch (session : Nat)
  | finish (session read : Nat) (bytes : List UInt8)
  | done (result : WireResult Answer)

def Request.peer : Request → CertificateFingerprint
  | connect peer | beginTransfer peer _ _ _ | control peer _ _ _ | status peer _
  | readRange peer _ _ _ => peer

def Request.credentials : Request → Option TransferCredentials
  | control _ credentials _ _ | status _ credentials | readRange _ credentials _ _ =>
    some credentials
  | connect _ | beginTransfer _ _ _ _ => none

def Request.entry : Request → Pc
  | readRange _ _ _ requested =>
    if maxSecureRangeBytes < requested then .done (.error .invalid) else .authorize
  | _ => .authorize

def Request.authorized : Request → Pc
  | connect _ => .done (.ok .connected)
  | beginTransfer _ _ _ _ => .sample
  | control _ _ _ _ | status _ _ | readRange _ _ _ _ => .lookup

def Request.authenticated (request : Request) (i : Nat) : List Update × Pc :=
  match request with
  | readRange _ _ _ _ => ([.beginRead], .gate i)
  | _ => ([], .apply i)

namespace ServerState

variable (server : ServerState) (view : View)

def peerIsAllowed (peer : CertificateFingerprint) : Bool :=
  peer = server.authorizedPeer && (!server.trustStore || view.trusted peer)

def ensurePeerAllowed (peer : CertificateFingerprint) (next : Pc) : List Update × Pc :=
  if server.peerIsAllowed view peer = false then ([.deny], .revoke) else ([], next)

def peerTransfers (shared : Shared) (peer : CertificateFingerprint) : List Nat :=
  shared.transfers.values.filter fun i =>
    shared.sessions[i]?.any fun session => session.authorizedPeer = peer

def beginSample (offerId fileId : ProtocolId) : List Update × Pc :=
  if offerId ≠ server.offered.storedManifest.offerId ∨ server.offered.expiresAt ≤ view.now then
    ([], .done (.error .expired))
  else if server.offered.source fileId = none then ([.deny], .done (.error .denied))
  else ([], .admission view.now)

def recordedSession (shared : Shared) (peer : CertificateFingerprint)
    (offerId fileId : ProtocolId) (record : BeginTransferRecord) : Option TransferSession :=
  if record.authorizedPeer = peer ∧ record.offerId = offerId ∧ record.fileId = fileId then
    (shared.transfers.get record.transferId).bind (shared.sessions[·]?)
  else none

def beginAdmit (peer : CertificateFingerprint) (offerId fileId : ProtocolId) (nonce : Secret)
    (now : Nat) : List Update × Pc :=
  let shared := view.shared.prune now
  match shared.beginNonces.get nonce with
  | some record =>
    match recordedSession shared peer offerId fileId record with
    | some session => ([.prune now], .done (.ok (.began (session.credentials view.now))))
    | none => ([.prune now, .replay], .done (.error .replay))
  | none => ([.prune now], .counting now shared.transfers.values 0)

def beginCreate (peer : CertificateFingerprint) (offerId fileId : ProtocolId) (nonce : Secret)
    (now active : Nat) (drawn : Option (ProtocolId × Secret × Secret)) : List Update × Pc :=
  if maxActiveTransfers ≤ active ∨ maxBeginNonces ≤ view.shared.transfers.len ∨
      maxBeginNonces ≤ view.shared.beginNonces.len then
    ([], .done (.error .busy))
  else match drawn, checkedAddInstant now server.transferTtl with
  | some (transferId, capability, serverNonce), some expiresAt =>
    let session : TransferSession :=
      ⟨peer, offerId, fileId, transferId, capability, serverNonce, expiresAt, .fresh⟩
    ([.create nonce session], .done (.ok (.began (session.credentials view.now))))
  | _, _ => ([], .done (.error .internal))

def authenticatedSession (request : Request) (credentials : TransferCredentials) :
    List Update × Pc :=
  match view.shared.transfers.get credentials.transferId with
  | none => ([.deny], .done (.error .denied))
  | some i =>
    match view.shared.sessions[i]? with
    | none => ([.deny], .done (.error .denied))
    | some session =>
      if session.expiresAt ≤ view.now then ([], .done (.error .expired))
      else if session.matchesCredentials request.peer credentials = false then
        ([.deny], .done (.error .denied))
      else request.authenticated i

def control (session : TransferSession) (i sequence : Nat) (opcode : Opcode) :
    List Update × Pc :=
  if sequence = session.inner.lastControlSequence ∧
      session.inner.lastControlOpcode = some opcode then
    ([], .done (.ok (.status session.inner.status)))
  else if sequence ≤ session.inner.lastControlSequence then
    ([.replay], .done (.error .replay))
  else match opcode with
  | .pause | .resume | .cancel | .complete => ([.control i sequence opcode],
    .done (.ok (.status (session.inner.accept sequence opcode).status)))
  | _ => ([.control i sequence opcode], .done (.error .invalid))

def readRangeGate (peer : CertificateFingerprint) (session : TransferSession) (i : Nat) :
    List Update × Pc :=
  if session.inner.state = .paused then
    if server.peerIsAllowed view peer = false then ([.cancel i], .done (.error .denied))
    else if session.expiresAt ≤ view.now then ([], .done (.error .expired))
    else ([], .waiting i)
  else if session.expiresAt ≤ view.now then ([], .done (.error .expired))
  else if session.inner.state = .cancelled then ([], .done (.error .cancelled))
  else ([], .recheck i)

def readRangeWake (peer : CertificateFingerprint) (session : TransferSession) (i : Nat)
    (timedOut : Bool) : List Update × Pc :=
  if timedOut = true ∧ session.inner.state = .paused then
    ([], .done (.ok (.range ⟨.paused, session.inner.coverage.uniqueBytes⟩ [])))
  else server.readRangeGate view peer session i

def readRangeFetch (fileId : ProtocolId) (i offset requested attempt : Nat) :
    List Update × Pc :=
  match server.offered.source fileId, server.offered.manifestEntry fileId with
  | some source, some entry =>
    let count := min (entry.descriptor.size.toNat - offset) requested
    match source.readAt attempt offset count with
    | .error _ => ([], .done (.error .sourceChanged))
    | .ok (read, buffer) => ([], .finish i read (buffer.val.take read))
  | _, _ => ([], .done (.error .denied))

def readRangeFinish (peer : CertificateFingerprint) (session : TransferSession)
    (i offset read : Nat) (bytes : List UInt8) : List Update × Pc :=
  if server.peerIsAllowed view peer = false then ([.cancel i], .done (.error .denied))
  else if session.expiresAt ≤ view.now then ([], .done (.error .expired))
  else if session.inner.state = .cancelled then ([], .done (.error .cancelled))
  else ([.serve i offset read],
    .done (.ok (.range (session.inner.serve offset read).status bytes)))

end ServerState

end ClipFerry.Server
