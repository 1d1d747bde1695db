import ClipFerry.Foundation.ChunkReader
import ClipFerry.Loopback.Answers
import ClipFerry.Settings.AppSettings

namespace ClipFerry.Loopback

open Checked Foundation Protocol Server VirtualTree ClipFerry.Stream

def errorFileNotFound : HResult := .other 0x80070002

def errorInvalidData : HResult := .other 0x8007000D

def errorConnectionAborted : HResult := .other 0x800704D4

def ioError : ErrorKind → HResult
  | .timedOut | .wouldBlock => .timeout
  | .invalidData | .invalidInput => errorInvalidData
  | _ => errorConnectionAborted

structure TcpRangeSource where
  address : Settings.SocketAddr
  fileId : FileId
  length : UInt64
  maxRequestBytes : Nat
  loopback : address.ip.isLoopback = true
  bounded : 0 < maxRequestBytes ∧ maxRequestBytes ≤ maxProtocolRangeBytes

/-! What one connection gives: nothing, or bytes in pieces and then an error or the end. -/

inductive NetworkReply where
  | unreachable (kind : ErrorKind)
  | connected (received : ChunkReader UInt8) (failure : ErrorKind)

namespace TcpRangeSource

def new (address : Settings.SocketAddr) (fileId : FileId) (length : UInt64)
    (maxRequestBytes connectTimeout ioTimeout : Nat) : Except HResult TcpRangeSource :=
  if hloopback : address.ip.isLoopback = true then
    if hbounded : 0 < maxRequestBytes ∧ maxRequestBytes ≤ maxProtocolRangeBytes then
      if connectTimeout = 0 ∨ ioTimeout = 0 then .error .invalidArg
      else .ok ⟨address, fileId, length, maxRequestBytes, hloopback, hbounded⟩
    else .error .invalidArg
  else .error .invalidArg

def request (source : TcpRangeSource) (requestId : UInt64) (opcode : Opcode) (offset : UInt64)
    (length : UInt32) : RequestHeader :=
  ⟨opcode, requestId, source.fileId, offset, length⟩

def readExact (received : ChunkReader UInt8) (failure : ErrorKind) (n : Nat) :
    Except HResult (List UInt8 × ChunkReader UInt8) :=
  match received.readExact n with
  | (some bytes, rest) => .ok (bytes, rest)
  | (none, _) => .error (ioError failure)

def statusResult : ResponseStatus → Except HResult Unit
  | .ok => .ok ()
  | .invalidRequest => .error .invalidArg
  | .fileNotFound => .error errorFileNotFound
  | .cancelled => .error .cancelled
  | .internalError => .error .unexpected

def exchange (source : TcpRangeSource) (request : RequestHeader) :
    NetworkReply → Except HResult (ChunkReader UInt8 × ErrorKind × ResponseHeader)
  | .unreachable kind => .error (ioError kind)
  | .connected received failure => do
    let (bytes, rest) ← readExact received failure responseHeaderLen
    match ResponseHeader.decode bytes with
    | none => .error errorInvalidData
    | some response =>
      if response.requestId ≠ request.requestId ∨ response.totalLength ≠ source.length then
        .error errorInvalidData
      else do
        statusResult response.status
        .ok (rest, failure, response)

def requested (source : TcpRangeSource) (offset length : Nat) : Nat :=
  min (min length source.maxRequestBytes) (source.length.toNat - offset)

def rangeRequest (source : TcpRangeSource) (requestId : UInt64) (offset length : Nat) :
    RequestHeader :=
  source.request requestId .readRange (.ofNat offset) (.ofNat (source.requested offset length))

def readAt (source : TcpRangeSource) (requestId : UInt64) (network : RequestHeader → NetworkReply)
    (offset length : Nat) : Except HResult (Nat × List.Vector UInt8 length) :=
  if length = 0 ∨ source.length.toNat ≤ offset then
    .ok (0, untouched length)
  else if 2 ^ 32 ≤ source.requested offset length then .error .invalidArg
  else do
    let request := source.rangeRequest requestId offset length
    let (rest, failure, response) ← source.exchange request (network request)
    let payload := response.payloadLength.toNat
    if payload = 0 ∨ source.requested offset length < payload then .error errorInvalidData
    else do
      let (bytes, _) ← readExact rest failure payload
      .ok (payload, filled bytes length)

def reads (source : TcpRangeSource) (ids : Nat → UInt64)
    (peer : Nat → RequestHeader → NetworkReply) : ReadAtSource where
  len := source.length
  readAt attempt offset length := source.readAt (ids attempt) (peer attempt) offset length

variable {source : TcpRangeSource} {received rest : ChunkReader UInt8} {bytes : List UInt8}
  {failure kind : ErrorKind} {request : RequestHeader} {response : ResponseHeader}
  {network : NetworkReply} {offset length read : Nat} {requestId : UInt64}

theorem readExact_eq_ok {n : Nat} (h : readExact received failure n = .ok (bytes, rest)) :
    bytes.length = n ∧ received.bytes = bytes ++ rest.bytes := by
  rcases Nat.lt_or_ge received.bytes.length n with hshort | hlong
  · have hnone := ChunkReader.readExact_short hshort
    rw [readExact] at h
    split at h
    · next hsome =>
      rw [hsome] at hnone
      cases hnone
    · cases h
  · obtain ⟨htaken, hleft⟩ := ChunkReader.readExact_whole hlong
    rw [readExact] at h
    split at h
    · next hsome =>
      cases h
      rw [hsome] at htaken hleft
      cases htaken
      dsimp only at hleft
      rw [hleft]
      exact ⟨by rw [List.length_take, Nat.min_eq_left hlong], (List.take_append_drop n _).symm⟩
    · cases h

theorem statusResult_eq_ok {status : ResponseStatus} : statusResult status = .ok () ↔ status = .ok := by
  cases status <;> simp [statusResult]

theorem exchange_eq_ok (h : source.exchange request network = .ok (rest, failure, response)) :
    ∃ received header, network = .connected received failure ∧ header.length = responseHeaderLen ∧
      received.bytes = header ++ rest.bytes ∧ ResponseHeader.decode header = some response ∧
      response.status = .ok ∧ response.requestId = request.requestId ∧
      response.totalLength = source.length := by
  cases network with
  | unreachable kind => cases h
  | connected received failure =>
    obtain ⟨⟨header, rest⟩, hread, h⟩ := bind_eq_ok.mp h
    dsimp only at h
    cases hdecode : ResponseHeader.decode header with
    | none =>
      rw [hdecode] at h
      cases h
    | some response =>
      rw [hdecode] at h
      obtain ⟨hsame, h⟩ := guard_eq_ok.mp h
      obtain ⟨_, hstatus, h⟩ := bind_eq_ok.mp h
      cases h
      simp only [not_or, not_not] at hsame
      obtain ⟨hlength, hbytes⟩ := readExact_eq_ok hread
      exact ⟨received, header, rfl, hlength, hbytes, hdecode, statusResult_eq_ok.mp hstatus, hsame⟩

def Accepted (source : TcpRangeSource) (request : RequestHeader) (requested : Nat)
    (reply : NetworkReply) (payload : List UInt8) : Prop :=
  ∃ received failure header response rest, reply = .connected received failure ∧
    received.bytes = header ++ (payload ++ rest) ∧ header.length = responseHeaderLen ∧
    ResponseHeader.decode header = some response ∧ response.status = .ok ∧
    response.requestId = request.requestId ∧ response.totalLength = source.length ∧
    response.payloadLength.toNat = payload.length ∧ 1 ≤ payload.length ∧ payload.length ≤ requested

theorem requested_le (source : TcpRangeSource) (offset length : Nat) :
    source.requested offset length ≤ length ∧
      source.requested offset length ≤ maxProtocolRangeBytes ∧
      source.requested offset length ≤ source.length.toNat - offset := by
  have hbounded := source.bounded
  rw [requested]
  omega

theorem readAt_accepted {network : RequestHeader → NetworkReply} {buffer : List.Vector UInt8 length}
    (h : source.readAt requestId network offset length = .ok (read, buffer)) :
    (read = 0 ∧ (length = 0 ∨ source.length.toNat ≤ offset)) ∨
    (offset < source.length.toNat ∧ ∃ payload,
      source.Accepted (source.rangeRequest requestId offset length)
        (source.requested offset length)
        (network (source.rangeRequest requestId offset length)) payload ∧
      read = payload.length ∧ buffer.val.take read = payload) := by
  rw [readAt] at h
  split at h
  · next hnone =>
    cases h
    exact .inl ⟨rfl, hnone⟩
  · next hsome =>
    obtain ⟨-, h⟩ := guard_eq_ok.mp h
    obtain ⟨⟨rest, failure, response⟩, hexchange, h⟩ := bind_eq_ok.mp h
    obtain ⟨hpayload, h⟩ := guard_eq_ok.mp h
    obtain ⟨⟨payload, later⟩, hread, h⟩ := bind_eq_ok.mp h
    obtain ⟨received, header, hnetwork, hheader, hbytes, hdecode, hstatus, hid, htotal⟩ :=
      exchange_eq_ok hexchange
    obtain ⟨hlength, hrest⟩ := readExact_eq_ok hread
    have hrequested := (source.requested_le offset length).1
    cases h
    refine .inr ⟨by omega, payload, ⟨received, failure, header, response, later.bytes, hnetwork, ?_,
      hheader, hdecode, hstatus, hid, htotal, hlength.symm, by omega, by omega⟩, hlength.symm, ?_⟩
    · rw [hbytes, hrest]
    · rw [← hlength]
      exact take_filled (by omega)

end TcpRangeSource

end ClipFerry.Loopback
