import ClipFerry.Client.Source
import ClipFerry.Server.Dispatch

namespace ClipFerry.Client

open ByteField Checked Protocol Server

def decodeTransferStatus (response : List UInt8) : Except IoError TransferStatus := do
  requireOk response
  if response.length < 10 then .error (invalidData "truncated transfer status") else
  match response[1]? with
  | none => .error (invalidData "truncated transfer status")
  | some value => do
  let state ← RemoteTransferState.decode value
  let uniqueBytes ← arrayAtIo 8 response 2
  .ok ⟨state, (fromBe64 uniqueBytes).toNat⟩

def beginPayload (offerId fileId : ProtocolId) (nonce : Secret) : List UInt8 :=
  offerId.bytes.val ++ (fileId.bytes.val ++ nonce.val)

def decodeBegin (offerId fileId : ProtocolId) (response : List UInt8) :
    Except IoError TransferCredentials := do
  requireOk response
  if response.length ≠ 121 then .error (invalidData "invalid BeginTransfer response") else
  let offer ← arrayAtIo 16 response 1
  let file ← arrayAtIo 16 response 17
  let transferId ← arrayAtIo 16 response 33
  let capability ← arrayAtIo 32 response 49
  let serverNonce ← arrayAtIo 32 response 81
  let expiresAtMillis ← arrayAtIo 8 response 113
  if (⟨offer⟩ : ProtocolId) ≠ offerId ∨ (⟨file⟩ : ProtocolId) ≠ fileId then
    .error (invalidData "BeginTransfer identifiers do not match offer") else
  .ok ⟨⟨offer⟩, ⟨file⟩, ⟨transferId⟩, capability, serverNonce, fromBe64 expiresAtMillis⟩

def readPayload (credentials : TransferCredentials) (offset : UInt64) (requested : Nat) :
    Except IoError (List UInt8) :=
  if maxSecureRangeBytes < requested then
    .error (invalidData "secure range exceeds client limit")
  else if 2 ^ 32 ≤ requested then
    .error (invalidData "out of range integral type conversion attempted")
  else
    .ok (credentials.encode ++ ((beBytes64 offset).val ++ (beBytes32 (.ofNat requested)).val))

def decodeRange (requested : Nat) (response : List UInt8) :
    Except IoError (TransferStatus × List UInt8) := do
  let status ← decodeTransferStatus response
  if response.length < 14 then .error (invalidData "truncated ReadRange response") else
  let length ← arrayAtIo 4 response 10
  if response.length ≠ 14 + (fromBe32 length).toNat ∨ requested < (fromBe32 length).toNat then
    .error (invalidData "invalid ReadRange payload length") else
  .ok (status, response.drop 14)

def controlPayload (credentials : TransferCredentials) (sequence : Nat) : List UInt8 :=
  credentials.encode ++ (beBytes64 (.ofNat sequence)).val

namespace Rpc

def encode (nonce : Secret) (source : RemoteSource TransferCredentials) :
    Rpc TransferCredentials → Except IoError (Opcode × List UInt8)
  | .beginTransfer _ => .ok (.beginTransfer, beginPayload source.offerId source.fileId nonce)
  | .readRange credentials offset requested => do
    let payload ← readPayload credentials offset requested
    .ok (.readRange, payload)
  | .control credentials sequence opcode => .ok (opcode, controlPayload credentials sequence)
  | .status credentials => .ok (.status, credentials.encode)

def decode (source : RemoteSource TransferCredentials) (response : List UInt8) :
    Rpc TransferCredentials → Except IoError (Reply TransferCredentials)
  | .beginTransfer _ => do
    let credentials ← decodeBegin source.offerId source.fileId response
    .ok (.began credentials)
  | .readRange _ _ requested => do
    let (answered, bytes) ← decodeRange requested response
    .ok (.range answered bytes)
  | .control _ _ _ | .status _ => do
    let answered ← decodeTransferStatus response
    .ok (.status answered)

def reply (source : RemoteSource TransferCredentials) (rpc : Rpc TransferCredentials)
    (outcome : Except IoError (List UInt8)) : Reply TransferCredentials :=
  match outcome.bind fun response => rpc.decode source response with
  | .ok reply => reply
  | .error error => .failed error

end Rpc

theorem decodeBegin_names {offerId fileId : ProtocolId} {response : List UInt8}
    {credentials : TransferCredentials} (h : decodeBegin offerId fileId response = .ok credentials) :
    credentials.fileId = fileId := by
  unfold decodeBegin at h
  rw [bind_eq_ok] at h
  obtain ⟨-, -, h⟩ := h
  rw [guard_eq_ok] at h
  obtain ⟨-, h⟩ := h
  iterate 6 (rw [bind_eq_ok] at h; obtain ⟨_, -, h⟩ := h)
  rw [guard_eq_ok] at h
  obtain ⟨hnames, h⟩ := h
  cases h
  rw [not_or, not_not, not_not] at hnames
  exact hnames.2

theorem decodeBegin_beginResponse (credentials : TransferCredentials) :
    decodeBegin credentials.offerId credentials.fileId (beginResponse credentials) =
      .ok credentials := by
  obtain ⟨⟨offer⟩, ⟨file⟩, ⟨transferId⟩, capability, serverNonce, expiresAtMillis⟩ := credentials
  generalize hresponse : beginResponse ⟨⟨offer⟩, ⟨file⟩, ⟨transferId⟩, capability, serverNonce,
    expiresAtMillis⟩ = response
  have hoffer : Remaining response 1 (offer.val ++ (file.val ++ (transferId.val ++ (capability.val
      ++ (serverNonce.val ++ (beBytes64 expiresAtMillis).val))))) :=
    ⟨[ResponseStatus.ok.encode], hresponse.symm, rfl⟩
  have hfile := hoffer.skip offer.property
  have htransfer := hfile.skip file.property
  have hcapability := htransfer.skip transferId.property
  have hnonce := hcapability.skip capability.property
  have hexpires := hnonce.skip serverNonce.property
  rw [← List.append_nil (beBytes64 expiresAtMillis).val] at hexpires
  have hlength : response.length = 121 := by
    rw [← hresponse]
    simp [beginResponse]
  have hok : requireOk response = .ok () := by
    rw [← hresponse]
    rfl
  unfold decodeBegin
  rw [hok, ok_bind, if_neg (not_not.mpr hlength), arrayAtIo_remaining hoffer, ok_bind,
    arrayAtIo_remaining hfile, ok_bind, arrayAtIo_remaining htransfer, ok_bind,
    arrayAtIo_remaining hcapability, ok_bind, arrayAtIo_remaining hnonce, ok_bind,
    arrayAtIo_remaining hexpires, ok_bind, if_neg (by simp), fromBe64_beBytes64]

theorem decodeTransferStatus_encode (status : TransferStatus) (rest : List UInt8) :
    decodeTransferStatus (encodeTransferStatus status ++ rest) =
      .ok ⟨status.state, (UInt64.ofNat status.uniqueBytes).toNat⟩ := by
  have hunique : Remaining (encodeTransferStatus status ++ rest) 2
      ((beBytes64 (.ofNat status.uniqueBytes)).val ++ rest) :=
    ⟨[ResponseStatus.ok.encode, status.state.encode], rfl, rfl⟩
  have hlength : ¬(encodeTransferStatus status ++ rest).length < 10 := by
    simp [encodeTransferStatus]
  have hok : requireOk (encodeTransferStatus status ++ rest) = .ok () := rfl
  have hstate : (encodeTransferStatus status ++ rest)[1]? = some status.state.encode := rfl
  unfold decodeTransferStatus
  rw [hok, ok_bind, if_neg hlength, hstate]
  simp only [RemoteTransferState.decode_encode, ok_bind, arrayAtIo_remaining hunique,
    fromBe64_beBytes64]

theorem decodeRange_short {requested : Nat} {response : List UInt8} (h : response.length < 14)
    {result : TransferStatus × List UInt8} : decodeRange requested response ≠ .ok result := by
  intro hok
  unfold decodeRange at hok
  rw [bind_eq_ok] at hok
  obtain ⟨_, -, hok⟩ := hok
  rw [guard_eq_ok] at hok
  exact hok.1 h

theorem decodeRange_readResponse {requested : Nat} (status : TransferStatus) {bytes : List UInt8}
    (hfits : bytes.length < 2 ^ 32) :
    decodeRange requested (encodeTransferStatus status
      ++ ((beBytes32 (.ofNat bytes.length)).val ++ bytes)) =
    if requested < bytes.length then .error (invalidData "invalid ReadRange payload length")
    else .ok (⟨status.state, (UInt64.ofNat status.uniqueBytes).toNat⟩, bytes) := by
  have hcount : (UInt32.ofNat bytes.length).toNat = bytes.length := UInt32.toNat_ofNat_of_lt' hfits
  have hten : (encodeTransferStatus status).length = 10 := by simp [encodeTransferStatus]
  have hstart := (Remaining.start (encodeTransferStatus status
    ++ ((beBytes32 (.ofNat bytes.length)).val ++ bytes))).skip hten
  rw [Nat.zero_add] at hstart
  have hdrop : (encodeTransferStatus status
      ++ ((beBytes32 (.ofNat bytes.length)).val ++ bytes)).drop 14 = bytes := by
    rw [← List.append_assoc]
    exact List.drop_left' (by simp [hten])
  have hlength : (encodeTransferStatus status
      ++ ((beBytes32 (.ofNat bytes.length)).val ++ bytes)).length = 14 + bytes.length := by
    simp [hten]
    omega
  unfold decodeRange
  rw [decodeTransferStatus_encode, ok_bind, if_neg (by omega), arrayAtIo_remaining hstart, ok_bind,
    fromBe32_beBytes32, hcount, hdrop, hlength]
  simp only [ne_eq, not_true_eq_false, false_or]

theorem decodeRange_respond {requested : Nat} {status status' : TransferStatus}
    {bytes bytes' : List UInt8}
    (h : decodeRange requested (respond (.ok (.range status bytes))) = .ok (status', bytes')) :
    status'.state = status.state ∧ bytes' = bytes ∧ bytes.length ≤ requested := by
  rw [respond, readResponse] at h
  split at h
  · exact absurd h (decodeRange_short (by simp [orStatus]))
  · rename_i hfits
    rw [orStatus, decodeRange_readResponse status (Nat.lt_of_not_le hfits), guard_eq_ok] at h
    obtain ⟨hlength, h⟩ := h
    cases h
    exact ⟨rfl, rfl, Nat.le_of_not_lt hlength⟩

theorem reply_began_respond {source : RemoteSource TransferCredentials}
    {credentials : TransferCredentials} (hoffer : source.offerId = credentials.offerId)
    (hfile : source.fileId = credentials.fileId) (s : Nat) :
    (Rpc.beginTransfer s).reply source (.ok (respond (.ok (.began credentials)))) =
      .began credentials := by
  have hdecode := decodeBegin_beginResponse credentials
  rw [← hoffer, ← hfile] at hdecode
  simp only [Rpc.reply, Except.bind, Rpc.decode, respond, hdecode]
  rfl

theorem reply_range_respond {source : RemoteSource TransferCredentials}
    {credentials : TransferCredentials} {offset : UInt64} {requested : Nat}
    {status : TransferStatus} {bytes : List UInt8} (hfits : bytes.length < 2 ^ 32)
    (hlength : bytes.length ≤ requested) :
    (Rpc.readRange credentials offset requested).reply source
      (.ok (respond (.ok (.range status bytes)))) =
      .range ⟨status.state, (UInt64.ofNat status.uniqueBytes).toNat⟩ bytes := by
  have hdecode := (decodeRange_readResponse status hfits).trans (if_neg (Nat.not_lt.mpr hlength))
  simp only [Rpc.reply, Except.bind, Rpc.decode, respond, readResponse,
    if_neg (Nat.not_le.mpr hfits), orStatus, hdecode]
  rfl

end ClipFerry.Client
