import ClipFerry.Protocol.Manifest
import ClipFerry.Server.CallTrace

namespace ClipFerry.Server

open ByteField Checked Protocol Transition

namespace TransferCredentials

def wireLen : Nat := 112

def encode (credentials : TransferCredentials) : List UInt8 :=
  credentials.offerId.bytes.val ++ (credentials.fileId.bytes.val
    ++ (credentials.transferId.bytes.val ++ (credentials.capability.val
    ++ credentials.serverNonce.val)))

def decode (bytes : List UInt8) : WireResult TransferCredentials := do
  if bytes.length < wireLen then .error .invalid else
  let offerId ← arrayAt 16 bytes 0
  let fileId ← arrayAt 16 bytes 16
  let transferId ← arrayAt 16 bytes 32
  let capability ← arrayAt 32 bytes 48
  let serverNonce ← arrayAt 32 bytes 80
  .ok ⟨⟨offerId⟩, ⟨fileId⟩, ⟨transferId⟩, capability, serverNonce, 0⟩

end TransferCredentials

def beginRequest (peer : CertificateFingerprint) (payload : List UInt8) : WireResult Request := do
  if payload.length ≠ 64 then .error .invalid else
  let offerId ← arrayAt 16 payload 0
  let fileId ← arrayAt 16 payload 16
  let nonce ← arrayAt 32 payload 32
  if nonce.val.all (· = 0) then .error .invalid else
  .ok (.beginTransfer peer ⟨offerId⟩ ⟨fileId⟩ nonce)

def readRequest (peer : CertificateFingerprint) (payload : List UInt8) : WireResult Request := do
  if payload.length ≠ TransferCredentials.wireLen + 12 then .error .invalid else
  let credentials ← TransferCredentials.decode payload
  let offset ← arrayAt 8 payload TransferCredentials.wireLen
  let requested ← arrayAt 4 payload (TransferCredentials.wireLen + 8)
  .ok (.readRange peer credentials (fromBe64 offset).toNat (fromBe32 requested).toNat)

def controlRequest (peer : CertificateFingerprint) (opcode : Opcode) (payload : List UInt8) :
    WireResult Request := do
  if payload.length ≠ TransferCredentials.wireLen + 8 then .error .invalid else
  let credentials ← TransferCredentials.decode payload
  let sequence ← arrayAt 8 payload TransferCredentials.wireLen
  .ok (.control peer credentials (fromBe64 sequence).toNat opcode)

def statusRequest (peer : CertificateFingerprint) (payload : List UInt8) : WireResult Request := do
  if payload.length ≠ TransferCredentials.wireLen then .error .invalid else
  let credentials ← TransferCredentials.decode payload
  .ok (.status peer credentials)

def beginResponse (credentials : TransferCredentials) : List UInt8 :=
  ResponseStatus.ok.encode :: (credentials.offerId.bytes.val ++ (credentials.fileId.bytes.val
    ++ (credentials.transferId.bytes.val ++ (credentials.capability.val
    ++ (credentials.serverNonce.val ++ (beBytes64 credentials.expiresAtMillis).val)))))

def encodeTransferStatus (status : TransferStatus) : List UInt8 :=
  ResponseStatus.ok.encode :: status.state.encode :: (beBytes64 (.ofNat status.uniqueBytes)).val

def readResponse (status : TransferStatus) (bytes : List UInt8) : WireResult (List UInt8) :=
  if 2 ^ 32 ≤ bytes.length then .error .internal
  else .ok (encodeTransferStatus status ++ ((beBytes32 (.ofNat bytes.length)).val ++ bytes))

def orStatus : WireResult (List UInt8) → List UInt8
  | .ok response => response
  | .error status => [status.encode]

inductive Dispatch where
  | call (request : Request)
  | reply (response : List UInt8)

def Dispatch.ofRequest : WireResult Request → Dispatch
  | .ok request => .call request
  | .error status => .reply [status.encode]

def dispatchRequest (server : ServerState) (checkedAt readAt : Nat)
    (peer : CertificateFingerprint) (opcode : Opcode) (payload : List UInt8) : Dispatch :=
  match opcode with
  | .getOffer => .reply (orStatus (encodeManifestResponse server.offered checkedAt readAt payload))
  | .beginTransfer => .ofRequest (beginRequest peer payload)
  | .readRange => .ofRequest (readRequest peer payload)
  | .pause | .resume | .cancel | .complete => .ofRequest (controlRequest peer opcode payload)
  | .status => .ofRequest (statusRequest peer payload)
  | .hello => .reply [ResponseStatus.invalid.encode]

def respond : WireResult Answer → List UInt8
  | .ok (.began credentials) => beginResponse credentials
  | .ok (.status status) => encodeTransferStatus status
  | .ok (.range status bytes) => orStatus (readResponse status bytes)
  | .ok .connected => []
  | .error status => [status.encode]

theorem arrayAt_remaining {n : Nat} {bytes rest : List UInt8} {v : List.Vector UInt8 n}
    {cursor : Nat} (h : Remaining bytes cursor (v.val ++ rest)) :
    arrayAt n bytes cursor = .ok v := by
  rw [arrayAt, h.fieldAt]

theorem arrayAt_last {n : Nat} {bytes : List UInt8} {v : List.Vector UInt8 n} {cursor : Nat}
    (h : Remaining bytes cursor v.val) : arrayAt n bytes cursor = .ok v := by
  rw [← List.append_nil v.val] at h
  exact arrayAt_remaining h

namespace TransferCredentials

variable (credentials : TransferCredentials)

theorem length_encode : credentials.encode.length = wireLen := by
  simp [encode, wireLen]

theorem decode_encode (rest : List UInt8) :
    decode (credentials.encode ++ rest) = .ok { credentials with expiresAtMillis := 0 } := by
  have hstart : Remaining (credentials.encode ++ rest) 0 (credentials.offerId.bytes.val
      ++ (credentials.fileId.bytes.val ++ (credentials.transferId.bytes.val
      ++ (credentials.capability.val ++ (credentials.serverNonce.val ++ rest))))) := by
    have h := Remaining.start (credentials.encode ++ rest)
    simpa only [encode, List.append_assoc] using h
  have hfile := hstart.skip credentials.offerId.bytes.property
  have htransfer := hfile.skip credentials.fileId.bytes.property
  have hcapability := htransfer.skip credentials.transferId.bytes.property
  have hnonce := hcapability.skip credentials.capability.property
  have hlength : ¬(credentials.encode ++ rest).length < wireLen := by
    rw [List.length_append, length_encode]
    omega
  unfold decode
  rw [if_neg hlength, arrayAt_remaining hstart, ok_bind, arrayAt_remaining hfile, ok_bind,
    arrayAt_remaining htransfer, ok_bind, arrayAt_remaining hcapability, ok_bind,
    arrayAt_remaining hnonce, ok_bind]

end TransferCredentials

theorem length_encodeTransferStatus (status : TransferStatus) :
    (encodeTransferStatus status).length = 10 := by
  simp [encodeTransferStatus]

section RangeResponse

variable {bytes : List UInt8}

theorem respond_range (status : TransferStatus) (h : bytes.length < 2 ^ 32) :
    respond (.ok (.range status bytes)) =
      encodeTransferStatus status ++ ((beBytes32 (.ofNat bytes.length)).val ++ bytes) := by
  rw [respond, readResponse, if_neg (Nat.not_le.mpr h)]
  rfl

theorem length_respond_range (status : TransferStatus) (h : bytes.length < 2 ^ 32) :
    (respond (.ok (.range status bytes))).length = 14 + bytes.length := by
  rw [respond_range status h, List.length_append, length_encodeTransferStatus, List.length_append,
    List.Vector.length_val]
  omega

theorem range_small (h : bytes.length ≤ maxSecureRangeBytes) : bytes.length < 2 ^ 32 :=
  Nat.lt_of_le_of_lt h (by decide)

theorem respond_range_fits (status : TransferStatus) (h : bytes.length ≤ maxSecureRangeBytes) :
    (respond (.ok (.range status bytes))).length ≤ maxFramePayload := by
  have hframe : 14 + maxSecureRangeBytes ≤ maxFramePayload := by decide
  rw [length_respond_range status (range_small h)]
  omega

end RangeResponse

theorem readRequest_encode (peer : CertificateFingerprint) (credentials : TransferCredentials)
    (offset : UInt64) (requested : UInt32) :
    readRequest peer (credentials.encode ++ ((beBytes64 offset).val ++ (beBytes32 requested).val)) =
      .ok (.readRange peer { credentials with expiresAtMillis := 0 } offset.toNat
        requested.toNat) := by
  have hlength : ¬(credentials.encode ++ ((beBytes64 offset).val
      ++ (beBytes32 requested).val)).length ≠ TransferCredentials.wireLen + 12 := by
    simp [credentials.length_encode]
  have hdecode := credentials.decode_encode ((beBytes64 offset).val ++ (beBytes32 requested).val)
  have hoffset := (Remaining.start (credentials.encode ++ ((beBytes64 offset).val
    ++ (beBytes32 requested).val))).skip credentials.length_encode
  have hrequested := hoffset.skip (beBytes64 offset).property
  rw [Nat.zero_add] at hoffset hrequested
  unfold readRequest
  rw [if_neg hlength, hdecode, ok_bind, arrayAt_remaining hoffset, ok_bind,
    arrayAt_last hrequested, ok_bind, fromBe64_beBytes64, fromBe32_beBytes32]

theorem arrayAt_fails (n : Nat) (bytes : List UInt8) (start : Nat) :
    FailsOnly .invalid (arrayAt n bytes start) := by
  rw [arrayAt]
  split
  · exact .ok _
  · exact .error

theorem TransferCredentials.decode_fails (bytes : List UInt8) :
    FailsOnly .invalid (TransferCredentials.decode bytes) :=
  .guard <| .bind (arrayAt_fails _ _ _) fun _ => .bind (arrayAt_fails _ _ _) fun _ =>
    .bind (arrayAt_fails _ _ _) fun _ => .bind (arrayAt_fails _ _ _) fun _ =>
    .bind (arrayAt_fails _ _ _) fun _ => .ok _

section Malformed

variable (peer : CertificateFingerprint) (payload : List UInt8)

theorem beginRequest_fails : FailsOnly .invalid (beginRequest peer payload) :=
  .guard <| .bind (arrayAt_fails _ _ _) fun _ => .bind (arrayAt_fails _ _ _) fun _ =>
    .bind (arrayAt_fails _ _ _) fun _ => .guard (.ok _)

theorem readRequest_fails : FailsOnly .invalid (readRequest peer payload) :=
  .guard <| .bind (TransferCredentials.decode_fails _) fun _ => .bind (arrayAt_fails _ _ _) fun _ =>
    .bind (arrayAt_fails _ _ _) fun _ => .ok _

theorem controlRequest_fails (opcode : Opcode) :
    FailsOnly .invalid (controlRequest peer opcode payload) :=
  .guard <| .bind (TransferCredentials.decode_fails _) fun _ => .bind (arrayAt_fails _ _ _) fun _ =>
    .ok _

theorem statusRequest_fails : FailsOnly .invalid (statusRequest peer payload) :=
  .guard <| .bind (TransferCredentials.decode_fails _) fun _ => .ok _

end Malformed

def Refused (server : ServerState) (request : Request) (status : ResponseStatus) : Prop :=
  ∃ now trusted ls w k, Run (Step server) (World.start now trusted) ls w ∧
    At k request (.done (.error status)) w

inductive Responded (server : ServerState) (opcode : Opcode) (payload : List UInt8) :
    List UInt8 → Prop
  | manifest (checkedAt readAt : Nat) (hopcode : opcode = .getOffer) :
      Responded server opcode payload
        (orStatus (encodeManifestResponse server.offered checkedAt readAt payload))
  | malformed {peer : CertificateFingerprint} (hopcode : opcode ≠ .getOffer)
      (hmalformed : ∀ checkedAt readAt request,
        dispatchRequest server checkedAt readAt peer opcode payload ≠ .call request) :
      Responded server opcode payload [ResponseStatus.invalid.encode]
  | refused {peer : CertificateFingerprint} {request : Request} {status : ResponseStatus}
      (hrequest : ∀ checkedAt readAt, dispatchRequest server checkedAt readAt peer opcode payload =
        .call request) (hrefused : Refused server request status) :
      Responded server opcode payload [status.encode]
  | answer {peer : CertificateFingerprint} {request : Request} {answer : Answer}
      (hrequest : ∀ checkedAt readAt, dispatchRequest server checkedAt readAt peer opcode payload =
        .call request) (hsuits : request.Suits answer) (hanswered : Answered server request answer) :
      Responded server opcode payload (respond (.ok answer))

theorem dispatchRequest_call {server : ServerState} {checkedAt readAt : Nat}
    {peer : CertificateFingerprint} {opcode : Opcode} {payload : List UInt8} {request : Request}
    (h : dispatchRequest server checkedAt readAt peer opcode payload = .call request)
    (checkedAt' readAt' : Nat) :
    dispatchRequest server checkedAt' readAt' peer opcode payload = .call request := by
  cases opcode with
  | getOffer | hello => cases h
  | beginTransfer | readRange | pause | resume | cancel | status | complete => exact h

theorem dispatchRequest_reply {server : ServerState} {checkedAt readAt : Nat}
    {peer : CertificateFingerprint} {opcode : Opcode} {payload response : List UInt8}
    (h : dispatchRequest server checkedAt readAt peer opcode payload = .reply response) :
    Responded server opcode payload response := by
  have hmalformed : ∀ {result : WireResult Request}, opcode ≠ .getOffer →
      FailsOnly .invalid result → Dispatch.ofRequest result = .reply response →
      Responded server opcode payload response := by
    intro result hopcode hfails hresult
    cases result with
    | ok request => cases hresult
    | error status =>
      obtain rfl := hfails status rfl
      cases hresult
      refine @Responded.malformed _ _ _ peer hopcode ?_
      intro checkedAt' readAt' request hcall
      cases (dispatchRequest_call hcall checkedAt readAt).symm.trans h
  cases opcode with
  | getOffer =>
    cases h
    exact .manifest checkedAt readAt rfl
  | hello =>
    cases h
    exact @Responded.malformed _ _ _ peer nofun nofun
  | beginTransfer => exact hmalformed nofun (beginRequest_fails peer payload) h
  | readRange => exact hmalformed nofun (readRequest_fails peer payload) h
  | pause | resume | cancel | complete =>
    exact hmalformed nofun (controlRequest_fails peer payload _) h
  | status => exact hmalformed nofun (statusRequest_fails peer payload) h

theorem responded_of_run {server : ServerState} {now : Nat}
    {trusted : CertificateFingerprint → Bool} {ls : List Label} {w : World}
    (h : Run (Step server) (World.start now trusted) ls w) {k checkedAt readAt : Nat}
    {peer : CertificateFingerprint} {opcode : Opcode} {payload : List UInt8} {request : Request}
    {result : WireResult Answer}
    (hrequest : dispatchRequest server checkedAt readAt peer opcode payload = .call request)
    (hdone : At k request (.done result) w) :
    Responded server opcode payload (respond result) := by
  cases result with
  | error status =>
    exact .refused (dispatchRequest_call hrequest) ⟨now, trusted, ls, w, k, h, hdone⟩
  | ok answer =>
    refine .answer (dispatchRequest_call hrequest) (suits_of_run h hdone) ?_
    cases hcredentials : request.credentials with
    | some credentials => exact (traced_of_run h hdone hcredentials).2
    | none =>
      have hsuits := suits_of_run h hdone
      cases answer with
      | range status bytes =>
        cases request with
        | readRange => cases hcredentials
        | connect | beginTransfer | control | status => cases hsuits
      | connected | began | status => trivial

end ClipFerry.Server
