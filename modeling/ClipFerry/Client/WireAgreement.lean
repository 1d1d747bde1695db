import ClipFerry.Client.Replies
import ClipFerry.Server.CoverageLaw
import ClipFerry.Server.Retries

namespace ClipFerry.Client

open ByteField Checked Protocol Server Transition

variable {server : ServerState} {w w' : World} {ls : List Label} {now k : Nat}
  {trusted : CertificateFingerprint → Bool} {source : RemoteSource TransferCredentials}
  {rpc : Rpc TransferCredentials} {nonce : Secret} {peer : CertificateFingerprint}
  {offerId fileId : ProtocolId} {credentials : TransferCredentials} {status : TransferStatus}
  {opcode : Opcode} {payload : List UInt8} {answer : Answer}

def requestLength : Opcode → Option Nat
  | .beginTransfer => some 64
  | .readRange => some 124
  | .pause | .resume | .cancel | .complete => some 120
  | .status => some 112
  | .hello | .getOffer => none

def responseLength : Answer → Nat
  | .began _ => 121
  | .status _ => 10
  | .range _ bytes => 14 + bytes.length
  | .connected => 0

namespace Rpc

def Within (nonce : Secret) : Rpc TransferCredentials → Prop
  | .beginTransfer _ => nonce ≠ repeatedSecret 0
  | .readRange _ _ requested => requested ≤ maxSecureRangeBytes
  | .control _ sequence opcode => sequence < 2 ^ 64 ∧ opcode.isControl = true
  | .status _ => True

def request (peer : CertificateFingerprint) (nonce : Secret)
    (source : RemoteSource TransferCredentials) : Rpc TransferCredentials → Request
  | .beginTransfer _ => .beginTransfer peer source.offerId source.fileId nonce
  | .readRange credentials offset requested =>
    .readRange peer { credentials with expiresAtMillis := 0 } offset.toNat requested
  | .control credentials sequence opcode =>
    .control peer { credentials with expiresAtMillis := 0 } sequence opcode
  | .status credentials => .status peer { credentials with expiresAtMillis := 0 }

def Fits (source : RemoteSource TransferCredentials) :
    Rpc TransferCredentials → Answer → Prop
  | .beginTransfer _, .began credentials =>
    credentials.offerId = source.offerId ∧ credentials.fileId = source.fileId
  | .readRange _ _ requested, .range status bytes =>
    status.uniqueBytes < 2 ^ 64 ∧ bytes.length ≤ requested
  | .control _ _ _, .status status | .status _, .status status => status.uniqueBytes < 2 ^ 64
  | _, _ => False

end Rpc

def reported : Answer → Reply TransferCredentials
  | .began credentials => .began credentials
  | .status status => .status status
  | .range status bytes => .range status bytes
  | .connected => .failed (invalidData "empty secure response")

theorem all_zero_iff : nonce.val.all (· = 0) = true ↔ nonce = repeatedSecret 0 := by
  rw [List.all_eq_true]
  constructor
  · intro h
    apply Subtype.ext
    exact List.eq_replicate_iff.mpr ⟨nonce.property, fun b hb => of_decide_eq_true (h b hb)⟩
  · rintro rfl b hb
    exact decide_eq_true (List.eq_of_mem_replicate hb)

theorem beginRequest_payload (peer : CertificateFingerprint) (offerId fileId : ProtocolId)
    (nonce : Secret) : beginRequest peer (beginPayload offerId fileId nonce) =
      if nonce = repeatedSecret 0 then .error .invalid
      else .ok (.beginTransfer peer offerId fileId nonce) := by
  have hstart := Remaining.start (beginPayload offerId fileId nonce)
  have hfile := hstart.skip offerId.bytes.property
  have hnonce := hfile.skip fileId.bytes.property
  rw [Nat.zero_add] at hfile hnonce
  have hlength : ¬(beginPayload offerId fileId nonce).length ≠ 64 := by simp [beginPayload]
  rw [beginRequest, if_neg hlength, arrayAt_remaining hstart, ok_bind, arrayAt_remaining hfile,
    ok_bind, arrayAt_last hnonce, ok_bind]
  simp only [all_zero_iff]

theorem controlRequest_payload (peer : CertificateFingerprint) (credentials : TransferCredentials)
    {sequence : Nat} (hsequence : sequence < 2 ^ 64) (opcode : Opcode) :
    controlRequest peer opcode (controlPayload credentials sequence) =
      .ok (.control peer { credentials with expiresAtMillis := 0 } sequence opcode) := by
  have hlength : ¬(controlPayload credentials sequence).length ≠
      TransferCredentials.wireLen + 8 := by simp [controlPayload, credentials.length_encode]
  have hdecode := credentials.decode_encode (beBytes64 (.ofNat sequence)).val
  have hlast := (Remaining.start (controlPayload credentials sequence)).skip
    credentials.length_encode
  rw [Nat.zero_add] at hlast
  rw [controlRequest, if_neg hlength, controlPayload, hdecode, ok_bind, ← controlPayload,
    arrayAt_last hlast, ok_bind, fromBe64_beBytes64, UInt64.toNat_ofNat_of_lt' hsequence]

theorem statusRequest_encode (peer : CertificateFingerprint) (credentials : TransferCredentials) :
    statusRequest peer credentials.encode =
      .ok (.status peer { credentials with expiresAtMillis := 0 }) := by
  have hlength : ¬credentials.encode.length ≠ TransferCredentials.wireLen :=
    not_not.mpr credentials.length_encode
  have hdecode := credentials.decode_encode []
  rw [List.append_nil] at hdecode
  rw [statusRequest, if_neg hlength, hdecode, ok_bind]

structure Agrees (server : ServerState) (peer : CertificateFingerprint) (opcode : Opcode)
    (payload : List UInt8) (request : Request) : Prop where
  length : requestLength opcode = some payload.length
  fits : payload.length ≤ maxFramePayload
  decoded : ∀ checkedAt readAt,
    dispatchRequest server checkedAt readAt peer opcode payload = .call request

theorem request_agrees (server : ServerState) (peer : CertificateFingerprint)
    (source : RemoteSource TransferCredentials) (h : rpc.Within nonce) :
    ∃ opcode payload, rpc.encode nonce source = .ok (opcode, payload) ∧
      Agrees server peer opcode payload (rpc.request peer nonce source) := by
  cases rpc with
  | beginTransfer s =>
    have hlength : (beginPayload source.offerId source.fileId nonce).length = 64 := by
      simp [beginPayload]
    refine ⟨.beginTransfer, _, rfl, by rw [hlength]; rfl, by rw [hlength]; decide, fun _ _ => ?_⟩
    rw [dispatchRequest, beginRequest_payload, if_neg h]
    rfl
  | readRange credentials offset requested =>
    have hlimit : requested ≤ maxSecureRangeBytes := h
    have hsmall : maxSecureRangeBytes < 2 ^ 32 := by decide
    have hpayload : readPayload credentials offset requested = .ok (credentials.encode
        ++ ((beBytes64 offset).val ++ (beBytes32 (.ofNat requested)).val)) := by
      rw [readPayload, if_neg (Nat.not_lt.mpr hlimit), if_neg (by omega)]
    have hencode : Rpc.encode nonce source (.readRange credentials offset requested) =
        .ok (.readRange, credentials.encode
          ++ ((beBytes64 offset).val ++ (beBytes32 (.ofNat requested)).val)) := by
      rw [Rpc.encode, hpayload]
      rfl
    have hlength : (credentials.encode
        ++ ((beBytes64 offset).val ++ (beBytes32 (.ofNat requested)).val)).length = 124 := by
      simp [credentials.length_encode, TransferCredentials.wireLen]
    exact ⟨.readRange, _, hencode, by rw [hlength]; rfl, by rw [hlength]; decide,
      fun checkedAt readAt => (encode_readRange hencode peer checkedAt readAt).2⟩
  | control credentials sequence opcode =>
    obtain ⟨hsequence, hcontrol⟩ := h
    have hlength : (controlPayload credentials sequence).length = 120 := by
      simp [controlPayload, credentials.length_encode, TransferCredentials.wireLen]
    have hrequest := controlRequest_payload peer credentials hsequence opcode
    refine ⟨opcode, _, rfl, ?_, by rw [hlength]; decide, fun _ _ => ?_⟩
    · rw [hlength]
      cases opcode with
      | pause | resume | cancel | complete => rfl
      | hello | getOffer | beginTransfer | readRange | status => cases hcontrol
    · cases opcode with
      | pause | resume | cancel | complete =>
        rw [dispatchRequest, hrequest]
        rfl
      | hello | getOffer | beginTransfer | readRange | status => cases hcontrol
  | status credentials =>
    have hlength : credentials.encode.length = 112 := credentials.length_encode
    refine ⟨.status, _, rfl, by rw [hlength]; rfl, by rw [hlength]; decide, fun _ _ => ?_⟩
    rw [dispatchRequest, statusRequest_encode]
    rfl

theorem other_length_refused {length : Nat} (hopcode : requestLength opcode = some length)
    (hpayload : payload.length ≠ length) (server : ServerState) (checkedAt readAt : Nat)
    (peer : CertificateFingerprint) : dispatchRequest server checkedAt readAt peer opcode payload =
      .reply [ResponseStatus.invalid.encode] := by
  cases opcode with
  | hello | getOffer => cases hopcode
  | beginTransfer =>
    cases hopcode
    rw [dispatchRequest, beginRequest, if_pos hpayload]
    rfl
  | readRange =>
    cases hopcode
    have hlength : payload.length ≠ TransferCredentials.wireLen + 12 := hpayload
    rw [dispatchRequest, readRequest, if_pos hlength]
    rfl
  | pause | resume | cancel | complete =>
    cases hopcode
    have hlength : payload.length ≠ TransferCredentials.wireLen + 8 := hpayload
    rw [dispatchRequest, controlRequest, if_pos hlength]
    rfl
  | status =>
    cases hopcode
    have hlength : payload.length ≠ TransferCredentials.wireLen := hpayload
    rw [dispatchRequest, statusRequest, if_pos hlength]
    rfl

theorem other_length_harmless {length : Nat} (hopcode : requestLength opcode = some length)
    (hpayload : payload.length ≠ length) {link link' : Link} {frame : Frame} {j : Nat}
    (hchecking : link.handler = .checking frame j)
    (hframe : Opcode.tryFrom frame.opcode = .ok opcode) (hsame : frame.payload = payload)
    (h : LinkStep server w link w' link') : w' = w := by
  cases h with
  | accept hwaiting => cases hwaiting.symm.trans hchecking
  | dispatch hother hallowed hfound hcall =>
    cases hother.symm.trans hchecking
    cases hfound.symm.trans hframe
    rw [hsame, other_length_refused hopcode hpayload] at hcall
    cases hcall
  | reply | respond | close => rfl

theorem u64_toNat {n : Nat} (h : n < 2 ^ 64) : (UInt64.ofNat n).toNat = n :=
  UInt64.toNat_ofNat_of_lt' h

theorem statusResponse_agrees {status : TransferStatus} (hcount : status.uniqueBytes < 2 ^ 64) :
    decodeTransferStatus (respond (.ok (.status status))) = .ok status ∧
      (respond (.ok (.status status))).length = 10 := by
  have hdecode := decodeTransferStatus_encode status []
  rw [List.append_nil, u64_toNat hcount] at hdecode
  exact ⟨hdecode, length_encodeTransferStatus status⟩

theorem response_agrees (hwithin : rpc.Within nonce) (h : rpc.Fits source answer) :
    rpc.decode source (respond (.ok answer)) = .ok (reported answer) ∧
      (respond (.ok answer)).length = responseLength answer ∧
      (respond (.ok answer)).length ≤ maxFramePayload := by
  cases rpc with
  | beginTransfer s =>
    cases answer with
    | began credentials =>
      have hdecode := decodeBegin_beginResponse credentials
      have hlength : (beginResponse credentials).length = 121 := by simp [beginResponse]
      obtain ⟨hoffer, hfile⟩ := h
      rw [hoffer, hfile] at hdecode
      refine ⟨?_, hlength, by rw [respond, hlength]; decide⟩
      rw [Rpc.decode, respond, hdecode]
      rfl
    | connected | status | range => cases h
  | readRange credentials offset requested =>
    cases answer with
    | range status bytes =>
      obtain ⟨hcount, hrequested⟩ := h
      have hlimit : bytes.length ≤ maxSecureRangeBytes := Nat.le_trans hrequested hwithin
      have hfits := range_small hlimit
      have hdecode := (decodeRange_readResponse status hfits).trans
        (if_neg (Nat.not_lt.mpr hrequested))
      rw [u64_toNat hcount] at hdecode
      refine ⟨?_, length_respond_range status hfits, respond_range_fits status hlimit⟩
      rw [Rpc.decode, respond_range status hfits, hdecode]
      rfl
    | connected | began | status => cases h
  | control credentials sequence opcode =>
    cases answer with
    | status status =>
      have hcount : status.uniqueBytes < 2 ^ 64 := h
      obtain ⟨hdecode, hlength⟩ := statusResponse_agrees hcount
      refine ⟨?_, hlength, by rw [hlength]; decide⟩
      rw [Rpc.decode, hdecode]
      rfl
    | connected | began | range => cases h
  | status credentials =>
    cases answer with
    | status status =>
      have hcount : status.uniqueBytes < 2 ^ 64 := h
      obtain ⟨hdecode, hlength⟩ := statusResponse_agrees hcount
      refine ⟨?_, hlength, by rw [hlength]; decide⟩
      rw [Rpc.decode, hdecode]
      rfl
    | connected | began | range => cases h

theorem requireOk_refusal {refusal : ResponseStatus} (h : refusal ≠ .ok) :
    requireOk (respond (.error refusal)) = .error (statusError refusal) := by
  cases refusal with
  | ok => exact absurd rfl h
  | invalid | denied | expired | replay | busy | cancelled | timeout | sourceChanged | internal =>
    rfl

theorem refusal_agrees (rpc : Rpc TransferCredentials) (source : RemoteSource TransferCredentials)
    {refusal : ResponseStatus} (h : refusal ≠ .ok) :
    rpc.decode source (respond (.error refusal)) = .error (statusError refusal) ∧
      (respond (.error refusal)).length ≤ maxFramePayload := by
  have hrequire := requireOk_refusal h
  have hlength : (respond (.error refusal)).length ≤ maxFramePayload := by
    rw [respond, List.length_singleton]
    decide
  refine ⟨?_, hlength⟩
  cases rpc with
  | beginTransfer s =>
    rw [Rpc.decode, decodeBegin, hrequire]
    rfl
  | readRange credentials offset requested =>
    rw [Rpc.decode, decodeRange, decodeTransferStatus, hrequire]
    rfl
  | control credentials sequence opcode =>
    rw [Rpc.decode, decodeTransferStatus, hrequire]
    rfl
  | status credentials =>
    rw [Rpc.decode, decodeTransferStatus, hrequire]
    rfl

def Counted (coverage : RangeCoverage) : Prop :=
  coverage.WellFormed ∧ coverage.uniqueBytes < 2 ^ 64

def Answer.count : Answer → Nat
  | .status status | .range status _ => status.uniqueBytes
  | .connected | .began _ => 0

theorem counted_of_run (h : Run (Step server) (World.start now trusted) ls w) (i : Nat) :
    Counted (w.shared.coverageOf i) := by
  refine h.invariant (I := fun w => Counted (w.shared.coverageOf i)) ?_
    ⟨RangeCoverage.empty_wellFormed, Nat.two_pow_pos 64⟩
  intro w l w' hw hstep
  rcases coverageOf_cases hstep i with hsame | ⟨_, offset, _, _, read, hexecution⟩
  · rwa [hsame]
  · rw [hexecution.coverageOf]
    exact ⟨hw.1.note offset read, RangeCoverage.uniqueBytes_note_lt hw.1 hw.2 offset read⟩

theorem Turn.count_lt {view : View} {free : Prop} {request : Request} {pc : Pc} {us : List Update}
    (hcounted : ∀ i, Counted (view.shared.coverageOf i))
    (h : Turn server view free request pc us (.done (.ok answer))) :
    Answer.count answer < 2 ^ 64 := by
  have hsession : ∀ {i : Nat} {session : TransferSession},
      view.shared.sessions[i]? = some session → Counted session.inner.coverage := by
    intro i session hfound
    have hcount := hcounted i
    rwa [Shared.coverageOf, hfound] at hcount
  generalize hnext : Pc.done (.ok answer) = next at h
  cases h with
  | authorize h =>
    rcases ensurePeerAllowed_cases h with ⟨-, -, rfl⟩ | ⟨-, -, rfl⟩
    · cases hnext
    · cases request <;> cases hnext
      exact Nat.two_pow_pos 64
  | revoke | cancelNext | revoked | count => cases hnext
  | sample h =>
    rcases beginSample_cases h with ⟨-, rfl⟩ | ⟨-, rfl⟩ | ⟨-, rfl, -⟩ <;> cases hnext
  | admission hfree h =>
    rcases beginAdmit_cases h with ⟨_, -, ⟨_, -, -, rfl⟩ | ⟨-, -, rfl⟩⟩ | ⟨-, -, rfl⟩ <;>
      cases hnext
    exact Nat.two_pow_pos 64
  | create drawn h =>
    rcases beginCreate_cases h with ⟨-, _, rfl⟩ | ⟨_, _, _, _, -, -, -, -, -, -, rfl⟩ <;>
      cases hnext
    exact Nat.two_pow_pos 64
  | lookup hfree hcredentials h =>
    rcases authenticatedSession_cases h with ⟨-, _, rfl, -⟩ | ⟨i, session, -, -, -, -, h⟩
    · cases hnext
    · rcases authenticated_cases h with ⟨-, rfl, -⟩ | ⟨-, rfl⟩ <;> cases hnext
  | control hfound h =>
    rcases control_cases h with ⟨-, -, -, rfl⟩ | ⟨-, -, -, rfl⟩ | ⟨-, -, rfl | ⟨-, rfl⟩⟩ <;>
      cases hnext
    · exact (hsession hfound).2
    · exact (hsession hfound).2
  | status hfound =>
    cases hnext
    exact (hsession hfound).2
  | gate hfound h =>
    rcases readRangeGate_cases h with ⟨-, -, rfl⟩ | ⟨-, _, rfl⟩ | ⟨-, rfl, -⟩ | ⟨-, rfl, -⟩ <;>
      cases hnext
  | wake timedOut hfound h =>
    rcases readRangeWake_cases h with ⟨-, -, rfl⟩ | h
    · cases hnext
      exact (hsession hfound).2
    · rcases readRangeGate_cases h with ⟨-, -, rfl⟩ | ⟨-, _, rfl⟩ | ⟨-, rfl, -⟩ | ⟨-, rfl, -⟩ <;>
        cases hnext
  | recheck h =>
    rcases ensurePeerAllowed_cases h with ⟨-, -, rfl⟩ | ⟨-, -, rfl⟩ <;> cases hnext
  | fetch attempt hfound h =>
    obtain ⟨-, ⟨_, rfl⟩ | ⟨_, _, _, _, -, -, -, rfl⟩⟩ := readRangeFetch_cases h <;> cases hnext
  | @finish _ _ offset requested i read bytes _ _ _ hfound h =>
    rcases readRangeFinish_cases h with ⟨-, -, rfl⟩ | ⟨-, _, rfl⟩ | ⟨-, -, -, -, rfl⟩ <;>
      cases hnext
    obtain ⟨hwf, hlt⟩ := hsession hfound
    exact RangeCoverage.uniqueBytes_note_lt hwf hlt offset read

theorem count_lt_of_run (h : Run (Step server) (World.start now trusted) ls w) {request : Request}
    (hdone : At k request (.done (.ok answer)) w) : Answer.count answer < 2 ^ 64 := by
  revert hdone
  refine h.traced (I := fun _ w => At k request (.done (.ok answer)) w →
    Answer.count answer < 2 ^ 64) (fun hdone => by cases hdone) ?_
  intro l s a t hrun ih hstep hdone
  rcases answered_cases hstep hdone with hsame | ⟨pc, us, hturn⟩
  · exact ih hsame
  · exact Turn.count_lt (counted_of_run hrun) hturn

theorem began_names (h : Run (Step server) (World.start now trusted) ls w)
    (hids : w.shared.transferIds.Nodup)
    (hdone : At k (.beginTransfer peer offerId fileId nonce) (.done (.ok (.began credentials))) w) :
    credentials.offerId = offerId ∧ credentials.fileId = fileId := by
  revert hids hdone
  refine h.traced (I := fun _ w => w.shared.transferIds.Nodup →
    At k (.beginTransfer peer offerId fileId nonce) (.done (.ok (.began credentials))) w →
      credentials.offerId = offerId ∧ credentials.fileId = fileId)
    (fun _ hdone => by cases hdone) ?_
  intro l s a t hrun ih hstep hids hdone
  have hids := hstep.transferIds_nodup hids
  rcases answered_cases hstep hdone with hsame | ⟨pc, us, hturn⟩
  · exact ih hids hsame
  · obtain ⟨htable, -⟩ := nonceTable_of_run hrun hids
    generalize hnext : Pc.done (.ok (.began credentials)) = next at hturn
    cases hturn with
    | authorize h =>
      rcases ensurePeerAllowed_cases h with ⟨-, -, rfl⟩ | ⟨-, -, rfl⟩ <;> cases hnext
    | revoke | cancelNext | revoked | count => cases hnext
    | sample h =>
      rcases beginSample_cases h with ⟨-, rfl⟩ | ⟨-, rfl⟩ | ⟨-, rfl, -⟩ <;> cases hnext
    | @admission _ _ _ _ begun _ _ hfree h =>
      rcases beginAdmit_cases h with ⟨record, hrecord, -⟩ | ⟨-, -, rfl⟩
      · obtain ⟨created, hpaired, rfl⟩ := (htable.prune begun).recorded nonce record hrecord
        rcases beginAdmit_recorded hpaired h with ⟨-, hoffer, hfile, -, rfl⟩ | ⟨-, -, rfl⟩
        · cases hnext
          exact ⟨hoffer, hfile⟩
        · cases hnext
      · cases hnext
    | create drawn h =>
      rcases beginCreate_cases h with ⟨-, _, rfl⟩ | ⟨_, _, _, _, -, -, -, -, -, -, rfl⟩ <;>
        cases hnext
      exact ⟨rfl, rfl⟩
    | lookup hfree hcredentials => cases hcredentials

theorem answer_fits (h : Run (Step server) (World.start now trusted) ls w)
    (hids : ∀ s, rpc = .beginTransfer s → w.shared.transferIds.Nodup)
    (hdone : At k (rpc.request peer nonce source) (.done (.ok answer)) w) :
    rpc.Fits source answer := by
  have hsuits := suits_of_run h hdone
  have hcount := count_lt_of_run h hdone
  cases rpc with
  | beginTransfer s =>
    cases answer with
    | began credentials => exact began_names h (hids s rfl) hdone
    | connected | status | range => cases hsuits
  | readRange credentials offset requested =>
    cases answer with
    | range status bytes =>
      refine ⟨hcount, ?_⟩
      obtain ⟨-, hanswered⟩ := traced_of_run h hdone rfl
      rcases hanswered with ⟨-, rfl⟩ | ⟨n, _, _, _, _, file, entry, heq, hsource⟩
      · exact Nat.zero_le _
      · cases heq
        obtain ⟨attempt, buffer, -, rfl⟩ := hsource.outcome
        rw [List.length_take, buffer.property]
        omega
    | connected | began | status => cases hsuits
  | control credentials sequence opcode =>
    cases answer with
    | status status => exact hcount
    | connected | began | range => cases hsuits
  | status credentials =>
    cases answer with
    | status status => exact hcount
    | connected | began | range => cases hsuits

theorem wire_payloads_agree (h : Run (Step server) (World.start now trusted) ls w)
    (source : RemoteSource TransferCredentials) (peer : CertificateFingerprint) :
    (∀ (rpc : Rpc TransferCredentials) nonce, rpc.Within nonce →
      (∃ opcode payload, rpc.encode nonce source = .ok (opcode, payload) ∧
        Agrees server peer opcode payload (rpc.request peer nonce source)) ∧
      (∀ answer, rpc.Fits source answer →
        rpc.decode source (respond (.ok answer)) = .ok (reported answer) ∧
        (respond (.ok answer)).length = responseLength answer ∧
        (respond (.ok answer)).length ≤ maxFramePayload) ∧
      ∀ k answer, (∀ s, rpc = .beginTransfer s → w.shared.transferIds.Nodup) →
        At k (rpc.request peer nonce source) (.done (.ok answer)) w → rpc.Fits source answer) ∧
    (∀ (rpc : Rpc TransferCredentials) refusal, refusal ≠ .ok →
      rpc.decode source (respond (.error refusal)) = .error (statusError refusal) ∧
      (respond (.error refusal)).length ≤ maxFramePayload) ∧
    ∀ opcode length payload, requestLength opcode = some length → payload.length ≠ length →
      (∀ checkedAt readAt, dispatchRequest server checkedAt readAt peer opcode payload =
        .reply [ResponseStatus.invalid.encode]) ∧
      ∀ link link' frame j w', link.handler = .checking frame j →
        Opcode.tryFrom frame.opcode = .ok opcode → frame.payload = payload →
        LinkStep server w link w' link' → w' = w := by
  refine ⟨fun rpc nonce hwithin => ⟨request_agrees server peer source hwithin,
    fun answer hfits => response_agrees hwithin hfits,
    fun k answer hids hdone => answer_fits h hids hdone⟩,
    fun rpc refusal hrefusal => refusal_agrees rpc source hrefusal,
    fun opcode length payload hopcode hlength => ⟨fun checkedAt readAt =>
      other_length_refused hopcode hlength server checkedAt readAt peer,
      fun link link' frame j w' hchecking hframe hsame hstep =>
        other_length_harmless hopcode hlength hchecking hframe hsame hstep⟩⟩

def askingSource : RemoteSource TransferCredentials :=
  .new 0 soloServer.offered.storedManifest ⟨repeatedId 1, .basic ['a'] 5⟩

theorem wire_payloads_agree_solo :
    (∃ opcode payload,
      Rpc.encode (repeatedSecret 5) askingSource (.beginTransfer 0) = .ok (opcode, payload) ∧
      Agrees soloServer soloPeer opcode payload soloBegin) ∧
    Rpc.decode askingSource (respond (.ok (.began (soloSession.credentials 0)))) (.beginTransfer 0) =
      .ok (.began (soloSession.credentials 0)) ∧
    dispatchRequest soloServer 0 0 soloPeer .status [] = .reply [ResponseStatus.invalid.encode] := by
  obtain ⟨hcalls, -, hrefused⟩ := wire_payloads_agree soloBegin_run askingSource soloPeer
  obtain ⟨hrequest, hresponse, hanswer⟩ :=
    hcalls (.beginTransfer 0) (repeatedSecret 5) (fun h => absurd h (by decide))
  have hfits := hanswer 0 (.began (soloSession.credentials 0)) (fun _ _ => by decide) rfl
  exact ⟨hrequest, (hresponse _ hfits).1, (hrefused .status 112 [] rfl (by decide)).1 0 0⟩

theorem zero_nonce_refused : ¬∀ offerId fileId nonce,
    beginRequest soloPeer (beginPayload offerId fileId nonce) =
      .ok (.beginTransfer soloPeer offerId fileId nonce) := by
  intro h
  have hzero := h (repeatedId 0) (repeatedId 1) (repeatedSecret 0)
  rw [beginRequest_payload, if_pos rfl] at hzero
  cases hzero

end ClipFerry.Client
