import ClipFerry.Loopback.TransferControl
import ClipFerry.Protocol.Frame

namespace ClipFerry.Loopback

open ByteField Protocol

abbrev FileId := List.Vector UInt8 16

inductive Opcode where
  | readRange
  | pause
  | resume
  | cancel
  | status
deriving DecidableEq, Repr

def Opcode.byte : Opcode → UInt8
  | readRange => 1
  | pause => 2
  | resume => 3
  | cancel => 4
  | status => 5

def Opcode.fromByte (value : UInt8) : Option Opcode :=
  if value = 1 then some .readRange
  else if value = 2 then some .pause
  else if value = 3 then some .resume
  else if value = 4 then some .cancel
  else if value = 5 then some .status
  else none

inductive ResponseStatus where
  | ok
  | invalidRequest
  | fileNotFound
  | cancelled
  | internalError
deriving DecidableEq, Repr

def ResponseStatus.byte : ResponseStatus → UInt8
  | ok => 0
  | invalidRequest => 1
  | fileNotFound => 2
  | cancelled => 3
  | internalError => 4

def ResponseStatus.fromByte (value : UInt8) : Option ResponseStatus :=
  if value = 0 then some .ok
  else if value = 1 then some .invalidRequest
  else if value = 2 then some .fileNotFound
  else if value = 3 then some .cancelled
  else if value = 4 then some .internalError
  else none

def stateByte : TransferControlState → UInt8
  | .running => 0
  | .paused => 1
  | .cancelled => 2

def stateFromByte (value : UInt8) : Option TransferControlState :=
  if value = 0 then some .running
  else if value = 1 then some .paused
  else if value = 2 then some .cancelled
  else none

def requestMagic : List UInt8 := [0x43, 0x46, 0x52, 0x51]

def responseMagic : List UInt8 := [0x43, 0x46, 0x52, 0x53]

def protocolVersion : UInt8 := 1

def requestHeaderLen : Nat := 44

def responseHeaderLen : Nat := 28

structure RequestHeader where
  opcode : Opcode
  requestId : UInt64
  fileId : FileId
  offset : UInt64
  length : UInt32
deriving DecidableEq

structure ResponseHeader where
  status : ResponseStatus
  state : TransferControlState
  requestId : UInt64
  totalLength : UInt64
  payloadLength : UInt32
deriving DecidableEq

variable {request : RequestHeader} {response : ResponseHeader}

namespace RequestHeader

def framed (request : RequestHeader) (reserved : List.Vector UInt8 2) : List UInt8 :=
  requestMagic ++ protocolVersion :: request.opcode.byte :: (reserved.val ++
    ((beBytes64 request.requestId).val ++ (request.fileId.val ++
      ((beBytes64 request.offset).val ++ (beBytes32 request.length).val))))

def unused : List.Vector UInt8 2 := ⟨[0, 0], rfl⟩

def encode (request : RequestHeader) : List UInt8 := request.framed unused

def decode (bytes : List UInt8) : Option RequestHeader :=
  if bytes.take 4 ≠ requestMagic ∨ bytes.getD 4 0 ≠ protocolVersion then none
  else do
    let opcode ← Opcode.fromByte (bytes.getD 5 0)
    let requestId ← fieldAt 8 bytes 8
    let fileId ← fieldAt 16 bytes 16
    let offset ← fieldAt 8 bytes 32
    let length ← fieldAt 4 bytes 40
    some ⟨opcode, fromBe64 requestId, fileId, fromBe64 offset, fromBe32 length⟩

end RequestHeader

namespace ResponseHeader

def framed (response : ResponseHeader) (reserved : UInt8) : List UInt8 :=
  responseMagic ++ protocolVersion :: response.status.byte :: stateByte response.state ::
    reserved :: ((beBytes64 response.requestId).val ++ ((beBytes64 response.totalLength).val ++
      (beBytes32 response.payloadLength).val))

def encode (response : ResponseHeader) : List UInt8 := response.framed 0

def decode (bytes : List UInt8) : Option ResponseHeader :=
  if bytes.take 4 ≠ responseMagic ∨ bytes.getD 4 0 ≠ protocolVersion then none
  else do
    let status ← ResponseStatus.fromByte (bytes.getD 5 0)
    let state ← stateFromByte (bytes.getD 6 0)
    let requestId ← fieldAt 8 bytes 8
    let totalLength ← fieldAt 8 bytes 16
    let payloadLength ← fieldAt 4 bytes 24
    some ⟨status, state, fromBe64 requestId, fromBe64 totalLength, fromBe32 payloadLength⟩

end ResponseHeader

theorem Opcode.fromByte_eq_some {value : UInt8} {opcode : Opcode} :
    Opcode.fromByte value = some opcode ↔ value = opcode.byte := by
  constructor
  · intro h
    simp only [fromByte] at h
    split_ifs at h <;> cases h <;> assumption
  · rintro rfl
    cases opcode <;> rfl

theorem ResponseStatus.fromByte_eq_some {value : UInt8} {status : ResponseStatus} :
    ResponseStatus.fromByte value = some status ↔ value = status.byte := by
  constructor
  · intro h
    simp only [fromByte] at h
    split_ifs at h <;> cases h <;> assumption
  · rintro rfl
    cases status <;> rfl

theorem stateFromByte_eq_some {value : UInt8} {state : TransferControlState} :
    stateFromByte value = some state ↔ value = stateByte state := by
  constructor
  · intro h
    simp only [stateFromByte] at h
    split_ifs at h <;> cases h <;> assumption
  · rintro rfl
    cases state <;> rfl

namespace RequestHeader

@[simp] theorem length_framed (request : RequestHeader) (reserved : List.Vector UInt8 2) :
    (request.framed reserved).length = requestHeaderLen := by
  simp only [framed, List.length_append, List.length_cons, List.Vector.length_val]
  rfl

theorem decode_framed (request : RequestHeader) (reserved : List.Vector UInt8 2) :
    decode (request.framed reserved) = some request := by
  generalize hbytes : request.framed reserved = bytes
  have hversion : Remaining bytes 4 _ := ⟨requestMagic, hbytes.symm, rfl⟩
  have hopcode := hversion.next
  have hid := hopcode.next.skip reserved.property
  have hfile := hid.skip (beBytes64 request.requestId).property
  have hoffset := hfile.skip request.fileId.property
  have hlength := hoffset.skip (beBytes64 request.offset).property
  have hwhole : Remaining bytes 40 ((beBytes32 request.length).val ++ []) := by
    rw [List.append_nil]
    exact hlength
  have hmagic : bytes.take 4 = requestMagic := by rw [← hbytes]; rfl
  rw [decode, if_neg (by rw [hmagic, hversion.getD]; simp), hopcode.getD,
    Opcode.fromByte_eq_some.mpr rfl, hid.fieldAt, hfile.fieldAt, hoffset.fieldAt, hwhole.fieldAt]
  simp

theorem framed_of_decode {bytes : List UInt8} (hlength : bytes.length = requestHeaderLen)
    (h : decode bytes = some request) : ∃ reserved, bytes = request.framed reserved := by
  rw [requestHeaderLen] at hlength
  rw [decode] at h
  split at h
  · cases h
  next hheader =>
  simp only [not_or, not_not] at hheader
  obtain ⟨hmagic, hversion⟩ := hheader
  obtain ⟨opcode, hopcode, h⟩ := Option.bind_eq_some_iff.mp h
  obtain ⟨requestId, hid, h⟩ := Option.bind_eq_some_iff.mp h
  obtain ⟨fileId, hfile, h⟩ := Option.bind_eq_some_iff.mp h
  obtain ⟨offset, hoffset, h⟩ := Option.bind_eq_some_iff.mp h
  obtain ⟨length, hcount, h⟩ := Option.bind_eq_some_iff.mp h
  cases h
  obtain ⟨reserved, hreserved⟩ : ∃ reserved : List.Vector UInt8 2,
      reserved.val = (bytes.drop 6).take 2 := by
    refine ⟨⟨(bytes.drop 6).take 2, ?_⟩, rfl⟩
    rw [List.length_take, List.length_drop]
    omega
  refine ⟨reserved, ?_⟩
  have hend : bytes.drop (40 + 4) = [] := List.drop_eq_nil_of_le (by omega)
  have htail := fieldAt_eq_some hcount
  rw [hend, List.append_nil] at htail
  rw [framed, beBytes64_fromBe64, beBytes64_fromBe64, beBytes32_fromBe32,
    hreserved,
    ← Opcode.fromByte_eq_some.mp hopcode, ← htail, ← fieldAt_eq_some hoffset,
    ← fieldAt_eq_some hfile, ← fieldAt_eq_some hid, drop_take_append, drop_getD_cons (by omega),
    ← hversion, drop_getD_cons (by omega), ← hmagic, List.take_append_drop]

end RequestHeader

namespace ResponseHeader

@[simp] theorem length_framed (response : ResponseHeader) (reserved : UInt8) :
    (response.framed reserved).length = responseHeaderLen := by
  simp only [framed, List.length_append, List.length_cons, List.Vector.length_val]
  rfl

theorem decode_framed (response : ResponseHeader) (reserved : UInt8) :
    decode (response.framed reserved) = some response := by
  generalize hbytes : response.framed reserved = bytes
  have hversion : Remaining bytes 4 _ := ⟨responseMagic, hbytes.symm, rfl⟩
  have hstatus := hversion.next
  have hstate := hstatus.next
  have hid := hstate.next.next
  have htotal := hid.skip (beBytes64 response.requestId).property
  have hpayload := htotal.skip (beBytes64 response.totalLength).property
  have hwhole : Remaining bytes 24 ((beBytes32 response.payloadLength).val ++ []) := by
    rw [List.append_nil]
    exact hpayload
  have hmagic : bytes.take 4 = responseMagic := by rw [← hbytes]; rfl
  rw [decode, if_neg (by rw [hmagic, hversion.getD]; simp), hstatus.getD,
    ResponseStatus.fromByte_eq_some.mpr rfl, hstate.getD, stateFromByte_eq_some.mpr rfl,
    hid.fieldAt, htotal.fieldAt, hwhole.fieldAt]
  simp

theorem framed_of_decode {bytes : List UInt8} (hlength : bytes.length = responseHeaderLen)
    (h : decode bytes = some response) : ∃ reserved, bytes = response.framed reserved := by
  rw [responseHeaderLen] at hlength
  rw [decode] at h
  split at h
  · cases h
  next hheader =>
  simp only [not_or, not_not] at hheader
  obtain ⟨hmagic, hversion⟩ := hheader
  obtain ⟨status, hstatus, h⟩ := Option.bind_eq_some_iff.mp h
  obtain ⟨state, hstate, h⟩ := Option.bind_eq_some_iff.mp h
  obtain ⟨requestId, hid, h⟩ := Option.bind_eq_some_iff.mp h
  obtain ⟨totalLength, htotal, h⟩ := Option.bind_eq_some_iff.mp h
  obtain ⟨payloadLength, hcount, h⟩ := Option.bind_eq_some_iff.mp h
  cases h
  refine ⟨bytes.getD 7 0, ?_⟩
  have hend : bytes.drop (24 + 4) = [] := List.drop_eq_nil_of_le (by omega)
  have htail := fieldAt_eq_some hcount
  rw [hend, List.append_nil] at htail
  rw [framed, beBytes64_fromBe64, beBytes64_fromBe64, beBytes32_fromBe32,
    ← ResponseStatus.fromByte_eq_some.mp hstatus, ← stateFromByte_eq_some.mp hstate, ← htail,
    ← fieldAt_eq_some htotal, ← fieldAt_eq_some hid, drop_getD_cons (by omega),
    drop_getD_cons (by omega), drop_getD_cons (by omega), ← hversion, drop_getD_cons (by omega),
    ← hmagic, List.take_append_drop]

end ResponseHeader

theorem decode_encoded (request : RequestHeader) :
    RequestHeader.decode (request.encode.take requestHeaderLen) = some request := by
  rw [RequestHeader.encode, List.take_of_length_le (Nat.le_of_eq (request.length_framed _))]
  exact request.decode_framed _

theorem loopback_headers_round_trip :
    (∀ (bytes : List.Vector UInt8 requestHeaderLen) (request : RequestHeader),
      RequestHeader.decode bytes.val = some request ↔
        ∃ reserved, bytes.val = request.framed reserved) ∧
    (∀ (bytes : List.Vector UInt8 responseHeaderLen) (response : ResponseHeader),
      ResponseHeader.decode bytes.val = some response ↔
        ∃ reserved, bytes.val = response.framed reserved) := by
  constructor
  · intro bytes request
    constructor
    · exact RequestHeader.framed_of_decode bytes.property
    · rintro ⟨reserved, hbytes⟩
      rw [hbytes]
      exact request.decode_framed reserved
  · intro bytes response
    constructor
    · exact ResponseHeader.framed_of_decode bytes.property
    · rintro ⟨reserved, hbytes⟩
      rw [hbytes]
      exact response.decode_framed reserved

end ClipFerry.Loopback
