import ClipFerry.Foundation.ByteField
import ClipFerry.Foundation.Checked
import ClipFerry.VirtualTree.Descriptor

namespace ClipFerry.Protocol

open ByteField Checked VirtualTree

structure ProtocolId where
  bytes : List.Vector UInt8 16
deriving DecidableEq

abbrev Secret := List.Vector UInt8 32

def repeatedId (n : UInt8) : ProtocolId := ⟨⟨List.replicate 16 n, List.length_replicate⟩⟩

def repeatedSecret (n : UInt8) : Secret := ⟨List.replicate 32 n, List.length_replicate⟩

inductive ErrorKind where
  | brokenPipe
  | connectionAborted
  | connectionReset
  | connectionRefused
  | notConnected
  | timedOut
  | unexpectedEof
  | wouldBlock
  | interrupted
  | permissionDenied
  | invalidData
  | invalidInput
  | notFound
  | alreadyExists
  | unsupported
  | other
deriving DecidableEq, Repr

structure IoError where
  kind : ErrorKind
  message : String
  rawOsError : Option Int
deriving DecidableEq, Repr

def IoError.new (kind : ErrorKind) (message : String) : IoError := ⟨kind, message, none⟩

def invalidData (message : String) : IoError := .new .invalidData message

def upperHex : Nat → Nat → List Char
  | 0, _ => []
  | width + 1, value => upperHex width (value / 16) ++ [(Nat.digitChar (value % 16)).toUpper]

def invalidWindows : HResult → IoError
  | .invalidArg => invalidData "Windows validation failed: 0x80070057"
  | .formatEtc => invalidData "Windows validation failed: 0x80040064"
  | .unexpected => invalidData "Windows validation failed: 0x8000FFFF"
  | .cancelled => invalidData "Windows validation failed: 0x800704C7"
  | .readFault => invalidData "Windows validation failed: 0x8007001E"
  | .timeout => invalidData "Windows validation failed: 0x800705B4"
  | .accessDenied => invalidData "Windows validation failed: 0x80070005"
  | .invalidFunction => invalidData "Windows validation failed: 0x80030001"
  | .invalidPointer => invalidData "Windows validation failed: 0x80030009"
  | .fileInvalid => invalidData "Windows validation failed: 0x800703EE"
  | .other code => invalidData ("Windows validation failed: 0x" ++ .ofList (upperHex 8 code.toNat))

inductive Opcode where
  | hello
  | getOffer
  | beginTransfer
  | readRange
  | pause
  | resume
  | cancel
  | status
  | complete
deriving DecidableEq, Repr

def Opcode.isControl : Opcode → Bool
  | .pause | .resume | .cancel | .complete => true
  | .hello | .getOffer | .beginTransfer | .readRange | .status => false

def Opcode.code : Opcode → UInt16
  | .hello => 1
  | .getOffer => 2
  | .beginTransfer => 3
  | .readRange => 4
  | .pause => 5
  | .resume => 6
  | .cancel => 7
  | .status => 8
  | .complete => 9

def Opcode.tryFrom (value : UInt16) : Except IoError Opcode :=
  if value = 1 then .ok .hello
  else if value = 2 then .ok .getOffer
  else if value = 3 then .ok .beginTransfer
  else if value = 4 then .ok .readRange
  else if value = 5 then .ok .pause
  else if value = 6 then .ok .resume
  else if value = 7 then .ok .cancel
  else if value = 8 then .ok .status
  else if value = 9 then .ok .complete
  else .error (invalidData "unknown secure protocol opcode")

def responseBit : UInt16 := 0x8000

def responseOpcode (opcode : Opcode) : UInt16 := opcode.code ||| responseBit

theorem Opcode.tryFrom_code (opcode : Opcode) : Opcode.tryFrom opcode.code = .ok opcode := by
  cases opcode <;> rfl

inductive ResponseStatus where
  | ok
  | invalid
  | denied
  | expired
  | replay
  | busy
  | cancelled
  | timeout
  | sourceChanged
  | internal
deriving DecidableEq, Repr

def ResponseStatus.encode : ResponseStatus → UInt8
  | .ok => 0
  | .invalid => 1
  | .denied => 2
  | .expired => 3
  | .replay => 4
  | .busy => 5
  | .cancelled => 6
  | .timeout => 7
  | .sourceChanged => 8
  | .internal => 9

def ResponseStatus.decode (value : UInt8) : Except IoError ResponseStatus :=
  if value = 0 then .ok .ok
  else if value = 1 then .ok .invalid
  else if value = 2 then .ok .denied
  else if value = 3 then .ok .expired
  else if value = 4 then .ok .replay
  else if value = 5 then .ok .busy
  else if value = 6 then .ok .cancelled
  else if value = 7 then .ok .timeout
  else if value = 8 then .ok .sourceChanged
  else if value = 9 then .ok .internal
  else .error (invalidData "invalid secure response status")

abbrev WireResult := Except ResponseStatus

def statusError : ResponseStatus → IoError
  | .invalid => .new .invalidData "invalid request"
  | .denied => .new .permissionDenied "request denied"
  | .expired => .new .timedOut "offer or transfer expired"
  | .replay => .new .permissionDenied "replayed request denied"
  | .busy => .new .wouldBlock "server is busy"
  | .cancelled => .new .interrupted "transfer cancelled"
  | .timeout => .new .timedOut "transfer request timed out"
  | .sourceChanged => .new .invalidData "source file changed"
  | .internal => .new .other "server internal error"
  | .ok => .new .other "unexpected success status"

def requireOk (response : List UInt8) : Except IoError Unit :=
  match response.head? with
  | none => .error (invalidData "empty secure response")
  | some status =>
    match ResponseStatus.decode status with
    | .error e => .error e
    | .ok .ok => .ok ()
    | .ok other => .error (statusError other)

def arrayAtIo (n : Nat) (bytes : List UInt8) (start : Nat) :
    Except IoError (List.Vector UInt8 n) :=
  match fieldAt n bytes start with
  | some v => .ok v
  | none => .error (invalidData "truncated secure protocol field")

def arrayAt (n : Nat) (bytes : List UInt8) (start : Nat) : WireResult (List.Vector UInt8 n) :=
  match fieldAt n bytes start with
  | some v => .ok v
  | none => .error .invalid

def beBytes16 (x : UInt16) : List.Vector UInt8 2 := ⟨toBytes 2 x.toNat, length_toBytes _ _⟩

def beBytes32 (x : UInt32) : List.Vector UInt8 4 := ⟨toBytes 4 x.toNat, length_toBytes _ _⟩

def beBytes64 (x : UInt64) : List.Vector UInt8 8 := ⟨toBytes 8 x.toNat, length_toBytes _ _⟩

def fromBe16 (v : List.Vector UInt8 2) : UInt16 := UInt16.ofNat (ofBytes v.val)

def fromBe32 (v : List.Vector UInt8 4) : UInt32 := UInt32.ofNat (ofBytes v.val)

def fromBe64 (v : List.Vector UInt8 8) : UInt64 := UInt64.ofNat (ofBytes v.val)

@[simp] theorem fromBe16_beBytes16 (x : UInt16) : fromBe16 (beBytes16 x) = x := by
  rw [fromBe16, beBytes16, ofBytes_toBytes x.toNat_lt]
  exact UInt16.ofNat_toNat

@[simp] theorem fromBe32_beBytes32 (x : UInt32) : fromBe32 (beBytes32 x) = x := by
  rw [fromBe32, beBytes32, ofBytes_toBytes x.toNat_lt]
  exact UInt32.ofNat_toNat

@[simp] theorem fromBe64_beBytes64 (x : UInt64) : fromBe64 (beBytes64 x) = x := by
  rw [fromBe64, beBytes64, ofBytes_toBytes x.toNat_lt]
  exact UInt64.ofNat_toNat

def magic : List UInt8 := [0x43, 0x46, 0x53, 0x34]

def protocolVersion : UInt16 := 2

def frameHeaderLen : Nat := 20

def maxSecureRangeBytes : Nat := 256 * 1024

def maxSecureManifestBytes : Nat := 1024 * 1024

def maxFramePayload : Nat := maxSecureManifestBytes

structure Frame where
  opcode : UInt16
  requestId : UInt64
  payload : List UInt8
deriving DecidableEq

def writeFrame (frame : Frame) : Except IoError (List UInt8) :=
  if maxFramePayload < frame.payload.length then
    .error (invalidData "secure frame payload exceeds limit")
  else if 2 ^ 32 ≤ frame.payload.length then
    .error (invalidData "out of range integral type conversion attempted")
  else
    .ok (magic ++ (beBytes16 protocolVersion).val ++ (beBytes16 frame.opcode).val
      ++ (beBytes64 frame.requestId).val ++ (beBytes32 (.ofNat frame.payload.length)).val
      ++ frame.payload)

theorem writeFrame_fits (frame : Frame) (h : frame.payload.length ≤ maxFramePayload) :
    ∃ bytes, writeFrame frame = .ok bytes := by
  have hlimit : maxFramePayload < 2 ^ 32 := by decide
  exact ⟨_, by rw [writeFrame, if_neg (Nat.not_lt.mpr h), if_neg (by omega)]⟩

theorem length_writeFrame {frame : Frame} {bytes : List UInt8} (h : writeFrame frame = .ok bytes) :
    bytes.length = frameHeaderLen + frame.payload.length := by
  rw [writeFrame, guard_eq_ok, guard_eq_ok] at h
  obtain ⟨-, -, hbytes⟩ := h
  cases hbytes
  simp only [List.length_append, List.Vector.length_val]
  rfl

def unexpectedEof : IoError := .new .unexpectedEof "failed to fill whole buffer"

def readFrameOptional (stream : List UInt8) : Except IoError (Option (Frame × List UInt8)) := do
  if stream = [] then .ok none else
  if stream.length < frameHeaderLen then .error unexpectedEof else
  let version ← arrayAtIo 2 stream 4
  if stream.take 4 ≠ magic ∨ fromBe16 version ≠ protocolVersion then
    .error (invalidData "invalid secure frame magic or version") else
  let opcode ← arrayAtIo 2 stream 6
  let requestId ← arrayAtIo 8 stream 8
  let payloadLength ← arrayAtIo 4 stream 16
  if maxFramePayload < (fromBe32 payloadLength).toNat then
    .error (invalidData "secure frame payload exceeds limit") else
  if stream.length < frameHeaderLen + (fromBe32 payloadLength).toNat then .error unexpectedEof else
  let rest := stream.drop frameHeaderLen
  .ok (some (⟨fromBe16 opcode, fromBe64 requestId, rest.take (fromBe32 payloadLength).toNat⟩,
    rest.drop (fromBe32 payloadLength).toNat))

def readFrame (stream : List UInt8) : Except IoError (Frame × List UInt8) := do
  match ← readFrameOptional stream with
  | some read => .ok read
  | none => .error (.new .unexpectedEof "secure connection closed")

theorem arrayAtIo_remaining {n : Nat} {bytes rest : List UInt8} {v : List.Vector UInt8 n}
    {cursor : Nat} (h : Remaining bytes cursor (v.val ++ rest)) :
    arrayAtIo n bytes cursor = .ok v := by
  rw [arrayAtIo, h.fieldAt]

theorem arrayAtIo_take {n start k : Nat} {bytes : List UInt8} (hk : start + n ≤ k)
    (h : k ≤ bytes.length) : arrayAtIo n (bytes.take k) start = arrayAtIo n bytes start := by
  have htake : (bytes.take k).length = k := by rw [List.length_take, Nat.min_eq_left h]
  have hfield : fieldAt n (bytes.take k) start = fieldAt n bytes start := by
    rw [fieldAt, dif_pos (by omega), fieldAt, dif_pos (by omega)]
    congr 2
    rw [List.drop_take, List.take_take, Nat.min_eq_left (by omega)]
  rw [arrayAtIo, hfield, arrayAtIo]

theorem arrayAtIo_field (n start : Nat) (bytes : List UInt8) (h : start + n ≤ bytes.length) :
    ∃ v, arrayAtIo n bytes start = .ok v ∧ v.val = (bytes.drop start).take n := by
  rw [arrayAtIo, fieldAt, dif_pos h]
  exact ⟨_, rfl, rfl⟩

theorem readFrameOptional_writeFrame {frame : Frame} {bytes : List UInt8}
    (h : writeFrame frame = .ok bytes) (rest : List UInt8) :
    readFrameOptional (bytes ++ rest) = .ok (some (frame, rest)) := by
  obtain ⟨opcode, requestId, payload⟩ := frame
  rw [writeFrame, guard_eq_ok, guard_eq_ok] at h
  obtain ⟨hlimit, hfits, hbytes⟩ := h
  cases hbytes
  have hstream : magic ++ (beBytes16 protocolVersion).val ++ (beBytes16 opcode).val
      ++ (beBytes64 requestId).val ++ (beBytes32 (.ofNat payload.length)).val ++ payload ++ rest
      = magic ++ ((beBytes16 protocolVersion).val ++ ((beBytes16 opcode).val
        ++ ((beBytes64 requestId).val ++ ((beBytes32 (.ofNat payload.length)).val
        ++ (payload ++ rest))))) := by simp only [List.append_assoc]
  rw [hstream]
  generalize hall : magic ++ ((beBytes16 protocolVersion).val ++ ((beBytes16 opcode).val
    ++ ((beBytes64 requestId).val ++ ((beBytes32 (.ofNat payload.length)).val
    ++ (payload ++ rest))))) = stream
  have hstart : Remaining stream 0 (magic ++ ((beBytes16 protocolVersion).val
      ++ ((beBytes16 opcode).val ++ ((beBytes64 requestId).val
      ++ ((beBytes32 (.ofNat payload.length)).val ++ (payload ++ rest)))))) := hall ▸ .start _
  have hversion := hstart.skip (n := 4) rfl
  have hopcode := hversion.skip (beBytes16 protocolVersion).property
  have hid := hopcode.skip (beBytes16 opcode).property
  have hlength := hid.skip (beBytes64 requestId).property
  obtain ⟨front, hfront, hheader⟩ := hlength.skip (beBytes32 (.ofNat payload.length)).property
  have hcursor : front.length = frameHeaderLen := hheader
  have hcount : (UInt32.ofNat payload.length).toNat = payload.length :=
    UInt32.toNat_ofNat_of_lt' (by simpa using hfits)
  have hmagic : stream.take 4 = magic := by rw [← hall]; rfl
  have hsize : stream.length = frameHeaderLen + payload.length + rest.length := by
    rw [hfront, List.length_append, hcursor, List.length_append, Nat.add_assoc]
  have hdrop : stream.drop frameHeaderLen = payload ++ rest := by
    rw [hfront, List.drop_left' hcursor]
  have hnonempty : stream ≠ [] := by
    rintro rfl
    rw [List.length_nil, frameHeaderLen] at hsize
    omega
  unfold readFrameOptional
  rw [if_neg hnonempty, if_neg (by omega), arrayAtIo_remaining hversion, ok_bind,
    fromBe16_beBytes16, hmagic, if_neg (by simp), arrayAtIo_remaining hopcode, ok_bind,
    arrayAtIo_remaining hid, ok_bind, arrayAtIo_remaining hlength, ok_bind, fromBe32_beBytes32,
    hcount, if_neg hlimit, if_neg (by omega), fromBe16_beBytes16, fromBe64_beBytes64, hdrop]
  simp only [List.take_left, List.drop_left]

theorem readFrame_writeFrame {frame : Frame} {bytes : List UInt8}
    (h : writeFrame frame = .ok bytes) : readFrame bytes = .ok (frame, []) := by
  have hread := readFrameOptional_writeFrame h []
  rw [List.append_nil] at hread
  rw [readFrame, hread]
  rfl

theorem ofBytes_vector_lt {n : Nat} (v : List.Vector UInt8 n) : ofBytes v.val < 256 ^ n := by
  obtain ⟨bytes, rfl⟩ := v
  exact ofBytes_lt bytes

theorem toBytes_ofBytes_vector {n : Nat} (v : List.Vector UInt8 n) :
    toBytes n (ofBytes v.val) = v.val := by
  obtain ⟨bytes, rfl⟩ := v
  exact toBytes_ofBytes bytes

theorem toNat_fromBe16 (v : List.Vector UInt8 2) : (fromBe16 v).toNat = ofBytes v.val :=
  UInt16.toNat_ofNat_of_lt' (ofBytes_vector_lt v)

theorem toNat_fromBe32 (v : List.Vector UInt8 4) : (fromBe32 v).toNat = ofBytes v.val :=
  UInt32.toNat_ofNat_of_lt' (ofBytes_vector_lt v)

theorem toNat_fromBe64 (v : List.Vector UInt8 8) : (fromBe64 v).toNat = ofBytes v.val :=
  UInt64.toNat_ofNat_of_lt' (ofBytes_vector_lt v)

@[simp] theorem beBytes16_fromBe16 (v : List.Vector UInt8 2) : beBytes16 (fromBe16 v) = v := by
  apply Subtype.ext
  exact (congrArg (toBytes _) (toNat_fromBe16 v)).trans (toBytes_ofBytes_vector v)

@[simp] theorem beBytes32_fromBe32 (v : List.Vector UInt8 4) : beBytes32 (fromBe32 v) = v := by
  apply Subtype.ext
  exact (congrArg (toBytes _) (toNat_fromBe32 v)).trans (toBytes_ofBytes_vector v)

@[simp] theorem beBytes64_fromBe64 (v : List.Vector UInt8 8) : beBytes64 (fromBe64 v) = v := by
  apply Subtype.ext
  exact (congrArg (toBytes _) (toNat_fromBe64 v)).trans (toBytes_ofBytes_vector v)

theorem arrayAtIo_eq_ok {n start : Nat} {bytes : List UInt8} {v : List.Vector UInt8 n}
    (h : arrayAtIo n bytes start = .ok v) : bytes.drop start = v.val ++ bytes.drop (start + n) := by
  rw [arrayAtIo] at h
  split at h
  · next hfield =>
    cases h
    exact fieldAt_eq_some hfield
  · cases h

theorem readFrame_eq_ok {stream rest : List UInt8} {frame : Frame}
    (h : readFrame stream = .ok (frame, rest)) :
    ∃ bytes, writeFrame frame = .ok bytes ∧ stream = bytes ++ rest := by
  obtain ⟨read, hread, h⟩ := bind_eq_ok.mp h
  cases read with
  | none => cases h
  | some read =>
    cases h
    rw [readFrameOptional] at hread
    split at hread
    · cases hread
    · obtain ⟨hheader, hread⟩ := guard_eq_ok.mp hread
      obtain ⟨version, hversion, hread⟩ := bind_eq_ok.mp hread
      obtain ⟨hmagic, hread⟩ := guard_eq_ok.mp hread
      obtain ⟨opcode, hopcode, hread⟩ := bind_eq_ok.mp hread
      obtain ⟨requestId, hid, hread⟩ := bind_eq_ok.mp hread
      obtain ⟨payloadLength, hlength, hread⟩ := bind_eq_ok.mp hread
      obtain ⟨hlimit, hread⟩ := guard_eq_ok.mp hread
      obtain ⟨hwhole, hread⟩ := guard_eq_ok.mp hread
      obtain ⟨hmagic, hcurrent⟩ := not_or.mp hmagic
      rw [not_not] at hmagic hcurrent
      cases hread
      have hpayload : ((stream.drop frameHeaderLen).take (fromBe32 payloadLength).toNat).length =
          (fromBe32 payloadLength).toNat := by
        rw [List.length_take, List.length_drop]
        omega
      obtain ⟨bytes, hbytes⟩ := writeFrame_fits ⟨fromBe16 opcode, fromBe64 requestId,
        (stream.drop frameHeaderLen).take (fromBe32 payloadLength).toNat⟩ (by
          rw [hpayload]
          exact Nat.not_lt.mp hlimit)
      refine ⟨bytes, hbytes, ?_⟩
      rw [writeFrame, guard_eq_ok, guard_eq_ok] at hbytes
      obtain ⟨-, -, hbytes⟩ := hbytes
      cases hbytes
      have hstream : stream = magic ++ (version.val ++ (opcode.val ++ (requestId.val ++
          (payloadLength.val ++ stream.drop frameHeaderLen)))) := by
        conv_lhs => rw [← List.take_append_drop 4 stream, hmagic, arrayAtIo_eq_ok hversion,
          arrayAtIo_eq_ok hopcode, arrayAtIo_eq_ok hid, arrayAtIo_eq_ok hlength]
        rfl
      rw [hpayload, UInt32.ofNat_toNat, beBytes32_fromBe32, beBytes64_fromBe64, beBytes16_fromBe16,
        ← hcurrent, beBytes16_fromBe16]
      conv_lhs => rw [hstream, ← List.take_append_drop (fromBe32 payloadLength).toNat
        (stream.drop frameHeaderLen)]
      simp only [List.append_assoc]

end ClipFerry.Protocol
