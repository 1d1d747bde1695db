import ClipFerry.Foundation.ChunkReader
import ClipFerry.Protocol.Frame

namespace ClipFerry.Protocol.FrameStream

open ByteField Checked Foundation

def writeFrames : List Frame → Except IoError (List UInt8)
  | [] => .ok []
  | frame :: frames => do
    let bytes ← writeFrame frame
    let later ← writeFrames frames
    .ok (bytes ++ later)

def decodeHeader (header : List UInt8) : Except IoError (UInt16 × UInt64 × Nat) := do
  let version ← arrayAtIo 2 header 4
  if header.take 4 ≠ magic ∨ fromBe16 version ≠ protocolVersion then
    .error (invalidData "invalid secure frame magic or version") else
  let opcode ← arrayAtIo 2 header 6
  let requestId ← arrayAtIo 8 header 8
  let payloadLength ← arrayAtIo 4 header 16
  if maxFramePayload < (fromBe32 payloadLength).toNat then
    .error (invalidData "secure frame payload exceeds limit") else
  .ok (fromBe16 opcode, fromBe64 requestId, (fromBe32 payloadLength).toNat)

def readPayload (header : UInt16 × UInt64 × Nat) (reader : ChunkReader UInt8) :
    Except IoError (Option Frame) × ChunkReader UInt8 :=
  match reader.readExact header.2.2 with
  | (none, reader) => (.error unexpectedEof, reader)
  | (some payload, reader) => (.ok (some ⟨header.1, header.2.1, payload⟩), reader)

def readFrameOptional (reader : ChunkReader UInt8) :
    Except IoError (Option Frame) × ChunkReader UInt8 :=
  let (first, reader) := reader.read 1
  if first = [] then (.ok none, reader) else
  match reader.readExact (frameHeaderLen - 1) with
  | (none, reader) => (.error unexpectedEof, reader)
  | (some more, reader) =>
    match decodeHeader (first ++ more) with
    | .error e => (.error e, reader)
    | .ok header => readPayload header reader

def readFrames : Nat → ChunkReader UInt8 → List (Except IoError (Option Frame))
  | 0, _ => []
  | n + 1, reader => (readFrameOptional reader).1 :: readFrames n (readFrameOptional reader).2

def AtBoundary (frames : List Frame) (cut : Nat) : Prop :=
  ∃ n bytes, writeFrames (frames.take n) = .ok bytes ∧ bytes.length = cut

def Acceptable (header : List UInt8) : Prop :=
  header.take 4 = magic ∧ ofBytes ((header.drop 4).take 2) = protocolVersion.toNat ∧
    ofBytes ((header.drop 16).take 4) ≤ maxFramePayload

instance (header : List UInt8) : Decidable (Acceptable header) :=
  inferInstanceAs (Decidable (_ ∧ _))

theorem readFrameOptional_of_header {stream : List UInt8} (h : frameHeaderLen ≤ stream.length) :
    Protocol.readFrameOptional stream =
      (decodeHeader (stream.take frameHeaderLen) >>= fun header =>
        if stream.length < frameHeaderLen + header.2.2 then .error unexpectedEof else
        .ok (some (⟨header.1, header.2.1, (stream.drop frameHeaderLen).take header.2.2⟩,
          (stream.drop frameHeaderLen).drop header.2.2))) := by
  have hne : stream ≠ [] := by
    rintro rfl
    exact absurd h (by decide)
  have hmagic : (stream.take frameHeaderLen).take 4 = stream.take 4 := by
    rw [List.take_take]
    rfl
  rw [Protocol.readFrameOptional, if_neg hne, if_neg (Nat.not_lt.mpr h), decodeHeader,
    arrayAtIo_take (by decide) h, arrayAtIo_take (by decide) h, arrayAtIo_take (by decide) h,
    arrayAtIo_take (by decide) h, hmagic]
  cases arrayAtIo 2 stream 4 with
  | error e => rfl
  | ok version =>
    simp only [ok_bind]
    split
    · rfl
    · cases arrayAtIo 2 stream 6 with
      | error e => rfl
      | ok opcode =>
        cases arrayAtIo 8 stream 8 with
        | error e => rfl
        | ok requestId =>
          cases arrayAtIo 4 stream 16 with
          | error e => rfl
          | ok payloadLength =>
            simp only [ok_bind]
            split <;> rfl

theorem readFrameOptional_closed {reader : ChunkReader UInt8} (h : reader.bytes = []) :
    (readFrameOptional reader).1 = .ok none ∧ (readFrameOptional reader).2.bytes = [] := by
  have hfirst : (reader.read 1).1 = [] := (ChunkReader.read_eq_nil Nat.one_pos).mpr h
  have hsplit := reader.read_append 1
  rw [hfirst, h] at hsplit
  rw [readFrameOptional]
  dsimp only
  rw [if_pos hfirst]
  exact ⟨rfl, hsplit⟩

theorem read_first {reader : ChunkReader UInt8} (h : reader.bytes ≠ []) :
    ∃ first, (reader.read 1).1 = [first] ∧ reader.bytes = first :: (reader.read 1).2.bytes := by
  have hne : (reader.read 1).1 ≠ [] := mt (ChunkReader.read_eq_nil Nat.one_pos).mp h
  have hpos := List.length_pos_iff.mpr hne
  have hle := reader.length_read_le 1
  obtain ⟨first, hfirst⟩ := List.length_eq_one_iff.mp (Nat.le_antisymm hle hpos)
  refine ⟨first, hfirst, ?_⟩
  rw [← reader.read_append 1, hfirst]
  rfl

theorem readFrameOptional_cut {reader : ChunkReader UInt8} (hne : reader.bytes ≠ [])
    (h : reader.bytes.length < frameHeaderLen) :
    (readFrameOptional reader).1 = .error unexpectedEof := by
  obtain ⟨first, hfirst, hbytes⟩ := read_first hne
  have hshort : (reader.read 1).2.bytes.length < frameHeaderLen - 1 := by
    rw [hbytes, List.length_cons] at h
    omega
  have hmore := ChunkReader.readExact_short hshort
  rw [readFrameOptional]
  dsimp only
  rw [hfirst, if_neg (List.cons_ne_nil _ _)]
  split
  · rfl
  · next heq => rw [heq] at hmore; cases hmore

theorem readFrameOptional_header {reader : ChunkReader UInt8}
    (h : frameHeaderLen ≤ reader.bytes.length) :
    ∃ reader', reader'.bytes = reader.bytes.drop frameHeaderLen ∧
      readFrameOptional reader = match decodeHeader (reader.bytes.take frameHeaderLen) with
        | .error e => (.error e, reader')
        | .ok header => readPayload header reader' := by
  have hne : reader.bytes ≠ [] := by
    intro hnil
    rw [hnil] at h
    exact absurd h (by decide)
  obtain ⟨first, hfirst, hbytes⟩ := read_first hne
  have hwhole : frameHeaderLen - 1 ≤ (reader.read 1).2.bytes.length := by
    rw [hbytes, List.length_cons] at h
    omega
  obtain ⟨hmore, hleft⟩ := ChunkReader.readExact_whole hwhole
  refine ⟨_, hleft.trans (by rw [hbytes]; rfl), ?_⟩
  rw [readFrameOptional]
  dsimp only
  rw [hfirst, if_neg (List.cons_ne_nil _ _)]
  split
  · next heq => rw [heq] at hmore; cases hmore
  · next heq =>
    rw [heq] at hmore
    cases hmore
    rw [heq, hbytes]
    rfl

theorem readPayload_whole {header : UInt16 × UInt64 × Nat} {reader : ChunkReader UInt8}
    (h : header.2.2 ≤ reader.bytes.length) :
    (readPayload header reader).1 =
      .ok (some ⟨header.1, header.2.1, reader.bytes.take header.2.2⟩) ∧
    (readPayload header reader).2.bytes = reader.bytes.drop header.2.2 := by
  obtain ⟨hpayload, hleft⟩ := ChunkReader.readExact_whole h
  rw [readPayload]
  split
  · next heq => rw [heq] at hpayload; cases hpayload
  · next heq =>
    rw [heq] at hpayload hleft
    cases hpayload
    exact ⟨rfl, hleft⟩

theorem readPayload_short {header : UInt16 × UInt64 × Nat} {reader : ChunkReader UInt8}
    (h : reader.bytes.length < header.2.2) :
    (readPayload header reader).1 = .error unexpectedEof := by
  have hpayload := ChunkReader.readExact_short h
  rw [readPayload]
  split
  · rfl
  · next heq => rw [heq] at hpayload; cases hpayload

theorem readFrameOptional_refines (reader : ChunkReader UInt8) :
    (readFrameOptional reader).1 =
      (Protocol.readFrameOptional reader.bytes).map (Option.map Prod.fst) ∧
    ∀ frame rest, Protocol.readFrameOptional reader.bytes = .ok (some (frame, rest)) →
      (readFrameOptional reader).2.bytes = rest := by
  by_cases hne : reader.bytes = []
  · rw [(readFrameOptional_closed hne).1, hne]
    exact ⟨rfl, fun _ _ h => by cases h⟩
  by_cases hcut : reader.bytes.length < frameHeaderLen
  · rw [readFrameOptional_cut hne hcut, Protocol.readFrameOptional, if_neg hne, if_pos hcut]
    exact ⟨rfl, fun _ _ h => by cases h⟩
  have hwhole := Nat.not_lt.mp hcut
  obtain ⟨reader', hbytes, hread⟩ := readFrameOptional_header hwhole
  rw [hread, readFrameOptional_of_header hwhole]
  cases decodeHeader (reader.bytes.take frameHeaderLen) with
  | error e => exact ⟨rfl, fun _ _ h => by cases h⟩
  | ok header =>
    have hlength : reader'.bytes.length = reader.bytes.length - frameHeaderLen := by
      rw [hbytes, List.length_drop]
    rw [ok_bind, ← hbytes]
    dsimp only
    by_cases hpayload : reader.bytes.length < frameHeaderLen + header.2.2
    · rw [readPayload_short (by omega), if_pos hpayload]
      exact ⟨rfl, fun _ _ h => by cases h⟩
    · have hfits : header.2.2 ≤ reader'.bytes.length := by omega
      obtain ⟨hframe, hleft⟩ := readPayload_whole hfits
      rw [hframe, hleft, if_neg hpayload]
      exact ⟨rfl, fun _ _ h => by cases h; rfl⟩

theorem decodeHeader_writeFrame {frame : Frame} {bytes : List UInt8}
    (h : writeFrame frame = .ok bytes) :
    decodeHeader (bytes.take frameHeaderLen) =
      .ok (frame.opcode, frame.requestId, frame.payload.length) := by
  have hlength := length_writeFrame h
  have hread := readFrameOptional_writeFrame h []
  rw [List.append_nil, readFrameOptional_of_header (by omega)] at hread
  obtain ⟨header, hheader, hread⟩ := bind_eq_ok.mp hread
  obtain ⟨hwhole, hread⟩ := guard_eq_ok.mp hread
  have hframe := congrArg (fun r => Except.toOption r) hread
  simp only [Except.toOption, Option.some.injEq, Prod.mk.injEq] at hframe
  obtain ⟨rfl, -⟩ := hframe
  have hpayload : ((bytes.drop frameHeaderLen).take header.2.2).length = header.2.2 := by
    rw [List.length_take, List.length_drop]
    omega
  rw [hheader, hpayload]

theorem readFrameOptional_take {frame : Frame} {bytes : List UInt8} {cut : Nat}
    (h : writeFrame frame = .ok bytes) (hpos : 0 < cut) (hcut : cut < bytes.length) :
    Protocol.readFrameOptional (bytes.take cut) = .error unexpectedEof := by
  have htake : (bytes.take cut).length = cut := by
    rw [List.length_take, Nat.min_eq_left (Nat.le_of_lt hcut)]
  by_cases hheader : frameHeaderLen ≤ cut
  · have hlength := length_writeFrame h
    rw [readFrameOptional_of_header (by omega), List.take_take, Nat.min_eq_left hheader,
      decodeHeader_writeFrame h, ok_bind]
    exact if_pos (by rw [htake, hlength.symm]; exact hcut)
  · have hne : bytes.take cut ≠ [] := List.length_pos_iff.mp (by omega)
    rw [Protocol.readFrameOptional, if_neg hne, if_pos (by omega)]

theorem writeFrames_fits {frames : List Frame}
    (h : ∀ frame ∈ frames, frame.payload.length ≤ maxFramePayload) :
    ∃ bytes, writeFrames frames = .ok bytes := by
  induction frames with
  | nil => exact ⟨[], rfl⟩
  | cons frame frames ih =>
    obtain ⟨bytes, hbytes⟩ := writeFrame_fits frame (h frame (.head _))
    obtain ⟨later, hlater⟩ := ih fun f hf => h f (.tail _ hf)
    exact ⟨bytes ++ later, by rw [writeFrames, hbytes, ok_bind, hlater]; rfl⟩

theorem writeFrames_cons {frame : Frame} {frames : List Frame} {bytes : List UInt8} :
    writeFrames (frame :: frames) = .ok bytes ↔
      ∃ first later, writeFrame frame = .ok first ∧ writeFrames frames = .ok later ∧
        first ++ later = bytes := by
  rw [writeFrames, bind_eq_ok]
  constructor
  · rintro ⟨first, hfirst, h⟩
    obtain ⟨later, hlater, h⟩ := bind_eq_ok.mp h
    cases h
    exact ⟨first, later, hfirst, hlater, rfl⟩
  · rintro ⟨first, later, hfirst, hlater, rfl⟩
    exact ⟨first, hfirst, by rw [hlater]; rfl⟩

theorem readFrameOptional_written {reader : ChunkReader UInt8} {frame : Frame}
    {bytes rest : List UInt8} (h : writeFrame frame = .ok bytes)
    (hreader : reader.bytes = bytes ++ rest) :
    (readFrameOptional reader).1 = .ok (some frame) ∧
      (readFrameOptional reader).2.bytes = rest := by
  obtain ⟨hresult, hleft⟩ := readFrameOptional_refines reader
  have hread := readFrameOptional_writeFrame h rest
  rw [← hreader] at hread
  rw [hresult, hread]
  exact ⟨rfl, hleft _ _ hread⟩

theorem readFrames_closed {reader : ChunkReader UInt8} (h : reader.bytes = []) (n : Nat) :
    readFrames n reader = List.replicate n (.ok none) := by
  induction n generalizing reader with
  | zero => rfl
  | succ n ih =>
    obtain ⟨hnone, hleft⟩ := readFrameOptional_closed h
    rw [readFrames, hnone, ih hleft, List.replicate_succ]

theorem readFrames_written {frames : List Frame} {bytes rest : List UInt8}
    {reader : ChunkReader UInt8} (h : writeFrames frames = .ok bytes)
    (hreader : reader.bytes = bytes ++ rest) :
    ∃ reader', reader'.bytes = rest ∧ ∀ n, readFrames (frames.length + n) reader =
      frames.map (fun frame => .ok (some frame)) ++ readFrames n reader' := by
  induction frames generalizing bytes reader with
  | nil =>
    cases h
    exact ⟨reader, hreader, fun n => by rw [List.length_nil, Nat.zero_add]; rfl⟩
  | cons frame frames ih =>
    obtain ⟨first, later, hfirst, hlater, rfl⟩ := writeFrames_cons.mp h
    rw [List.append_assoc] at hreader
    obtain ⟨hread, hleft⟩ := readFrameOptional_written hfirst hreader
    obtain ⟨reader', hrest, hreads⟩ := ih hlater hleft
    refine ⟨reader', hrest, fun n => ?_⟩
    rw [List.length_cons, Nat.succ_add, readFrames, hread, hreads]
    rfl

theorem cut_inside {frames : List Frame} {bytes : List UInt8} {cut : Nat}
    (h : writeFrames frames = .ok bytes) (hcut : cut < bytes.length)
    (hinside : ¬AtBoundary frames cut) :
    ∃ before next after front frame, frames = before ++ next :: after ∧
      writeFrames before = .ok front ∧ writeFrame next = .ok frame ∧
      front.length < cut ∧ cut < front.length + frame.length ∧
      bytes.take cut = front ++ frame.take (cut - front.length) := by
  induction frames generalizing bytes cut with
  | nil =>
    cases h
    exact absurd hcut (Nat.not_lt_zero cut)
  | cons frame frames ih =>
    obtain ⟨first, later, hfirst, hlater, rfl⟩ := writeFrames_cons.mp h
    have hpos : cut ≠ 0 := fun hzero => hinside ⟨0, [], rfl, hzero.symm⟩
    by_cases hwithin : cut < first.length
    · refine ⟨[], frame, frames, [], first, rfl, rfl, hfirst, Nat.pos_of_ne_zero hpos, ?_, ?_⟩
      · rwa [List.length_nil, Nat.zero_add]
      · rw [List.take_append_of_le_length (Nat.le_of_lt hwithin)]
        rfl
    · rw [List.length_append] at hcut
      have hlaterInside : ¬AtBoundary frames (cut - first.length) := by
        rintro ⟨n, front, hfront, hlength⟩
        refine hinside ⟨n + 1, first ++ front, ?_, ?_⟩
        · rw [List.take_succ_cons]
          exact writeFrames_cons.mpr ⟨first, front, hfirst, hfront, rfl⟩
        · rw [List.length_append]
          omega
      obtain ⟨before, next, after, front, whole, hframes, hfront, hnext, hafter, hbefore, htake⟩ :=
        ih hlater (by omega) hlaterInside
      refine ⟨frame :: before, next, after, first ++ front, whole, by rw [hframes]; rfl,
        writeFrames_cons.mpr ⟨first, front, hfirst, hfront, rfl⟩, hnext, ?_, ?_, ?_⟩
      · rw [List.length_append]; omega
      · rw [List.length_append]; omega
      · rw [List.take_append, List.take_of_length_le (Nat.not_lt.mp hwithin), htake,
          List.length_append, Nat.sub_sub, List.append_assoc]

theorem readFrames_cut {frames : List Frame} {bytes : List UInt8} {cut : Nat}
    {reader : ChunkReader UInt8} (h : writeFrames frames = .ok bytes) (hcut : cut < bytes.length)
    (hinside : ¬AtBoundary frames cut) (hreader : reader.bytes = bytes.take cut) :
    ∃ before next after front frame, frames = before ++ next :: after ∧
      writeFrames before = .ok front ∧ writeFrame next = .ok frame ∧
      front.length < cut ∧ cut < front.length + frame.length ∧
      readFrames (before.length + 1) reader =
        before.map (fun frame => .ok (some frame)) ++ [.error unexpectedEof] := by
  obtain ⟨before, next, after, front, frame, hframes, hfront, hnext, hafter, hbefore, htake⟩ :=
    cut_inside h hcut hinside
  refine ⟨before, next, after, front, frame, hframes, hfront, hnext, hafter, hbefore, ?_⟩
  obtain ⟨reader', hrest, hreads⟩ := readFrames_written hfront (hreader.trans htake)
  have herror := (readFrameOptional_refines reader').1
  rw [hrest, readFrameOptional_take hnext (by omega) (by omega)] at herror
  rw [hreads, readFrames, herror]
  rfl

theorem decodeHeader_refuses {header : List UInt8} (hlength : header.length = frameHeaderLen)
    (h : ¬Acceptable header) : ∃ message, decodeHeader header = .error (invalidData message) := by
  rw [frameHeaderLen] at hlength
  obtain ⟨version, hversion, hversionBytes⟩ := arrayAtIo_field 2 4 header (by omega)
  obtain ⟨opcode, hopcode, -⟩ := arrayAtIo_field 2 6 header (by omega)
  obtain ⟨requestId, hid, -⟩ := arrayAtIo_field 8 8 header (by omega)
  obtain ⟨payloadLength, hpayload, hpayloadBytes⟩ := arrayAtIo_field 4 16 header (by omega)
  rw [decodeHeader, hversion, ok_bind]
  by_cases hmagic : header.take 4 ≠ magic ∨ fromBe16 version ≠ protocolVersion
  · exact ⟨_, if_pos hmagic⟩
  · obtain ⟨hmagic', hcurrent⟩ := not_or.mp hmagic
    rw [not_not] at hmagic' hcurrent
    have hlong : maxFramePayload < (fromBe32 payloadLength).toNat := by
      rw [toNat_fromBe32, hpayloadBytes]
      refine Nat.not_le.mp fun hfits => h ⟨hmagic', ?_, hfits⟩
      rw [← hversionBytes, ← toNat_fromBe16, hcurrent]
    rw [if_neg hmagic, hopcode, ok_bind, hid, ok_bind, hpayload, ok_bind]
    exact ⟨_, if_pos hlong⟩

theorem readFrameOptional_refuses {reader : ChunkReader UInt8} {header rest : List UInt8}
    (hlength : header.length = frameHeaderLen) (h : ¬Acceptable header)
    (hreader : reader.bytes = header ++ rest) :
    ∃ message, (readFrameOptional reader).1 = .error (invalidData message) ∧
      (readFrameOptional reader).2.bytes = rest := by
  have hwhole : frameHeaderLen ≤ reader.bytes.length := by
    rw [hreader, List.length_append]
    omega
  obtain ⟨reader', hbytes, hread⟩ := readFrameOptional_header hwhole
  obtain ⟨message, herror⟩ := decodeHeader_refuses hlength h
  rw [hreader, List.take_left' hlength, herror] at hread
  rw [hreader, List.drop_left' hlength] at hbytes
  rw [hread]
  exact ⟨message, rfl, hbytes⟩

theorem frame_stream_codec (frames : List Frame)
    (hfits : ∀ frame ∈ frames, frame.payload.length ≤ maxFramePayload) :
    ∃ bytes, writeFrames frames = .ok bytes ∧
      (∀ reader, reader.bytes = bytes → ∀ n, readFrames (frames.length + n) reader =
        frames.map (fun frame => .ok (some frame)) ++ List.replicate n (.ok none)) ∧
      (∀ cut, cut < bytes.length → ¬AtBoundary frames cut →
        ∀ reader, reader.bytes = bytes.take cut →
          ∃ before next after front frame error, frames = before ++ next :: after ∧
            writeFrames before = .ok front ∧ writeFrame next = .ok frame ∧
            front.length < cut ∧ cut < front.length + frame.length ∧
            readFrames (before.length + 1) reader =
              before.map (fun frame => .ok (some frame)) ++ [.error error] ∧
            error.kind = .unexpectedEof) ∧
      ∀ header rest reader, header.length = frameHeaderLen → ¬Acceptable header →
        reader.bytes = header ++ rest →
          ∃ error, (readFrameOptional reader).1 = .error error ∧ error.kind = .invalidData ∧
            (readFrameOptional reader).2.bytes = rest := by
  obtain ⟨bytes, hbytes⟩ := writeFrames_fits hfits
  refine ⟨bytes, hbytes, fun reader hreader n => ?_, fun cut hcut hinside reader hreader => ?_,
    fun header rest reader hlength h hreader => ?_⟩
  · have hwhole : reader.bytes = bytes ++ [] := by rw [hreader, List.append_nil]
    obtain ⟨reader', hclosed, hreads⟩ := readFrames_written hbytes hwhole
    rw [hreads, readFrames_closed hclosed]
  · obtain ⟨before, next, after, front, frame, hframes, hfront, hnext, hafter, hbefore, hreads⟩ :=
      readFrames_cut hbytes hcut hinside hreader
    exact ⟨before, next, after, front, frame, _, hframes, hfront, hnext, hafter, hbefore, hreads,
      rfl⟩
  · obtain ⟨message, herror, hleft⟩ := readFrameOptional_refuses hlength h hreader
    exact ⟨_, herror, rfl, hleft⟩

theorem frame_stream_codec_bytewise :
    ∃ bytes, writeFrames [⟨3, 7, [1, 2, 3]⟩, ⟨8, 9, []⟩] = .ok bytes ∧
      readFrames 3 (.bytewise bytes) =
        [.ok (some ⟨3, 7, [1, 2, 3]⟩), .ok (some ⟨8, 9, []⟩), .ok none] ∧
      ∃ error, (readFrameOptional (.bytewise (List.replicate 20 0))).1 = .error error ∧
        error.kind = .invalidData := by
  obtain ⟨bytes, hbytes, hreads, -, hrefused⟩ :=
    frame_stream_codec [⟨3, 7, [1, 2, 3]⟩, ⟨8, 9, []⟩] (by decide)
  obtain ⟨error, herror, hkind, -⟩ := hrefused (List.replicate 20 0) [] _ rfl (by decide)
    (ChunkReader.bytes_bytewise _)
  exact ⟨bytes, hbytes, hreads _ (ChunkReader.bytes_bytewise bytes) 1, error, herror, hkind⟩

end ClipFerry.Protocol.FrameStream
