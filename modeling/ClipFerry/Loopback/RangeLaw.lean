import ClipFerry.Loopback.RangeSource

namespace ClipFerry.Loopback

open Checked Foundation Protocol Server Transition VirtualTree ClipFerry.Stream

variable {config : LoopbackServerConfig} {source : TcpRangeSource} {request : RequestHeader}
  {response : ResponseHeader} {input reply header rest : List UInt8} {requested : Nat}
  {payload : List UInt8} {peer : Nat → RequestHeader → NetworkReply}

/-! A peer whose connections end in workers of one server, cut off anywhere and in any pieces. -/

def Honest (config : LoopbackServerConfig) (peer : Nat → RequestHeader → NetworkReply) : Prop :=
  ∀ attempt request received failure, peer attempt request = .connected received failure →
    ∃ events world, Run (WorldStep config) .start events world ∧ ∃ worker ∈ world.workers,
      worker.input = request.encode ∧ received.bytes <+: worker.output

theorem Honest.answered (h : Honest config peer) {attempt : Nat} {received : ChunkReader UInt8}
    {failure : ErrorKind} (hpeer : peer attempt request = .connected received failure)
    (hsome : received.bytes ≠ []) :
    ∃ reply, Answers config request.encode reply ∧ received.bytes <+: reply := by
  obtain ⟨events, world, hrun, worker, hworker, hinput, hfront⟩ := h attempt request _ _ hpeer
  obtain ⟨reply, hreply, houtput⟩ := Stage.Sound.delivered (world_sound hrun worker hworker)
  rcases hreply with hempty | hanswers
  · rw [hempty, List.prefix_nil] at hfront
    exact absurd hfront hsome
  · rw [hinput] at hanswers
    exact ⟨reply, hanswers, hfront.trans houtput⟩

theorem fullReply_header_eq {active : Option RequestHeader} (hheader : header.length = responseHeaderLen)
    (hfront : header ++ rest <+: fullReply response active) :
    header = response.encode ∧ ∃ body, fullReply response active = response.encode ++ body ∧
      rest <+: body := by
  have hlength : response.encode.length = responseHeaderLen := response.length_framed 0
  have hsplit : ∃ body, fullReply response active = response.encode ++ body := ⟨_, rfl⟩
  obtain ⟨body, hbody⟩ := hsplit
  rw [hbody] at hfront
  obtain ⟨later, hlater⟩ := hfront
  rw [List.append_assoc] at hlater
  obtain ⟨hsame, htail⟩ := List.append_inj hlater (hheader.trans hlength.symm)
  exact ⟨hsame, body, hbody, later, htail⟩

theorem due_range (hopcode : request.opcode = .readRange) {requestId : UInt64} {length : UInt32}
    {active : Option RequestHeader} (h : Due config request.encode .ok requestId length active) :
    active = some request ∧ length = payloadLength config request := by
  generalize hstatus : ResponseStatus.ok = status at h
  cases h with
  | malformed | unknown | oversized | cancelled => cases hstatus
  | control hreceived hother =>
    have hsame := (decode_encoded request).symm.trans hreceived.1
    cases hsame
    exact absurd hopcode hother
  | range hranged =>
    have hsame := (decode_encoded request).symm.trans hranged.1.1
    cases hsame
    exact ⟨rfl, rfl⟩

theorem Honest.accepted (h : Honest config peer) {attempt : Nat}
    (hopcode : request.opcode = .readRange)
    (haccepted : source.Accepted request requested (peer attempt request) payload) :
    config.length = source.length ∧ payload.length = (payloadLength config request).toNat ∧
      payload = generated request.offset.toNat payload.length := by
  obtain ⟨received, failure, header, decoded, rest, hpeer, hbytes, hheader, hdecode, hstatus, -,
    htotal, hcount, hpositive, -⟩ := haccepted
  have hsome : received.bytes ≠ [] := by
    intro hnil
    rw [hnil] at hbytes
    have hnone := congrArg List.length hbytes
    rw [List.length_nil, List.length_append, List.length_append] at hnone
    omega
  obtain ⟨reply, ⟨status, requestId, length, active, state, hdue, rfl⟩, hfront⟩ :=
    h.answered hpeer hsome
  rw [hbytes] at hfront
  obtain ⟨rfl, body, hbody, hrest⟩ := fullReply_header_eq hheader hfront
  have hsame := (ResponseHeader.decode_framed _ 0).symm.trans hdecode
  cases hsame
  obtain rfl : status = .ok := hstatus
  obtain ⟨rfl, rfl⟩ := due_range hopcode hdue
  rw [fullReply_ok rfl] at hbody
  obtain rfl := List.append_cancel_left hbody
  refine ⟨htotal, hcount.symm, ?_⟩
  dsimp only at hrest hcount
  rw [hcount] at hrest
  obtain ⟨later, hlater⟩ := hrest
  rw [List.append_assoc] at hlater
  have hwhole : payload.length = (generated request.offset.toNat payload.length).length :=
    (length_generated _ _).symm
  exact (List.append_inj (hlater.trans (List.append_nil _).symm) hwhole).1

theorem toNat_rangeRequest {offset : Nat} (h : offset < source.length.toNat) (requestId : UInt64)
    (length : Nat) :
    (source.rangeRequest requestId offset length).offset.toNat = offset ∧
      (source.rangeRequest requestId offset length).length.toNat = source.requested offset length := by
  have hsize := source.length.toNat_lt
  have hbounded := (source.requested_le offset length).2.1
  rw [maxProtocolRangeBytes] at hbounded
  constructor
  · exact UInt64.toNat_ofNat_of_lt' (by rw [UInt64.size]; omega)
  · exact UInt32.toNat_ofNat_of_lt' (by rw [UInt32.size]; omega)

theorem Honest.faithful (h : Honest config peer) (ids : Nat → UInt64) :
    FaithfulSource (source.reads ids peer) (generated 0 source.length.toNat) := by
  refine ⟨(length_generated _ _).symm, fun attempt offset length read buffer hlength hanswer => ?_⟩
  rw [length_generated]
  rcases TcpRangeSource.readAt_accepted hanswer with ⟨rfl, hnone⟩ |
    ⟨hinside, payload, haccepted, rfl, hbuffer⟩
  · exact ⟨fun hinside => by omega, fun _ => rfl⟩
  · obtain ⟨hoffset, hcount⟩ := toNat_rangeRequest hinside (ids attempt) length
    obtain ⟨hsame, hpayload, hbytes⟩ := h.accepted rfl haccepted
    obtain ⟨-, -, -, -, -, -, -, -, -, -, -, -, -, hpositive, hrequested⟩ := haccepted
    have hsmall := source.requested_le offset.toNat length
    rw [hoffset] at hbytes
    refine ⟨fun _ => ⟨hpositive, by omega, ?_⟩, fun hbeyond => by omega⟩
    rw [hbuffer, generated_part (by omega), ← hbytes]

theorem loopback_stream_refines_cursor {position : UInt64} {labels : List (StreamCall × StreamReply)}
    {streams : List VirtualStream} {ids : Nat → UInt64} (hpeer : Honest config peer)
    (hrun : Run StreamStep [⟨source.reads ids peer, position⟩] labels streams) :
    Run (CursorStep (source.reads ids peer)) [⟨generated 0 source.length.toNat, position.toNat⟩]
      labels (streams.map (·.cursor (generated 0 source.length.toNat))) := by
  have hinit : Stream.Shared (source.reads ids peer) [⟨source.reads ids peer, position⟩] := by
    simp [Stream.Shared]
  exact hrun.simulates (I := Stream.Shared (source.reads ids peer)) streamStep_shared
    (streamStep_cursorStep (hpeer.faithful ids)) hinit

def soloSource : TcpRangeSource :=
  ⟨.v4 ⟨[127, 0, 0, 1], rfl⟩ 9, soloConfig.fileId, 5, 3, rfl, by decide⟩

def soloPeer (request : RequestHeader) : NetworkReply :=
  if request = soloRequest then .connected (.bytewise soloWorker.output) .unexpectedEof
  else .unreachable .timedOut

theorem soloPeer_honest : Honest soloConfig fun _ => soloPeer := by
  intro attempt request received failure hpeer
  simp only [soloPeer] at hpeer
  split at hpeer
  · next hrequest =>
    cases hpeer
    refine ⟨soloEvents, soloWorld, soloWorld_run, soloWorker, ?_, ?_, ?_⟩
    · rw [soloWorld_workers]
      exact List.mem_singleton_self soloWorker
    · rw [hrequest]
      rfl
    · rw [ChunkReader.bytes_bytewise]
  · cases hpeer

def soloStream : VirtualStream := ⟨soloSource.reads (fun _ => 1) fun _ => soloPeer, 1⟩

theorem loopback_stream_refines_cursor_solo :
    TcpRangeSource.new soloSource.address soloConfig.fileId 5 3 1 1 = .ok soloSource ∧
    Run (CursorStep soloStream.source) [⟨generated 0 5, 1⟩]
      [(.read 0 0 false 3 true, (soloStream.read 0 false 3 true).1)]
      [(soloStream.read 0 false 3 true).2.cursor (generated 0 5)] :=
  ⟨rfl, loopback_stream_refines_cursor soloPeer_honest
    (Run.single (@StreamStep.read [soloStream] 0 soloStream 0 false 3 true rfl))⟩

end ClipFerry.Loopback
