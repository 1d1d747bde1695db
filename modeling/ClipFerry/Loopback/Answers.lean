import ClipFerry.Loopback.WorkerStep

namespace ClipFerry.Loopback

open Checked Server Transition VirtualTree

variable {config : LoopbackServerConfig} {choice : Choice} {shared shared' : Shared}
  {worker worker' : Worker} {request : RequestHeader} {response : ResponseHeader}
  {input output : List UInt8} {status : ResponseStatus} {requestId : UInt64} {length : UInt32}
  {active : Option RequestHeader} {written : Nat} {succeeded : Bool} {world world' : World}
  {event : Event} {events : List Event}

def Received (config : LoopbackServerConfig) (input : List UInt8) (request : RequestHeader) : Prop :=
  RequestHeader.decode (input.take requestHeaderLen) = some request ∧ request.fileId = config.fileId

def Ranged (config : LoopbackServerConfig) (input : List UInt8) (request : RequestHeader) : Prop :=
  Received config input request ∧ request.opcode = .readRange ∧
    request.length.toNat ≤ config.maxRangeBytes

inductive Due (config : LoopbackServerConfig) (input : List UInt8) :
    ResponseStatus → UInt64 → UInt32 → Option RequestHeader → Prop
  | malformed (h : RequestHeader.decode (input.take requestHeaderLen) = none) :
      Due config input .invalidRequest 0 0 none
  | unknown {request : RequestHeader}
      (h : RequestHeader.decode (input.take requestHeaderLen) = some request)
      (hfile : request.fileId ≠ config.fileId) :
      Due config input .fileNotFound request.requestId 0 none
  | control {request : RequestHeader} (h : Received config input request)
      (hopcode : request.opcode ≠ .readRange) : Due config input .ok request.requestId 0 none
  | oversized {request : RequestHeader} (h : Received config input request)
      (hopcode : request.opcode = .readRange)
      (hlarge : config.maxRangeBytes < request.length.toNat) :
      Due config input .invalidRequest request.requestId 0 none
  | cancelled {request : RequestHeader} (h : Ranged config input request) :
      Due config input .cancelled request.requestId 0 (some request)
  | range {request : RequestHeader} (h : Ranged config input request) :
      Due config input .ok request.requestId (payloadLength config request) (some request)

def fullReply (response : ResponseHeader) (active : Option RequestHeader) : List UInt8 :=
  response.encode ++ (match active with
    | none => []
    | some request =>
      if response.status = .ok then generated request.offset.toNat response.payloadLength.toNat
      else [])

def Answers (config : LoopbackServerConfig) (input reply : List UInt8) : Prop :=
  ∃ status requestId length active state, Due config input status requestId length active ∧
    reply = fullReply ⟨status, state, requestId, config.length, length⟩ active

def Delivered (config : LoopbackServerConfig) (input output : List UInt8) (succeeded : Bool) : Prop :=
  (∃ reply, Answers config input reply ∧ output <+: reply ∧ (succeeded = true → output = reply)) ∨
    (succeeded = false ∧ output = [])

def Partway (config : LoopbackServerConfig) (input output : List UInt8) (request : RequestHeader)
    (length written : Nat) : Prop :=
  Ranged config input request ∧ length = (payloadLength config request).toNat ∧ written ≤ length ∧
    ∃ state, output = (ResponseHeader.mk .ok state request.requestId config.length
      (payloadLength config request)).encode ++ generated request.offset.toNat written

def Stage.Sound (config : LoopbackServerConfig) (input output : List UInt8) : Stage → Prop
  | reading => output = []
  | commanding request => output = [] ∧ Received config input request ∧ request.opcode ≠ .readRange
  | admitting request | entering request | entered request _ | waiting request _ =>
    output = [] ∧ Ranged config input request
  | responding status requestId length active =>
    output = [] ∧ Due config input status requestId length active
  | writing response active =>
    output = [] ∧ Due config input response.status response.requestId response.payloadLength active ∧
      response.totalLength = config.length
  | streaming request length written => Partway config input output request length written
  | noting request length | covering request length | tallying request length
  | calling request length => Partway config input output request length length
  | leaving succeeded | ended succeeded | releasing succeeded | gone succeeded =>
    Delivered config input output succeeded

def Worker.Sound (config : LoopbackServerConfig) (worker : Worker) : Prop :=
  worker.stage.Sound config worker.input worker.output

theorem validateServerConfig_ok (h : validateServerConfig config = .ok ()) :
    0 < config.maxRangeBytes ∧ 0 < config.fragmentBytes ∧
      config.fragmentBytes ≤ config.maxRangeBytes ∧ config.maxRangeBytes ≤ maxProtocolRangeBytes ∧
      0 < config.maxWorkers ∧ config.maxWorkers ≤ maxConfiguredWorkers := by
  obtain ⟨hbounds, -⟩ := guard_eq_ok.mp h
  simp only [not_or] at hbounds
  omega

theorem toNat_payloadLength (config : LoopbackServerConfig) (request : RequestHeader) :
    (payloadLength config request).toNat =
      min (config.length.toNat - request.offset.toNat) request.length.toNat := by
  have hlength := request.length.toNat_lt
  rw [payloadLength, if_pos (by omega), UInt32.toNat_ofNat', Nat.mod_eq_of_lt (by omega)]

theorem fragment_eq (h : written < (payloadLength config request).toNat) :
    fragment config request (payloadLength config request).toNat written =
      generated (request.offset.toNat + written)
        (fragmentLength config (payloadLength config request).toNat written) := by
  have hsize := config.length.toNat_lt
  rw [toNat_payloadLength] at h
  rw [fragment, generated]
  apply List.map_congr_left
  intro index hindex
  rw [List.mem_range, fragmentLength, toNat_payloadLength] at hindex
  have hfits : saturatingAdd (saturatingAdd request.offset.toNat written) index =
      request.offset.toNat + written + index := by
    simp only [saturatingAdd]
    omega
  rw [hfits]

theorem fragmentLength_le (config : LoopbackServerConfig) (length written : Nat) :
    fragmentLength config length written ≤ length - written := Nat.min_le_left _ _

theorem fullReply_ok (h : response.status = .ok) :
    fullReply response (some request) =
      response.encode ++ generated request.offset.toNat response.payloadLength.toNat := by
  simp [fullReply, h]

theorem fullReply_header (h : active = none ∨ response.status ≠ .ok) :
    fullReply response active = response.encode := by
  rcases h with rfl | hstatus
  · simp [fullReply]
  · cases active <;> simp [fullReply, hstatus]

theorem Partway.answers {length : Nat}
    (h : Partway config input output request length written) :
    ∃ reply, Answers config input reply ∧ output <+: reply ∧ (written = length → output = reply) := by
  obtain ⟨hranged, rfl, hwritten, state, rfl⟩ := h
  refine ⟨_, ⟨_, _, _, _, state, .range hranged, rfl⟩, ?_, ?_⟩
  · rw [fullReply_ok rfl, List.prefix_append_right_inj]
    obtain ⟨rest, hrest⟩ := Nat.exists_eq_add_of_le hwritten
    rw [hrest, generated_add]
    exact List.prefix_append _ _
  · intro hall
    rw [fullReply_ok rfl, hall]

theorem Partway.stream
    (h : Partway config input output request (payloadLength config request).toNat written)
    (hmore : written < (payloadLength config request).toNat) :
    Partway config input
      (output ++ fragment config request (payloadLength config request).toNat written) request
      (payloadLength config request).toNat
      (written + fragmentLength config (payloadLength config request).toNat written) := by
  obtain ⟨hranged, -, -, state, rfl⟩ := h
  have hle := fragmentLength_le config (payloadLength config request).toNat written
  refine ⟨hranged, rfl, by omega, state, ?_⟩
  rw [fragment_eq hmore, List.append_assoc, ← generated_add]

theorem handleConnection_sound (config : LoopbackServerConfig) (input : List UInt8) :
    (handleConnection config (input.take requestHeaderLen)).Sound config input [] := by
  rw [handleConnection]
  cases hdecode : RequestHeader.decode (input.take requestHeaderLen) with
  | none => exact ⟨rfl, .malformed hdecode⟩
  | some request =>
    dsimp only
    split
    · next hfile => exact ⟨rfl, .unknown hdecode hfile⟩
    · next hfile =>
      have hreceived : Received config input request := ⟨hdecode, not_not.mp hfile⟩
      cases hopcode : request.opcode with
      | pause | resume | cancel => exact ⟨rfl, hreceived, by rw [hopcode]; decide⟩
      | status => exact ⟨rfl, .control hreceived (by rw [hopcode]; decide)⟩
      | readRange =>
        dsimp only [serveRange]
        split
        · next hlarge => exact ⟨rfl, .oversized hreceived hopcode hlarge⟩
        · next hfits => exact ⟨rfl, hreceived, hopcode, Nat.not_lt.mp hfits⟩

theorem Due.ranged (h : Due config input .ok requestId length (some request)) :
    Ranged config input request ∧ requestId = request.requestId ∧
      length = payloadLength config request := by
  cases h with
  | range hranged => exact ⟨hranged, rfl, rfl⟩

theorem Due.full (h : Due config input response.status response.requestId response.payloadLength
    active) (htotal : response.totalLength = config.length) :
    Answers config input (fullReply response active) := by
  refine ⟨_, _, _, _, response.state, h, ?_⟩
  rw [← htotal]

theorem afterHeader_sound (h : Due config input response.status response.requestId
    response.payloadLength active) (htotal : response.totalLength = config.length) :
    (afterHeader response active).Sound config input response.encode := by
  have hfull := h.full htotal
  cases active with
  | none =>
    refine .inl ⟨_, hfull, ?_, fun _ => ?_⟩
    · rw [fullReply_header (.inl rfl)]
    · rw [fullReply_header (.inl rfl)]
  | some request =>
    rw [afterHeader]
    split
    · next hok =>
      obtain ⟨status, state, requestId, totalLength, length⟩ := response
      obtain rfl : status = .ok := hok
      obtain rfl : totalLength = config.length := htotal
      obtain ⟨hranged, hid, hlength⟩ := Due.ranged h
      dsimp only at hid hlength
      refine ⟨hranged, congrArg UInt32.toNat hlength, Nat.zero_le _, state, ?_⟩
      rw [hid, hlength]
      simp [generated]
    · next hother =>
      refine .inl ⟨_, hfull, ?_, fun _ => ?_⟩
      · rw [fullReply_header (.inr hother)]
      · rw [fullReply_header (.inr hother)]

theorem failure_sound (h : Delivered config input output false) :
    (failure active).Sound config input output := by
  cases active <;> exact h

theorem WorkerStep.sound (h : WorkerStep config choice shared worker shared' worker')
    (hs : worker.Sound config) : worker'.Sound config := by
  cases h with
  | unread => exact .inr ⟨rfl, hs⟩
  | @read input output hwhole =>
    obtain rfl : output = [] := hs
    exact handleConnection_sound config input
  | command =>
    obtain ⟨hempty, hreceived, hopcode⟩ := hs
    exact ⟨hempty, .control hreceived hopcode⟩
  | grant => exact hs
  | enter => exact hs
  | raise => exact hs
  | sleep => exact hs
  | timeout => exact ⟨hs.1, .range hs.2⟩
  | proceed => exact ⟨hs.1, .range hs.2⟩
  | cancel => exact ⟨hs.1, .cancelled hs.2⟩
  | respond => exact ⟨hs.1, hs.2, rfl⟩
  | write =>
    obtain ⟨rfl, hdue, htotal⟩ := hs
    exact afterHeader_sound hdue htotal
  | writeFailed hpart =>
    obtain ⟨rfl, hdue, htotal⟩ := hs
    refine failure_sound (.inl ⟨_, hdue.full htotal, ?_, fun h => by cases h⟩)
    exact hpart.trans (List.prefix_append _ _)
  | stream hmore =>
    obtain ⟨-, rfl, -⟩ := id hs
    exact hs.stream hmore
  | @streamFailed input output part request length written hmore hpart =>
    obtain ⟨-, rfl, -⟩ := id hs
    obtain ⟨reply, hreply, hfront, -⟩ := (hs.stream hmore).answers
    refine .inl ⟨reply, hreply, ?_, fun h => by cases h⟩
    exact ((List.prefix_append_right_inj output).mpr hpart).trans hfront
  | @streamed input output request length written hdone =>
    obtain rfl : written = length := Nat.le_antisymm hs.2.2.1 hdone
    exact hs
  | note => exact hs
  | cover => exact hs
  | tally => exact hs
  | call =>
    obtain ⟨reply, hreply, hfront, hall⟩ := hs.answers
    exact .inl ⟨reply, hreply, hfront, fun _ => hall rfl⟩
  | leave => exact hs
  | finish => exact hs
  | fail => exact hs
  | release => exact hs

def World.Sound (config : LoopbackServerConfig) (world : World) : Prop :=
  ∀ worker ∈ world.workers, worker.Sound config

theorem AcceptorStep.sound (h : AcceptorStep config world world') (hs : world.Sound config) :
    world'.Sound config := by
  cases h with
  | spawn input hstarting =>
    intro worker hworker
    rcases List.mem_append.mp hworker with hold | hnew
    · exact hs worker hold
    · obtain rfl := List.mem_singleton.mp hnew
      exact rfl
  | accept | close | refused | started | refuse | spawnFailed | abandon => exact hs

theorem WorldStep.sound (hs : world.Sound config) (h : WorldStep config world event world') :
    world'.Sound config := by
  rcases worldStep_cases h with hacceptor | ⟨opcode, -, rfl⟩ | ⟨-, rfl⟩ |
    ⟨index, choice, worker, shared', worker', -, hworker, hstep, rfl⟩
  · exact hacceptor.sound hs
  · exact hs
  · exact hs
  · intro other hother
    rcases List.mem_or_eq_of_mem_set hother with hold | rfl
    · exact hs other hold
    · exact hstep.sound (hs worker (List.mem_of_getElem? hworker))

theorem world_sound (h : Run (WorldStep config) .start events world) : world.Sound config :=
  h.invariant (I := World.Sound config) (fun hs hstep => WorldStep.sound hs hstep)
    fun _ hworker => absurd hworker List.not_mem_nil

theorem Stage.Sound.delivered {stage : Stage} (h : stage.Sound config input output) :
    ∃ reply, (output = [] ∨ Answers config input reply) ∧ output <+: reply := by
  cases stage with
  | reading => exact ⟨[], .inl h, by rw [show output = [] from h]⟩
  | commanding request | admitting request | entering request | entered request current
  | waiting request wait | responding status requestId length active | writing response active =>
    exact ⟨[], .inl h.1, by rw [h.1]⟩
  | streaming request length written =>
    obtain ⟨reply, hreply, hfront, -⟩ := Partway.answers h
    exact ⟨reply, .inr hreply, hfront⟩
  | noting request length | covering request length | tallying request length
  | calling request length =>
    obtain ⟨reply, hreply, hfront, -⟩ := Partway.answers h
    exact ⟨reply, .inr hreply, hfront⟩
  | leaving succeeded | ended succeeded | releasing succeeded | gone succeeded =>
    rcases h with ⟨reply, hreply, hfront, -⟩ | ⟨-, hempty⟩
    · exact ⟨reply, .inr hreply, hfront⟩
    · exact ⟨[], .inl hempty, by rw [hempty]⟩

def soloConfig : LoopbackServerConfig := ⟨5, (Protocol.repeatedId 1).bytes, 4, 2, 0, 1, 1⟩

def soloRequest : RequestHeader := ⟨.readRange, 1, soloConfig.fileId, 1, 3⟩

def soloEvents : List Event :=
  [.accept, .tryStart, .spawn soloRequest.encode] ++ List.replicate 17 (.worker 0 .go)

def soloWorld : World := (soloEvents.foldlM (World.next soloConfig) .start).getD .start

theorem soloWorld_run : Run (WorldStep soloConfig) .start soloEvents soloWorld :=
  World.run_of_foldlM rfl

def soloWorker : Worker where
  input := soloRequest.encode
  output := (ResponseHeader.mk .ok .running 1 5 3).encode ++
    [generatedByte 1, generatedByte 2, generatedByte 3]
  stage := .gone true

theorem soloWorld_workers : soloWorld.workers = [soloWorker] := rfl

end ClipFerry.Loopback
