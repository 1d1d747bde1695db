import ClipFerry.Client.CommandConnection

namespace ClipFerry.Client

open Checked Position Protocol Transition

def conversation (done : List (WireRequest × Frame)) : List WireEvent :=
  done.flatMap fun exchange => [.request exchange.1, .answer exchange.2]

def frameBytes (frame : Frame) : List UInt8 :=
  match writeFrame frame with
  | .ok bytes => bytes
  | .error _ => []

def onLane (channel : Channel) (request : WireRequest) : Prop :=
  request.greeting = false → Channel.carrying request.opcode = channel

structure Carried (connection : CommandConnection) (done : List (WireRequest × Frame))
    (rest : List UInt8) : Prop where
  received : connection.received = (done.flatMap fun exchange => frameBytes exchange.2) ++ rest
  whole : ∀ exchange ∈ done, writeFrame exchange.2 = .ok (frameBytes exchange.2)
  answers : ∀ exchange ∈ done, exchange.2.opcode = responseOpcode exchange.1.opcode ∧
    exchange.2.requestId = exchange.1.requestId
  lane : ∀ exchange ∈ done, onLane connection.channel exchange.1

structure Clean (channel : Channel) (connection : CommandConnection) : Prop where
  placed : connection.channel = channel
  talked : ∃ done, connection.events = conversation done ∧ Carried connection done connection.inbox

structure Busy (channel : Channel) (connection : CommandConnection) (request : WireRequest) : Prop where
  placed : connection.channel = channel
  lane : onLane channel request
  talked : ∃ done, connection.events = conversation done ++ [.request request] ∧
    Carried connection done connection.inbox

def Broken (connection : CommandConnection) : Prop :=
  ∃ done request rest, connection.events = conversation done ++ [.request request, .failed] ∧
    Carried connection done rest ∧ onLane connection.channel request

structure Extends (connection connection' : CommandConnection) : Prop where
  channel : connection'.channel = connection.channel
  events : connection.events <+: connection'.events
  received : connection.received <+: connection'.received

variable {channel : Channel} {connection connection' : CommandConnection} {request : WireRequest}
  {frame : Frame} {rest bytes payload : List UInt8} {done : List (WireRequest × Frame)}

theorem conversation_concat (done : List (WireRequest × Frame)) (request : WireRequest)
    (frame : Frame) : conversation (done ++ [(request, frame)]) =
      conversation done ++ [.request request, .answer frame] := by
  simp [conversation]

theorem frameBytes_eq (h : writeFrame frame = .ok bytes) : frameBytes frame = bytes := by
  rw [frameBytes, h]

theorem Carried.concat (h : Carried connection done connection.inbox)
    (hread : readFrame connection.inbox = .ok (frame, rest))
    (hopcode : frame.opcode = responseOpcode request.opcode)
    (hid : frame.requestId = request.requestId) (hlane : onLane connection.channel request) :
    Carried (connection.answered frame rest) (done ++ [(request, frame)]) rest := by
  obtain ⟨bytes, hwrite, hinbox⟩ := readFrame_eq_ok hread
  have hbytes := frameBytes_eq hwrite
  have hlast : ∀ {P : WireRequest × Frame → Prop}, (∀ exchange ∈ done, P exchange) →
      P (request, frame) → ∀ exchange ∈ done ++ [(request, frame)], P exchange := by
    intro P hdone hnew exchange hexchange
    rcases List.mem_append.mp hexchange with hold | hsame
    · exact hdone exchange hold
    · rw [List.mem_singleton] at hsame
      exact hsame ▸ hnew
  refine ⟨?_, hlast h.whole (by rw [hbytes, hwrite]), hlast h.answers ⟨hopcode, hid⟩,
    hlast h.lane hlane⟩
  have hreceived := h.received
  rw [hinbox] at hreceived
  simp [CommandConnection.answered, CommandConnection.record, hreceived, hbytes]

namespace Extends

theorem refl (connection : CommandConnection) : Extends connection connection :=
  ⟨rfl, List.prefix_refl _, List.prefix_refl _⟩

theorem record (connection : CommandConnection) (event : WireEvent) :
    Extends connection (connection.record event) :=
  ⟨rfl, List.prefix_append _ _, List.prefix_refl _⟩

theorem write (connection : CommandConnection) (bytes : List UInt8) :
    Extends connection (connection.write bytes) := ⟨rfl, List.prefix_refl _, List.prefix_refl _⟩

theorem arrive (connection : CommandConnection) (bytes : List UInt8) :
    Extends connection (connection.arrive bytes) := ⟨rfl, List.prefix_refl _, List.prefix_append _ _⟩

theorem answered (connection : CommandConnection) (frame : Frame) (rest : List UInt8) :
    Extends connection (connection.answered frame rest) :=
  ⟨rfl, List.prefix_append _ _, List.prefix_refl _⟩

theorem broken (connection : CommandConnection) (written rest : List UInt8) :
    Extends connection (connection.broken written rest) :=
  ⟨rfl, List.prefix_append _ _, List.prefix_refl _⟩

end Extends

namespace Clean

theorem opened (channel : Channel) : Clean channel (.opened channel) where
  placed := rfl
  talked := ⟨[], rfl, ⟨rfl, nofun, nofun, nofun⟩⟩

theorem asked (h : Clean channel connection) (request : WireRequest)
    (hlane : onLane channel request) :
    Busy channel (connection.record (.request request)) request where
  placed := h.placed
  lane := hlane
  talked := by
    obtain ⟨done, hevents, hcarried⟩ := h.talked
    refine ⟨done, ?_, ⟨hcarried.received, hcarried.whole, hcarried.answers, hcarried.lane⟩⟩
    rw [← hevents]
    rfl

theorem arrive (h : Clean channel connection) (bytes : List UInt8) :
    Clean channel (connection.arrive bytes) where
  placed := h.placed
  talked := by
    obtain ⟨done, hevents, hcarried⟩ := h.talked
    refine ⟨done, hevents, ⟨?_, hcarried.whole, hcarried.answers, hcarried.lane⟩⟩
    simp [CommandConnection.arrive, hcarried.received]

end Clean

namespace Busy

theorem write (h : Busy channel connection request) (bytes : List UInt8) :
    Busy channel (connection.write bytes) request where
  placed := h.placed
  lane := h.lane
  talked := by
    obtain ⟨done, hevents, hcarried⟩ := h.talked
    exact ⟨done, hevents, ⟨hcarried.received, hcarried.whole, hcarried.answers, hcarried.lane⟩⟩

theorem arrive (h : Busy channel connection request) (bytes : List UInt8) :
    Busy channel (connection.arrive bytes) request where
  placed := h.placed
  lane := h.lane
  talked := by
    obtain ⟨done, hevents, hcarried⟩ := h.talked
    refine ⟨done, hevents, ⟨?_, hcarried.whole, hcarried.answers, hcarried.lane⟩⟩
    simp [CommandConnection.arrive, hcarried.received]

theorem answered_talked (h : Busy channel connection request)
    (hread : readFrame connection.inbox = .ok (frame, rest))
    (hopcode : frame.opcode = responseOpcode request.opcode)
    (hid : frame.requestId = request.requestId) :
    ∃ done, (connection.answered frame rest).events = conversation (done ++ [(request, frame)]) ∧
      Carried (connection.answered frame rest) (done ++ [(request, frame)]) rest := by
  obtain ⟨done, hevents, hcarried⟩ := h.talked
  refine ⟨done, ?_, hcarried.concat hread hopcode hid (h.placed ▸ h.lane)⟩
  rw [conversation_concat]
  simp [CommandConnection.answered, CommandConnection.record, hevents]

theorem answered (h : Busy channel connection request)
    (hread : readFrame connection.inbox = .ok (frame, rest))
    (hopcode : frame.opcode = responseOpcode request.opcode)
    (hid : frame.requestId = request.requestId) :
    Clean channel (connection.answered frame rest) where
  placed := h.placed
  talked := by
    obtain ⟨done, hevents, hcarried⟩ := h.answered_talked hread hopcode hid
    exact ⟨_, hevents, hcarried⟩

theorem broken (h : Busy channel connection request) (written rest : List UInt8) :
    Broken (connection.broken written rest) := by
  obtain ⟨done, hevents, hcarried⟩ := h.talked
  refine ⟨done, request, connection.inbox, ?_,
    ⟨hcarried.received, hcarried.whole, hcarried.answers, hcarried.lane⟩, h.placed ▸ h.lane⟩
  simp [CommandConnection.broken, CommandConnection.record, CommandConnection.write, hevents]

end Busy

theorem helloResult_eq_ok (h : helloResult request frame = .ok ()) :
    frame.opcode = responseOpcode .hello ∧ frame.requestId = request.requestId := by
  rw [helloResult, guard_eq_ok] at h
  simp only [not_or, not_not] at h
  exact ⟨h.1.1, h.1.2.1⟩

theorem exchangeResult_eq_ok (h : exchangeResult request frame = .ok payload) :
    frame.opcode = responseOpcode request.opcode ∧ frame.requestId = request.requestId ∧
      frame.payload = payload := by
  rw [exchangeResult, guard_eq_ok] at h
  simp only [not_or, not_not] at h
  exact ⟨h.1.1, h.1.2, Except.ok.inj h.2⟩

def Held (k : Nat) (opcode : Opcode) (slot : CommandSlot) : CommandPhase → Prop
  | .waiting | .returned _ => True
  | .locked => slot.holder = some k ∧
      ∀ connection, slot.connection = some connection → Clean (.carrying opcode) connection
  | .hello connection request _ => slot.holder = some k ∧ slot.connection = none ∧
      request.opcode = .hello ∧ Busy (.carrying opcode) connection request
  | .exchanging request _ => slot.holder = some k ∧ request.caller = k ∧ request.greeting = false ∧
      request.opcode = opcode ∧
        ∃ connection, slot.connection = some connection ∧ Busy (.carrying opcode) connection request

def Rest (channel : Channel) (slot : CommandSlot) : Prop :=
  slot.holder = none → ∀ connection, slot.connection = some connection → Clean channel connection

structure Kept (k : Nat) (call : CommandCall) (slot : CommandSlot) (effect : CommandEffect) : Prop where
  held : Held k call.opcode effect.slot effect.phase
  rest : Rest call.channel effect.slot
  dropped : ∀ connection ∈ effect.dropped, Broken connection
  locked : effect.slot = slot ∨ slot.holder = none ∨ slot.holder = some k

variable {k : Nat} {call : CommandCall} {next : UInt64} {slot : CommandSlot}
  {effect : CommandEffect} {error : IoError} {dropped : List CommandConnection}

theorem Kept.failing (hholder : slot.holder = some k)
    (hdropped : ∀ connection ∈ dropped, Broken connection) :
    Kept k call slot (.failing error dropped) where
  held := trivial
  rest := nofun
  dropped := hdropped
  locked := .inr (.inr hholder)

theorem Held.busy {sent : Bool} (h : Held k call.opcode slot (.exchanging request sent))
    (hsome : slot.connection = some connection) : Busy call.channel connection request := by
  obtain ⟨-, -, -, -, found, hfound, hbusy⟩ := h
  rw [hsome] at hfound
  cases hfound
  exact hbusy

theorem CommandMove.kept (hheld : Held k call.opcode slot call.phase)
    (hrest : Rest call.channel slot) (h : CommandMove k call next slot effect) :
    Kept k call slot effect := by
  cases h with
  | refuse error hphase => exact ⟨trivial, hrest, nofun, .inl rfl⟩
  | lock hphase hfree => exact ⟨⟨rfl, hrest hfree⟩, nofun, nofun, .inr (.inl hfree)⟩
  | unreachable error hphase hnone =>
    rw [hphase] at hheld
    exact .failing hheld.1 nofun
  | connect hphase hnone =>
    rw [hphase] at hheld
    have hbusy := (Clean.opened call.channel).asked ⟨k, true, .hello, next⟩ nofun
    exact ⟨⟨hheld.1, hnone, rfl, hbusy⟩, hrest, nofun, .inl rfl⟩
  | greet nonce hphase hwrite =>
    rw [hphase] at hheld
    obtain ⟨hholder, hnone, hopcode, hbusy⟩ := hheld
    exact ⟨⟨hholder, hnone, hopcode, hbusy.write _⟩, hrest, nofun, .inl rfl⟩
  | acknowledged hphase hread hresult =>
    rw [hphase] at hheld
    obtain ⟨hholder, hnone, hopcode, hbusy⟩ := hheld
    obtain ⟨hanswer, hid⟩ := helloResult_eq_ok hresult
    have hclean := hbusy.answered hread (hopcode ▸ hanswer) hid
    refine ⟨⟨hholder, ?_⟩, ?_, nofun, .inr (.inr hholder)⟩
    · rintro _ ⟨⟩
      exact hclean
    · rintro - _ ⟨⟩
      exact hclean
  | notAcknowledged hphase hread hresult =>
    rw [hphase] at hheld
    obtain ⟨hholder, -, -, hbusy⟩ := hheld
    exact .failing hholder (by simpa using hbusy.broken _ _)
  | helloBreaks error written rest hphase =>
    rw [hphase] at hheld
    obtain ⟨hholder, -, -, hbusy⟩ := hheld
    exact .failing hholder (by simpa using hbusy.broken _ _)
  | @draw connection hphase hsome =>
    rw [hphase] at hheld
    obtain ⟨hholder, hclean⟩ := hheld
    have hbusy := (hclean connection hsome).asked ⟨k, false, call.opcode, next⟩
      fun _ => rfl
    refine ⟨⟨hholder, rfl, rfl, rfl, _, rfl, hbusy⟩, fun hfree => ?_, nofun, .inr (.inr hholder)⟩
    rw [hholder] at hfree
    cases hfree
  | send hphase hsome hwrite =>
    rw [hphase] at hheld
    obtain ⟨hholder, hcaller, hgreeting, hopcode, -⟩ := id hheld
    refine ⟨⟨hholder, hcaller, hgreeting, hopcode, _, rfl, (hheld.busy hsome).write _⟩,
      fun hfree => ?_, nofun, .inr (.inr hholder)⟩
    rw [hholder] at hfree
    cases hfree
  | matched hphase hsome hread hresult =>
    rw [hphase] at hheld
    obtain ⟨hanswer, hid, -⟩ := exchangeResult_eq_ok hresult
    refine ⟨trivial, ?_, nofun, .inr (.inr hheld.1)⟩
    rintro - _ ⟨⟩
    exact (hheld.busy hsome).answered hread hanswer hid
  | mismatched hphase hsome hread hresult =>
    rw [hphase] at hheld
    exact .failing hheld.1 (by simpa using (hheld.busy hsome).broken _ _)
  | exchangeBreaks error written rest hphase hsome =>
    rw [hphase] at hheld
    exact .failing hheld.1 (by simpa using (hheld.busy hsome).broken _ _)

def Talking (channel : Channel) (connection : CommandConnection) : Prop :=
  Clean channel connection ∨ ∃ request, Busy channel connection request

theorem CommandMove.talking (hheld : Held k call.opcode slot call.phase)
    (hrest : Rest call.channel slot)
    (htalking : ∀ connection, slot.connection = some connection → Talking call.channel connection)
    (h : CommandMove k call next slot effect) :
    ∀ connection, effect.slot.connection = some connection → Talking call.channel connection := by
  have hkept := h.kept hheld hrest
  intro connection hconnection
  cases h with
  | refuse | connect | greet => exact htalking connection hconnection
  | lock | acknowledged => exact .inl (hkept.held.2 connection hconnection)
  | draw | send => exact .inr ⟨_, hkept.held.busy hconnection⟩
  | matched => exact .inl (hkept.rest rfl connection hconnection)
  | unreachable | notAcknowledged | helloBreaks | mismatched | exchangeBreaks => cases hconnection

structure Steady (world : CommandWorld) : Prop where
  held : ∀ k call, world.calls[k]? = some call →
    Held k call.opcode (world.slots call.channel) call.phase
  rest : ∀ channel, Rest channel (world.slots channel)
  talking : ∀ channel connection, (world.slots channel).connection = some connection →
    Talking channel connection
  dropped : ∀ connection ∈ world.dropped, Broken connection

variable {world world' : CommandWorld}

theorem Held.elsewhere {j : Nat} {opcode : Opcode} {phase : CommandPhase} {slot' : CommandSlot}
    (h : Held j opcode slot phase) (hother : j ≠ k)
    (hlocked : slot' = slot ∨ slot.holder = none ∨ slot.holder = some k) :
    Held j opcode slot' phase := by
  have hsame : slot.holder = some j → slot' = slot := by
    intro hholder
    rcases hlocked with hsame | hfree | hheld
    · exact hsame
    · rw [hholder] at hfree
      cases hfree
    · rw [hholder] at hheld
      exact absurd (Option.some.inj hheld) hother
  cases phase with
  | waiting | returned => exact trivial
  | locked | hello | exchanging =>
    rw [hsame h.1]
    exact h

theorem Held.arrive {phase : CommandPhase} (h : Held k call.opcode slot phase)
    (hsome : slot.connection = some connection) (bytes : List UInt8) :
    Held k call.opcode ⟨slot.holder, some (connection.arrive bytes)⟩ phase := by
  cases phase with
  | waiting | returned => exact trivial
  | locked =>
    refine ⟨h.1, ?_⟩
    rintro _ ⟨⟩
    exact (h.2 connection hsome).arrive bytes
  | hello =>
    rw [h.2.1] at hsome
    cases hsome
  | exchanging request sent =>
    exact ⟨h.1, h.2.1, h.2.2.1, h.2.2.2.1, _, rfl, (h.busy hsome).arrive bytes⟩

theorem Talking.arrive (h : Talking channel connection) (bytes : List UInt8) :
    Talking channel (connection.arrive bytes) :=
  h.imp (·.arrive bytes) fun ⟨request, hbusy⟩ => ⟨request, hbusy.arrive bytes⟩

theorem not_called {k : Nat} (h : CommandWorld.start.calls[k]? = some call) : False :=
  List.not_mem_nil (List.mem_of_getElem? h)

theorem Steady.start : Steady .start where
  held := fun _ _ hcall => (not_called hcall).elim
  rest := nofun
  talking := nofun
  dropped := nofun

theorem Steady.step {label : CommandLabel} (hsteady : Steady world)
    (h : CommandStep world label world') : Steady world' := by
  cases h with
  | call opcode payload =>
    refine ⟨fun j found hfound => ?_, hsteady.rest, hsteady.talking, hsteady.dropped⟩
    rcases concat_cases hfound with hold | ⟨-, rfl⟩
    · exact hsteady.held j found hold
    · exact trivial
  | @arrive channel connection bytes hsome =>
    refine ⟨fun j found hfound => ?_, fun lane => ?_, fun lane => ?_, hsteady.dropped⟩
    · have hheld := hsteady.held j found hfound
      rw [CommandWorld.slots_setSlot]
      split
      · next hlane =>
        rw [hlane] at hheld
        exact hheld.arrive hsome bytes
      · exact hheld
    · rw [CommandWorld.slots_setSlot]
      split
      · next hlane =>
        rintro hfree _ ⟨⟩
        exact hlane ▸ ((hsteady.rest channel) hfree connection hsome).arrive bytes
      · exact hsteady.rest lane
    · rw [CommandWorld.slots_setSlot]
      split
      · next hlane =>
        rintro _ ⟨⟩
        exact hlane ▸ (hsteady.talking channel connection hsome).arrive bytes
      · exact hsteady.talking lane
  | @arriveHello k call connection request written bytes hcall hphase =>
    refine ⟨fun j found hfound => ?_, hsteady.rest, hsteady.talking, hsteady.dropped⟩
    rcases set_cases hfound with ⟨rfl, rfl⟩ | ⟨-, hold⟩
    · have hheld := hsteady.held j call hcall
      rw [hphase] at hheld
      obtain ⟨hholder, hnone, hopcode, hbusy⟩ := hheld
      exact ⟨hholder, hnone, hopcode, hbusy.arrive bytes⟩
    · exact hsteady.held j found hold
  | @move k call effect hcall hmove =>
    have hkept := hmove.kept (hsteady.held k call hcall) (hsteady.rest call.channel)
    have htalking := hmove.talking (hsteady.held k call hcall) (hsteady.rest call.channel)
      (hsteady.talking call.channel)
    refine ⟨fun j found hfound => ?_, fun lane => ?_, fun lane => ?_, fun connection hconnection => ?_⟩
    · rw [CommandWorld.slots_apply]
      rcases set_cases hfound with ⟨rfl, rfl⟩ | ⟨hother, hold⟩
      · change Held j call.opcode (if call.channel = call.channel then effect.slot else _) effect.phase
        rw [if_pos rfl]
        exact hkept.held
      · have hheld := hsteady.held j found hold
        split
        · next hlane =>
          rw [hlane] at hheld
          exact hheld.elsewhere hother hkept.locked
        · exact hheld
    · rw [CommandWorld.slots_apply]
      split
      · next hlane =>
        rw [hlane]
        exact hkept.rest
      · exact hsteady.rest lane
    · rw [CommandWorld.slots_apply]
      split
      · next hlane =>
        rw [hlane]
        exact htalking
      · exact hsteady.talking lane
    · rcases List.mem_append.mp hconnection with hold | hnew
      · exact hsteady.dropped connection hold
      · exact hkept.dropped connection hnew

def Drew (drawn : List WireRequest) (k : Nat) : CommandPhase → Prop
  | .exchanging request _ => request ∈ drawn ∧
      ∀ other ∈ drawn, other.caller = k → other.greeting = false → other = request
  | .returned _ => ∀ request ∈ drawn, ∀ other ∈ drawn, request.caller = k → other.caller = k →
      request.greeting = false → other.greeting = false → other = request
  | .waiting | .locked | .hello _ _ _ => ∀ request ∈ drawn, request.caller = k → request.greeting = true

variable {drawn fresh : List WireRequest} {phase : CommandPhase}

theorem Drew.append (h : Drew drawn k phase)
    (hfresh : ∀ request ∈ fresh, request.caller = k → request.greeting = true) :
    Drew (drawn ++ fresh) k phase := by
  have hold : ∀ request ∈ drawn ++ fresh, request.caller = k → request.greeting = false →
      request ∈ drawn := by
    intro request hmem hcaller hgreeting
    refine (List.mem_append.mp hmem).resolve_right fun hnew => ?_
    rw [hfresh request hnew hcaller] at hgreeting
    cases hgreeting
  cases phase with
  | exchanging request sent =>
    exact ⟨List.mem_append_left _ h.1, fun other hmem hcaller hgreeting =>
      h.2 other (hold other hmem hcaller hgreeting) hcaller hgreeting⟩
  | returned result =>
    intro request hrequest other hother hcaller hcaller' hgreeting hgreeting'
    exact h request (hold request hrequest hcaller hgreeting) other
      (hold other hother hcaller' hgreeting') hcaller hcaller' hgreeting hgreeting'
  | waiting | locked | hello =>
    intro request hmem hcaller
    rcases List.mem_append.mp hmem with hmem | hmem
    · exact h request hmem hcaller
    · exact hfresh request hmem hcaller

theorem CommandMove.drawn_cases (h : CommandMove k call next slot effect) :
    effect.drawn = [] ∨ ∃ greeting opcode, effect.drawn = [⟨k, greeting, opcode, next⟩] := by
  cases h with
  | connect | draw => exact .inr ⟨_, _, rfl⟩
  | _ => exact .inl rfl

theorem Drew.returned {result : Except IoError (List UInt8)} (h : Drew drawn k phase) :
    Drew drawn k (.returned result) := by
  intro request hrequest other hother hcaller hcaller' hgreeting hgreeting'
  cases phase with
  | exchanging =>
    rw [h.2 request hrequest hcaller hgreeting, h.2 other hother hcaller' hgreeting']
  | returned => exact h request hrequest other hother hcaller hcaller' hgreeting hgreeting'
  | waiting | locked | hello =>
    rw [h request hrequest hcaller] at hgreeting
    cases hgreeting

theorem CommandMove.drew (hdrew : Drew drawn k call.phase) (h : CommandMove k call next slot effect) :
    Drew (drawn ++ effect.drawn) k effect.phase := by
  cases h with
  | connect hphase hnone =>
    rw [hphase] at hdrew
    have hgreeted : Drew drawn k (.hello ((CommandConnection.opened call.channel).record
        (.request ⟨k, true, .hello, next⟩)) ⟨k, true, .hello, next⟩ false) := hdrew
    exact hgreeted.append (by simp)
  | draw hphase hsome =>
    rw [hphase] at hdrew
    refine ⟨by simp, fun other hother hcaller hgreeting => ?_⟩
    rcases List.mem_append.mp hother with hold | hnew
    · rw [hdrew other hold hcaller] at hgreeting
      cases hgreeting
    · exact List.mem_singleton.mp hnew
  | lock hphase | greet nonce hphase | acknowledged hphase | send hphase =>
    rw [hphase] at hdrew
    rw [List.append_nil]
    exact hdrew
  | refuse | unreachable | notAcknowledged | helloBreaks | matched | mismatched | exchangeBreaks =>
    simpa [CommandEffect.failing] using hdrew.returned

structure Numbered (world : CommandWorld) : Prop where
  next : world.nextRequestId = .ofNat (world.drawn.length + 1)
  ids : world.drawn.map (·.requestId) =
    (List.range world.drawn.length).map fun i => UInt64.ofNat (i + 1)
  callers : ∀ request ∈ world.drawn, request.caller < world.calls.length
  drew : ∀ k call, world.calls[k]? = some call → Drew world.drawn k call.phase

theorem Numbered.start : Numbered .start where
  next := rfl
  ids := rfl
  callers := nofun
  drew := fun _ _ hcall => (not_called hcall).elim

theorem Numbered.step {label : CommandLabel} (hnumbered : Numbered world)
    (h : CommandStep world label world') : Numbered world' := by
  cases h with
  | call opcode payload =>
    refine ⟨hnumbered.next, hnumbered.ids, fun request hrequest => ?_, fun j found hfound => ?_⟩
    · have hlt := hnumbered.callers request hrequest
      rw [List.length_append]
      omega
    · rcases concat_cases hfound with hold | ⟨rfl, rfl⟩
      · exact hnumbered.drew j found hold
      · intro request hrequest hcaller
        have hlt := hnumbered.callers request hrequest
        rw [hcaller] at hlt
        exact absurd hlt (Nat.lt_irrefl _)
  | arrive => exact ⟨hnumbered.next, hnumbered.ids, hnumbered.callers, hnumbered.drew⟩
  | @arriveHello k call connection request written bytes hcall hphase =>
    refine ⟨hnumbered.next, hnumbered.ids, fun request hrequest => ?_, fun j found hfound => ?_⟩
    · rw [CommandWorld.setPhase, List.length_set]
      exact hnumbered.callers request hrequest
    · rcases set_cases hfound with ⟨rfl, rfl⟩ | ⟨-, hold⟩
      · have hdrew := hnumbered.drew j call hcall
        rw [hphase] at hdrew
        exact hdrew
      · exact hnumbered.drew j found hold
  | @move k call effect hcall hmove =>
    have hlt := (List.getElem?_eq_some_iff.mp hcall).1
    have hfresh := hmove.drawn_cases
    refine ⟨?_, ?_, fun request hrequest => ?_, fun j found hfound => ?_⟩
    · change world.nextRequestId + .ofNat effect.drawn.length =
        .ofNat ((world.drawn ++ effect.drawn).length + 1)
      rw [hnumbered.next, ← UInt64.ofNat_add, List.length_append, Nat.add_right_comm]
    · rw [CommandWorld.apply, List.map_append, hnumbered.ids, List.length_append]
      rcases hfresh with hnone | ⟨greeting, opcode, hone⟩
      · simp [hnone]
      · simp [hone, hnumbered.next, List.range_succ]
    · change request.caller < (world.calls.set k _).length
      rw [List.length_set]
      rcases List.mem_append.mp hrequest with hold | hnew
      · exact hnumbered.callers request hold
      · rcases hfresh with hnone | ⟨greeting, opcode, hone⟩
        · rw [hnone] at hnew
          cases hnew
        · rw [hone, List.mem_singleton] at hnew
          exact hnew ▸ hlt
    · rcases set_cases hfound with ⟨rfl, rfl⟩ | ⟨hother, hold⟩
      · exact hmove.drew (hnumbered.drew j call hcall)
      · refine (hnumbered.drew j found hold).append fun request hnew hcaller => ?_
        rcases hfresh with hnone | ⟨greeting, opcode, hone⟩
        · rw [hnone] at hnew
          cases hnew
        · rw [hone, List.mem_singleton] at hnew
          rw [hnew] at hcaller
          exact absurd hcaller.symm hother

theorem Numbered.nodup (h : Numbered world) (hfew : world.drawn.length < 2 ^ 64) :
    (world.drawn.map (·.requestId)).Nodup := by
  rw [h.ids]
  refine List.Nodup.map_on ?_ List.nodup_range
  intro i hi j hj hsame
  rw [List.mem_range] at hi hj
  have hvalue := congrArg UInt64.toNat hsame
  rw [UInt64.toNat_ofNat', UInt64.toNat_ofNat'] at hvalue
  omega

structure Delivery (connection : CommandConnection) (done : List (WireRequest × Frame))
    (request : WireRequest) (frame : Frame) : Prop where
  events : conversation (done ++ [(request, frame)]) <+: connection.events
  received : ((done ++ [(request, frame)]).flatMap fun exchange => frameBytes exchange.2) <+:
    connection.received
  whole : ∀ exchange ∈ done ++ [(request, frame)], writeFrame exchange.2 = .ok (frameBytes exchange.2)
  answers : ∀ exchange ∈ done ++ [(request, frame)],
    exchange.2.opcode = responseOpcode exchange.1.opcode ∧
      exchange.2.requestId = exchange.1.requestId

theorem Delivery.extends (h : Delivery connection done request frame)
    (hext : Extends connection connection') : Delivery connection' done request frame where
  events := h.events.trans hext.events
  received := h.received.trans hext.received
  whole := h.whole
  answers := h.answers

def CommandWorld.Carries (world : CommandWorld) (connection : CommandConnection) : Prop :=
  connection ∈ world.dropped ∨ (∃ channel, (world.slots channel).connection = some connection) ∨
    ∃ (k : Nat) (call : CommandCall) (request : WireRequest) (written : Bool),
      world.calls[k]? = some call ∧
      call.phase = .hello connection request written

def Delivered (world : CommandWorld) (k : Nat) (opcode : Opcode) (payload : List UInt8) : Prop :=
  ∃ connection done request frame, world.Carries connection ∧
    connection.channel = .carrying opcode ∧ Delivery connection done request frame ∧
    request ∈ world.drawn ∧ request.caller = k ∧ request.greeting = false ∧
    request.opcode = opcode ∧ frame.payload = payload

theorem CommandMove.extends (hheld : Held k call.opcode slot call.phase)
    (h : CommandMove k call next slot effect) :
    (∀ connection, slot.connection = some connection → ∃ connection',
      Extends connection connection' ∧
        (effect.slot.connection = some connection' ∨ connection' ∈ effect.dropped)) ∧
    ∀ connection request written, call.phase = .hello connection request written →
      ∃ connection', Extends connection connection' ∧
        (effect.slot.connection = some connection' ∨ connection' ∈ effect.dropped ∨
          ∃ request written, effect.phase = .hello connection' request written) := by
  constructor
  · intro connection hconnection
    cases h with
    | refuse | lock | connect | greet => exact ⟨connection, .refl _, .inl hconnection⟩
    | unreachable error hphase hnone =>
      rw [hnone] at hconnection
      cases hconnection
    | acknowledged hphase | notAcknowledged hphase | helloBreaks _ _ _ hphase =>
      rw [hphase] at hheld
      rw [hheld.2.1] at hconnection
      cases hconnection
    | draw hphase hsome =>
      rw [hsome] at hconnection
      cases hconnection
      exact ⟨_, .record _ _, .inl rfl⟩
    | send hphase hsome hwrite =>
      rw [hsome] at hconnection
      cases hconnection
      exact ⟨_, .write _ _, .inl rfl⟩
    | matched hphase hsome hread hresult =>
      rw [hsome] at hconnection
      cases hconnection
      exact ⟨_, .answered _ _ _, .inl rfl⟩
    | mismatched hphase hsome | exchangeBreaks _ _ _ hphase hsome =>
      rw [hsome] at hconnection
      cases hconnection
      exact ⟨_, .broken _ _ _, .inr (List.mem_singleton_self _)⟩
  · intro connection request written hhello
    cases h with
    | greet nonce hphase hwrite =>
      rw [hphase] at hhello
      cases hhello
      exact ⟨_, .write _ _, .inr (.inr ⟨_, _, rfl⟩)⟩
    | acknowledged hphase =>
      rw [hphase] at hhello
      cases hhello
      exact ⟨_, .answered _ _ _, .inl rfl⟩
    | notAcknowledged hphase | helloBreaks _ _ _ hphase =>
      rw [hphase] at hhello
      cases hhello
      exact ⟨_, .broken _ _ _, .inr (.inl (List.mem_singleton_self _))⟩
    | refuse | lock | unreachable | connect | draw | send | matched | mismatched | exchangeBreaks =>
      simp_all

theorem CommandWorld.Carries.step {label : CommandLabel} (hsteady : Steady world)
    (h : CommandStep world label world') (hcarries : world.Carries connection) :
    ∃ connection', world'.Carries connection' ∧ Extends connection connection' := by
  cases h with
  | call opcode payload =>
    refine ⟨connection, ?_, .refl _⟩
    rcases hcarries with hdropped | hslot | ⟨k, call, request, written, hcall, hphase⟩
    · exact .inl hdropped
    · exact .inr (.inl hslot)
    · have hlt := (List.getElem?_eq_some_iff.mp hcall).1
      exact .inr (.inr ⟨k, call, request, written, by
        rw [List.getElem?_append_left hlt, hcall], hphase⟩)
  | @arrive channel found bytes hsome =>
    rcases hcarries with hdropped | ⟨lane, hslot⟩ | hhello
    · exact ⟨connection, .inl hdropped, .refl _⟩
    · by_cases hlane : lane = channel
      · subst hlane
        rw [hsome] at hslot
        cases hslot
        refine ⟨_, .inr (.inl ⟨lane, ?_⟩), .arrive _ bytes⟩
        rw [CommandWorld.slots_setSlot, if_pos rfl]
      · refine ⟨connection, .inr (.inl ⟨lane, ?_⟩), .refl _⟩
        rw [CommandWorld.slots_setSlot, if_neg hlane, hslot]
    · exact ⟨connection, .inr (.inr hhello), .refl _⟩
  | @arriveHello k call found request written bytes hcall hphase =>
    have hlt := (List.getElem?_eq_some_iff.mp hcall).1
    rcases hcarries with hdropped | hslot | ⟨j, other, request', written', hother, hphase'⟩
    · exact ⟨connection, .inl hdropped, .refl _⟩
    · exact ⟨connection, .inr (.inl hslot), .refl _⟩
    · by_cases hj : j = k
      · subst hj
        rw [hcall] at hother
        cases hother
        rw [hphase] at hphase'
        cases hphase'
        exact ⟨_, .inr (.inr ⟨j, _, request, written, List.getElem?_set_self hlt, rfl⟩), .arrive _ bytes⟩
      · refine ⟨connection, .inr (.inr ⟨j, other, request', written', ?_, hphase'⟩), .refl _⟩
        rw [CommandWorld.setPhase, List.getElem?_set_ne (Ne.symm hj), hother]
  | @move k call effect hcall hmove =>
    have hlt := (List.getElem?_eq_some_iff.mp hcall).1
    obtain ⟨hfromSlot, hfromHello⟩ := hmove.extends (hsteady.held k call hcall)
    have hnewSlot : ∀ {found}, effect.slot.connection = some found →
        (world.apply k call effect).Carries found := by
      intro found hfound
      refine .inr (.inl ⟨call.channel, ?_⟩)
      rw [CommandWorld.slots_apply, if_pos rfl, hfound]
    have hnewDropped : ∀ {found}, found ∈ effect.dropped →
        (world.apply k call effect).Carries found := fun hfound => .inl (List.mem_append_right _ hfound)
    rcases hcarries with hdropped | ⟨lane, hslot⟩ | ⟨j, other, request, written, hother, hphase⟩
    · exact ⟨connection, .inl (List.mem_append_left _ hdropped), .refl _⟩
    · by_cases hlane : lane = call.channel
      · subst hlane
        obtain ⟨connection', hext, hnew | hnew⟩ := hfromSlot connection hslot
        · exact ⟨connection', hnewSlot hnew, hext⟩
        · exact ⟨connection', hnewDropped hnew, hext⟩
      · refine ⟨connection, .inr (.inl ⟨lane, ?_⟩), .refl _⟩
        rw [CommandWorld.slots_apply, if_neg hlane, hslot]
    · by_cases hj : j = k
      · subst hj
        rw [hcall] at hother
        cases hother
        obtain ⟨connection', hext, hnew | hnew | ⟨request', written', hnew⟩⟩ :=
          hfromHello connection request written hphase
        · exact ⟨connection', hnewSlot hnew, hext⟩
        · exact ⟨connection', hnewDropped hnew, hext⟩
        · exact ⟨connection', .inr (.inr ⟨j, _, request', written', List.getElem?_set_self hlt, hnew⟩),
            hext⟩
      · refine ⟨connection, .inr (.inr ⟨j, other, request, written, ?_, hphase⟩), .refl _⟩
        change (world.calls.set k _)[j]? = _
        rw [List.getElem?_set_ne (Ne.symm hj), hother]

theorem CommandMove.delivers (hheld : Held k call.opcode slot call.phase)
    (h : CommandMove k call next slot effect) (hreturned : effect.phase = .returned (.ok payload))
    (hdrew : Drew drawn k call.phase) : ∃ connection done request frame,
      effect.slot.connection = some connection ∧ connection.channel = .carrying call.opcode ∧
      Delivery connection done request frame ∧ request ∈ drawn ∧ request.caller = k ∧
      request.greeting = false ∧ request.opcode = call.opcode ∧ frame.payload = payload := by
  cases h with
  | @matched connection request frame rest result hphase hsome hread hresult =>
    rw [hphase] at hheld hdrew
    cases hreturned
    obtain ⟨hopcode, hid, hpayload⟩ := exchangeResult_eq_ok hresult
    have hbusy := hheld.busy hsome
    obtain ⟨-, hcaller, hgreeting, hsame, -⟩ := hheld
    obtain ⟨done, hevents, hcarried⟩ := hbusy.answered_talked hread hopcode hid
    refine ⟨_, done, request, frame, rfl, hbusy.placed, ?_, hdrew.1, hcaller, hgreeting, hsame, hpayload⟩
    refine ⟨?_, ?_, hcarried.whole, hcarried.answers⟩
    · exact hevents ▸ List.prefix_refl _
    · exact hcarried.received ▸ List.prefix_append _ _
  | refuse | unreachable | notAcknowledged | helloBreaks | mismatched | exchangeBreaks | lock | connect
    | greet | acknowledged | draw | send => cases hreturned

theorem failed_notMem_conversation (done : List (WireRequest × Frame)) :
    WireEvent.failed ∉ conversation done := by
  simp [conversation]

theorem mem_conversation (h : WireEvent.request request ∈ conversation done) :
    ∃ frame, (request, frame) ∈ done := by
  rw [conversation, List.mem_flatMap] at h
  obtain ⟨exchange, hexchange, hevent⟩ := h
  rw [List.mem_cons, List.mem_singleton] at hevent
  rcases hevent with hsame | hanswer
  · cases hsame
    exact ⟨_, hexchange⟩
  · cases hanswer

theorem Carried.onLane (h : Carried connection done rest)
    (hrequest : WireEvent.request request ∈ conversation done) :
    onLane connection.channel request := by
  obtain ⟨frame, hmem⟩ := mem_conversation hrequest
  exact h.lane _ hmem

theorem Steady.carries (hsteady : Steady world) (h : world.Carries connection) :
    (∃ channel, Talking channel connection) ∨ (Broken connection ∧ connection ∈ world.dropped) := by
  rcases h with hdropped | ⟨channel, hslot⟩ | ⟨k, call, request, written, hcall, hphase⟩
  · exact .inr ⟨hsteady.dropped connection hdropped, hdropped⟩
  · exact .inl ⟨channel, hsteady.talking channel connection hslot⟩
  · have hheld := hsteady.held k call hcall
    rw [hphase] at hheld
    exact .inl ⟨_, .inr ⟨request, hheld.2.2.2⟩⟩

theorem Talking.no_failure (h : Talking channel connection) : WireEvent.failed ∉ connection.events := by
  rcases h with hclean | ⟨request, hbusy⟩
  · obtain ⟨done, hevents, -⟩ := hclean.talked
    rw [hevents]
    exact failed_notMem_conversation done
  · obtain ⟨done, hevents, -⟩ := hbusy.talked
    simp [hevents, failed_notMem_conversation]

theorem Talking.lane (h : Talking channel connection)
    (hrequest : WireEvent.request request ∈ connection.events) : onLane connection.channel request := by
  rcases h with hclean | ⟨asked, hbusy⟩
  · obtain ⟨done, hevents, hcarried⟩ := hclean.talked
    rw [hevents] at hrequest
    exact hcarried.onLane hrequest
  · obtain ⟨done, hevents, hcarried⟩ := hbusy.talked
    rw [hevents, List.mem_append, List.mem_singleton] at hrequest
    rcases hrequest with hold | hlast
    · exact hcarried.onLane hold
    · cases hlast
      exact hbusy.placed ▸ hbusy.lane

theorem Broken.last (h : Broken connection) {before after : List WireEvent}
    (hevents : connection.events = before ++ .failed :: after) : after = [] := by
  obtain ⟨done, request, rest, hall, -⟩ := h
  have hlast : conversation done ++ [.request request] ++ [.failed] = before ++ .failed :: after := by
    rw [List.append_assoc, ← hevents, hall]
    rfl
  rcases List.eq_nil_or_concat after with hnil | ⟨front, last, rfl⟩
  · exact hnil
  · rw [List.concat_eq_append, ← List.cons_append, ← List.append_assoc] at hlast
    have hfront := (List.append_inj' hlast rfl).1
    have hmem : WireEvent.failed ∈ conversation done ++ [.request request] := by
      rw [hfront]
      simp
    simp [failed_notMem_conversation] at hmem

theorem Broken.lane (h : Broken connection)
    (hrequest : WireEvent.request request ∈ connection.events) : onLane connection.channel request := by
  obtain ⟨done, asked, rest, hall, hcarried, hlane⟩ := h
  rw [hall, List.mem_append] at hrequest
  rcases hrequest with hold | hlast
  · exact hcarried.onLane hold
  · simp at hlast
    exact hlast ▸ hlane

theorem Delivered.step {label : CommandLabel} {opcode : Opcode} (hsteady : Steady world)
    (h : CommandStep world label world') (hdelivered : Delivered world k opcode payload) :
    Delivered world' k opcode payload := by
  obtain ⟨connection, done, request, frame, hcarries, hplaced, hdelivery, hdrawn, hrequest⟩ :=
    hdelivered
  obtain ⟨connection', hcarries', hext⟩ := hcarries.step hsteady h
  refine ⟨connection', done, request, frame, hcarries', hext.channel.trans hplaced,
    hdelivery.extends hext, ?_, hrequest⟩
  cases h with
  | call | arrive | arriveHello => exact hdrawn
  | move => exact List.mem_append_left _ hdrawn

structure ResponseInv (world : CommandWorld) : Prop where
  steady : Steady world
  numbered : Numbered world
  delivered : ∀ k call payload, world.calls[k]? = some call →
    call.phase = .returned (.ok payload) → Delivered world k call.opcode payload

theorem ResponseInv.start : ResponseInv .start :=
  ⟨.start, .start, fun _ _ _ hcall => (not_called hcall).elim⟩

theorem ResponseInv.step {label : CommandLabel} (hinv : ResponseInv world)
    (h : CommandStep world label world') : ResponseInv world' := by
  refine ⟨hinv.steady.step h, hinv.numbered.step h, fun j found payload hfound hreturned => ?_⟩
  have hkept : ∀ {call : CommandCall}, world.calls[j]? = some call →
      call.phase = .returned (.ok payload) → Delivered world' j call.opcode payload :=
    fun hcall hphase => (hinv.delivered j _ payload hcall hphase).step hinv.steady h
  cases h with
  | call opcode request =>
    rcases concat_cases hfound with hold | ⟨-, rfl⟩
    · exact hkept hold hreturned
    · cases hreturned
  | arrive => exact hkept hfound hreturned
  | arriveHello =>
    rcases set_cases hfound with ⟨rfl, rfl⟩ | ⟨-, hold⟩
    · cases hreturned
    · exact hkept hold hreturned
  | @move k call effect hcall hmove =>
    rcases set_cases hfound with ⟨rfl, rfl⟩ | ⟨-, hold⟩
    · obtain ⟨connection, done, request, frame, hslot, hplaced, hdelivery, hdrawn, hrequest⟩ :=
        hmove.delivers (hinv.steady.held j call hcall) hreturned (hinv.numbered.drew j call hcall)
      refine ⟨connection, done, request, frame, .inr (.inl ⟨call.channel, ?_⟩), hplaced, hdelivery,
        List.mem_append_left _ hdrawn, hrequest⟩
      rw [CommandWorld.slots_apply, if_pos rfl, hslot]
    · exact hkept hold hreturned

theorem dropped_kept {label : CommandLabel} (h : CommandStep world label world') :
    world.dropped <+: world'.dropped := by
  cases h with
  | call | arrive | arriveHello => exact List.prefix_refl _
  | move => exact List.prefix_append _ _

theorem no_stale_or_crossed_responses {labels : List CommandLabel}
    (hrun : Run CommandStep .start labels world) (hfew : world.drawn.length < 2 ^ 64) :
    (∀ k call payload, world.calls[k]? = some call → call.phase = .returned (.ok payload) →
      ∃ connection done request frame, world.Carries connection ∧
        connection.channel = .carrying call.opcode ∧ Delivery connection done request frame ∧
        request.caller = k ∧ request.greeting = false ∧ request.opcode = call.opcode ∧
        frame.payload = payload ∧ request ∈ world.drawn ∧
        ∀ other ∈ world.drawn, other.requestId = request.requestId ∨
          (other.caller = k ∧ other.greeting = false) → other = request) ∧
    (∀ connection, world.Carries connection → ∀ before after,
      connection.events = before ++ .failed :: after → after = [] ∧ connection ∈ world.dropped) ∧
    (∀ later world', Run CommandStep world later world' → world.dropped <+: world'.dropped) ∧
    (∀ connection, world.Carries connection → ∀ request, .request request ∈ connection.events →
      onLane connection.channel request) ∧
    ∀ channel connection, (world.slots channel).connection = some connection →
      connection.channel = channel := by
  have hinv := hrun.invariant (I := ResponseInv) ResponseInv.step .start
  refine ⟨fun k call payload hcall hreturned => ?_, fun connection hcarries before after hevents => ?_,
    fun later world' hlater => ?_, fun connection hcarries request hrequest => ?_,
    fun channel connection hslot => ?_⟩
  · obtain ⟨connection, done, request, frame, hcarries, hplaced, hdelivery, hdrawn, hcaller,
      hgreeting, hopcode, hpayload⟩ := hinv.delivered k call payload hcall hreturned
    refine ⟨connection, done, request, frame, hcarries, hplaced, hdelivery, hcaller, hgreeting,
      hopcode, hpayload, hdrawn, fun other hother hsame => ?_⟩
    rcases hsame with hid | ⟨hcaller', hgreeting'⟩
    · exact List.inj_on_of_nodup_map (hinv.numbered.nodup hfew) hother hdrawn hid
    · have hdrew := hinv.numbered.drew k call hcall
      rw [hreturned] at hdrew
      exact hdrew request hdrawn other hother hcaller hcaller' hgreeting hgreeting'
  · rcases hinv.steady.carries hcarries with ⟨channel, htalking⟩ | ⟨hbroken, hdropped⟩
    · refine absurd ?_ htalking.no_failure
      simp [hevents]
    · exact ⟨hbroken.last hevents, hdropped⟩
  · exact hlater.related (R := fun s t => s.dropped <+: t.dropped) (fun _ => List.prefix_refl _)
      List.IsPrefix.trans dropped_kept
  · rcases hinv.steady.carries hcarries with ⟨channel, htalking⟩ | ⟨hbroken, -⟩
    · exact htalking.lane hrequest
    · exact hbroken.lane hrequest
  · rcases hinv.steady.talking channel connection hslot with hclean | ⟨request, hbusy⟩
    · exact hclean.placed
    · exact hbusy.placed

def ackFrame (requestId : UInt64) : Frame := ⟨responseOpcode .hello, requestId, List.replicate 32 0⟩

def offerFrame (requestId : UInt64) : Frame := ⟨responseOpcode .getOffer, requestId, [0]⟩

theorem writeFrame_short (frame : Frame) (h : frame.payload.length ≤ 33) :
    writeFrame frame = .ok (frameBytes frame) := by
  obtain ⟨bytes, hbytes⟩ := writeFrame_fits frame (Nat.le_trans h (by decide))
  rw [hbytes, frameBytes_eq hbytes]

theorem readFrame_short (frame : Frame) (h : frame.payload.length ≤ 33) :
    readFrame ([] ++ frameBytes frame) = .ok (frame, []) :=
  readFrame_writeFrame (writeFrame_short frame h)

def offerCall (phase : CommandPhase) : CommandCall := ⟨.getOffer, [], phase⟩

def drawnBy (k : Nat) (next : UInt64) : List WireRequest :=
  [⟨k, true, .hello, next⟩, ⟨k, false, .getOffer, next + 1⟩]

structure LastCall (calls : List CommandCall) (phase : CommandPhase) (slot : CommandSlot)
    (next : UInt64) (drawn : List WireRequest) (dropped : List CommandConnection)
    (world : CommandWorld) : Prop where
  run : ∃ labels, Run CommandStep .start labels world
  calls : world.calls = calls ++ [offerCall phase]
  slot : world.slots .control = slot
  next : world.nextRequestId = next
  drawn : world.drawn = drawn
  dropped : world.dropped = dropped

namespace LastCall

variable {calls : List CommandCall} {dropped : List CommandConnection}

theorem first : LastCall [] .waiting ⟨none, none⟩ 1 [] []
    { CommandWorld.start with calls := [offerCall .waiting] } :=
  ⟨⟨_, .single (.call .getOffer [])⟩, rfl, rfl, rfl, rfl, rfl⟩

theorem again (h : LastCall calls phase slot next drawn dropped world) :
    LastCall (calls ++ [offerCall phase]) .waiting slot next drawn dropped
      { world with calls := world.calls ++ [offerCall .waiting] } := by
  obtain ⟨labels, hrun⟩ := h.run
  exact ⟨⟨_, hrun.snoc (.call .getOffer [])⟩, by rw [h.calls], h.slot, h.next, h.drawn, h.dropped⟩

theorem at_last (h : LastCall calls phase slot next drawn dropped world) :
    world.calls[calls.length]? = some (offerCall phase) := by
  rw [h.calls, List.getElem?_concat_length]

theorem set_last (h : LastCall calls phase slot next drawn dropped world) (phase' : CommandPhase) :
    world.calls.set calls.length (offerCall phase') = calls ++ [offerCall phase'] := by
  rw [h.calls, List.set_append_right _ _ (Nat.le_refl _), Nat.sub_self]
  rfl

theorem move (h : LastCall calls phase slot next drawn dropped world)
    (hmove : CommandMove calls.length (offerCall phase) next slot effect) :
    LastCall calls effect.phase effect.slot (next + .ofNat effect.drawn.length)
      (drawn ++ effect.drawn) (dropped ++ effect.dropped)
      (world.apply calls.length (offerCall phase) effect) := by
  obtain ⟨labels, hrun⟩ := h.run
  have hcall := h.at_last
  have hset := h.set_last effect.phase
  obtain ⟨-, -, rfl, rfl, rfl, rfl⟩ := h
  refine ⟨⟨_, hrun.snoc (.move hcall hmove)⟩, hset, ?_, rfl, rfl, rfl⟩
  rw [CommandWorld.slots_apply]
  exact if_pos rfl

theorem arrive {holder : Option Nat}
    (h : LastCall calls phase ⟨holder, some connection⟩ next drawn dropped world)
    (bytes : List UInt8) : ∃ world', LastCall calls phase ⟨holder, some (connection.arrive bytes)⟩ next
      drawn dropped world' := by
  obtain ⟨labels, hrun⟩ := h.run
  have hsome : (world.slots .control).connection = some connection := by rw [h.slot]
  refine ⟨_, ⟨_, hrun.snoc (.arrive bytes hsome)⟩, h.calls, ?_, h.next, h.drawn, h.dropped⟩
  rw [CommandWorld.slots_setSlot, if_pos rfl, h.slot]

theorem arriveHello {written : Bool}
    (h : LastCall calls (.hello connection request written) slot next drawn dropped world)
    (bytes : List UInt8) : ∃ world', LastCall calls (.hello (connection.arrive bytes) request written)
      slot next drawn dropped world' := by
  obtain ⟨labels, hrun⟩ := h.run
  exact ⟨_, ⟨_, hrun.snoc (.arriveHello bytes h.at_last rfl)⟩, h.set_last _, h.slot, h.next, h.drawn,
    h.dropped⟩

theorem quiet (h : LastCall calls phase slot next drawn dropped world)
    (hmove : CommandMove calls.length (offerCall phase) next slot effect)
    (hdrawn : effect.drawn = []) (hdropped : effect.dropped = []) :
    LastCall calls effect.phase effect.slot next drawn dropped
      (world.apply calls.length (offerCall phase) effect) := by
  have hmoved := h.move hmove
  rwa [hdrawn, hdropped, List.append_nil, List.append_nil, List.length_nil,
    show UInt64.ofNat 0 = 0 from rfl, UInt64.add_zero] at hmoved

theorem draws (h : LastCall calls phase slot next drawn dropped world)
    (hmove : CommandMove calls.length (offerCall phase) next slot effect)
    (hdrawn : effect.drawn = [request]) (hdropped : effect.dropped = []) :
    LastCall calls effect.phase effect.slot (next + 1) (drawn ++ [request]) dropped
      (world.apply calls.length (offerCall phase) effect) := by
  have hmoved := h.move hmove
  rwa [hdrawn, hdropped, List.append_nil] at hmoved

theorem asked (h : LastCall calls .waiting ⟨none, none⟩ next drawn dropped world) :
    ∃ connection world', connection.inbox = [] ∧
      LastCall calls (.exchanging ⟨calls.length, false, .getOffer, next + 1⟩ true)
        ⟨some calls.length, some connection⟩ (next + 1 + 1) (drawn ++ drawnBy calls.length next)
        dropped world' := by
  have hconnected := (h.quiet (.lock rfl rfl) rfl rfl).draws (.connect rfl rfl) rfl rfl
  have hgreeted := hconnected.quiet
    (.greet (repeatedSecret 7) rfl (writeFrame_short _ (Nat.le_refl 33))) rfl rfl
  obtain ⟨heard, hheard⟩ := hgreeted.arriveHello (frameBytes (ackFrame next))
  have hready := hheard.quiet (.acknowledged rfl (readFrame_short (ackFrame next) (Nat.le_succ 32))
    (if_neg (by simp [ackFrame]))) rfl rfl
  have hsent := (hready.draws (.draw rfl rfl) rfl rfl).quiet
    (.send rfl rfl (writeFrame_short _ (Nat.zero_le 33))) rfl rfl
  rw [List.append_assoc] at hsent
  exact ⟨_, _, rfl, hsent⟩

end LastCall

theorem offer_answered_after_failure : ∃ broken slot world,
    LastCall [offerCall (.returned (.error unexpectedEof))] (.returned (.ok [0])) slot 5
      (drawnBy 0 1 ++ drawnBy 1 3) [broken] world ∧ broken.events.getLast? = some .failed := by
  obtain ⟨first, _, -, hasked⟩ := LastCall.first.asked
  have hfailed : LastCall [offerCall (.returned (.error unexpectedEof))] .waiting ⟨none, none⟩ 3
      (drawnBy 0 1) [first.broken [] []] _ :=
    (hasked.move (.exchangeBreaks unexpectedEof [] [] rfl rfl)).again
  obtain ⟨second, _, hinbox, hagain⟩ := hfailed.asked
  obtain ⟨_, harrived⟩ := hagain.arrive (frameBytes (offerFrame 4))
  have hread : readFrame (second.arrive (frameBytes (offerFrame 4))).inbox = .ok (offerFrame 4, []) := by
    rw [CommandConnection.arrive, hinbox]
    exact readFrame_short (offerFrame 4) (by decide)
  exact ⟨_, _, _, harrived.quiet (.matched rfl rfl hread rfl) rfl rfl, List.getLast?_concat⟩

theorem no_stale_or_crossed_responses_offer : ∃ world broken connection done request frame,
    broken ∈ world.dropped ∧ .failed ∈ broken.events ∧
      (∀ before after, broken.events = before ++ .failed :: after → after = []) ∧
      CommandWorld.Carries world connection ∧ connection.channel = .control ∧
      Delivery connection done request frame ∧ request.caller = 1 ∧ frame.payload = [0] := by
  obtain ⟨broken, slot, world, hlast, hbroken⟩ := offer_answered_after_failure
  obtain ⟨labels, hrun⟩ := hlast.run
  have hfew : world.drawn.length < 2 ^ 64 := by
    rw [hlast.drawn]
    decide
  have hdropped : broken ∈ world.dropped := by
    rw [hlast.dropped]
    exact List.mem_singleton_self broken
  obtain ⟨hreturned, hfailed, -⟩ := no_stale_or_crossed_responses hrun hfew
  obtain ⟨connection, done, request, frame, hcarries, hplaced, hdelivery, hcaller, -, -, hpayload, -⟩ :=
    hreturned 1 _ [0] hlast.at_last rfl
  exact ⟨world, broken, connection, done, request, frame, hdropped, List.mem_of_getLast? hbroken,
    fun before after hevents => (hfailed broken (.inl hdropped) before after hevents).1, hcarries,
    hplaced, hdelivery, hcaller, hpayload⟩

end ClipFerry.Client
