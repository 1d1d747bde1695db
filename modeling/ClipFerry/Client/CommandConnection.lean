import ClipFerry.Client.Connection
import ClipFerry.Foundation.Position

namespace ClipFerry.Client

open Checked Protocol Transition

def helloRoleReceiver : UInt8 := 1

/-! What one client's connections carried, in order; the server may send any bytes on them. -/

structure WireRequest where
  caller : Nat
  greeting : Bool
  opcode : Opcode
  requestId : UInt64
deriving DecidableEq

inductive WireEvent where
  | request (request : WireRequest)
  | answer (frame : Frame)
  | failed

structure CommandConnection where
  channel : Channel
  sent : List UInt8
  received : List UInt8
  inbox : List UInt8
  events : List WireEvent

namespace CommandConnection

def opened (channel : Channel) : CommandConnection := ⟨channel, [], [], [], []⟩

def record (connection : CommandConnection) (event : WireEvent) : CommandConnection :=
  { connection with events := connection.events ++ [event] }

def write (connection : CommandConnection) (bytes : List UInt8) : CommandConnection :=
  { connection with sent := connection.sent ++ bytes }

def arrive (connection : CommandConnection) (bytes : List UInt8) : CommandConnection :=
  { connection with received := connection.received ++ bytes, inbox := connection.inbox ++ bytes }

def answered (connection : CommandConnection) (frame : Frame) (rest : List UInt8) :
    CommandConnection := { connection with inbox := rest }.record (.answer frame)

def broken (connection : CommandConnection) (written rest : List UInt8) : CommandConnection :=
  { connection.write written with inbox := rest }.record .failed

end CommandConnection

structure CommandSlot where
  holder : Option Nat
  connection : Option CommandConnection

inductive CommandPhase where
  | waiting
  | locked
  | hello (connection : CommandConnection) (request : WireRequest) (written : Bool)
  | exchanging (request : WireRequest) (written : Bool)
  | returned (result : Except IoError (List UInt8))

structure CommandCall where
  opcode : Opcode
  payload : List UInt8
  phase : CommandPhase

def CommandCall.channel (call : CommandCall) : Channel := .carrying call.opcode

def helloFrame (request : WireRequest) (nonce : Secret) : Frame :=
  ⟨Opcode.hello.code, request.requestId, helloRoleReceiver :: nonce.val⟩

def helloResult (request : WireRequest) (frame : Frame) : Except IoError Unit :=
  if frame.opcode ≠ responseOpcode .hello ∨ frame.requestId ≠ request.requestId
      ∨ frame.payload.length ≠ 32 then
    .error (invalidData "invalid secure HelloAck")
  else .ok ()

def exchangeResult (request : WireRequest) (frame : Frame) : Except IoError (List UInt8) :=
  if frame.opcode ≠ responseOpcode request.opcode ∨ frame.requestId ≠ request.requestId then
    .error (invalidData "secure response does not match request")
  else .ok frame.payload

/-! One step of the call `k`: the slot and the phase after it, what it drew from
`next_request_id` and the connection that it dropped. -/

structure CommandEffect where
  slot : CommandSlot
  phase : CommandPhase
  drawn : List WireRequest
  dropped : List CommandConnection

def CommandEffect.failing (error : IoError) (dropped : List CommandConnection) : CommandEffect :=
  ⟨⟨none, none⟩, .returned (.error error), [], dropped⟩

inductive CommandMove (k : Nat) (call : CommandCall) (next : UInt64) (slot : CommandSlot) :
    CommandEffect → Prop
  | refuse (error : IoError) (hphase : call.phase = .waiting) :
      CommandMove k call next slot ⟨slot, .returned (.error error), [], []⟩
  | lock (hphase : call.phase = .waiting) (hfree : slot.holder = none) :
      CommandMove k call next slot ⟨⟨some k, slot.connection⟩, .locked, [], []⟩
  | unreachable (error : IoError) (hphase : call.phase = .locked) (hnone : slot.connection = none) :
      CommandMove k call next slot (.failing error [])
  | connect (hphase : call.phase = .locked) (hnone : slot.connection = none) :
      CommandMove k call next slot ⟨slot,
        .hello ((CommandConnection.opened call.channel).record (.request ⟨k, true, .hello, next⟩))
          ⟨k, true, .hello, next⟩ false, [⟨k, true, .hello, next⟩], []⟩
  | greet {connection : CommandConnection} {request : WireRequest} {bytes : List UInt8}
      (nonce : Secret) (hphase : call.phase = .hello connection request false)
      (hwrite : writeFrame (helloFrame request nonce) = .ok bytes) :
      CommandMove k call next slot ⟨slot, .hello (connection.write bytes) request true, [], []⟩
  | acknowledged {connection : CommandConnection} {request : WireRequest} {frame : Frame}
      {rest : List UInt8} (hphase : call.phase = .hello connection request true)
      (hread : readFrame connection.inbox = .ok (frame, rest))
      (hresult : helloResult request frame = .ok ()) :
      CommandMove k call next slot
        ⟨⟨slot.holder, some (connection.answered frame rest)⟩, .locked, [], []⟩
  | notAcknowledged {connection : CommandConnection} {request : WireRequest} {frame : Frame}
      {rest : List UInt8} {error : IoError} (hphase : call.phase = .hello connection request true)
      (hread : readFrame connection.inbox = .ok (frame, rest))
      (hresult : helloResult request frame = .error error) :
      CommandMove k call next slot (.failing error [connection.broken [] rest])
  | helloBreaks {connection : CommandConnection} {request : WireRequest} {sent : Bool}
      (error : IoError) (written rest : List UInt8)
      (hphase : call.phase = .hello connection request sent) :
      CommandMove k call next slot (.failing error [connection.broken written rest])
  | draw {connection : CommandConnection} (hphase : call.phase = .locked)
      (hsome : slot.connection = some connection) :
      CommandMove k call next slot
        ⟨⟨slot.holder, some (connection.record (.request ⟨k, false, call.opcode, next⟩))⟩,
          .exchanging ⟨k, false, call.opcode, next⟩ false, [⟨k, false, call.opcode, next⟩], []⟩
  | send {connection : CommandConnection} {request : WireRequest} {bytes : List UInt8}
      (hphase : call.phase = .exchanging request false)
      (hsome : slot.connection = some connection)
      (hwrite : writeFrame ⟨call.opcode.code, request.requestId, call.payload⟩ = .ok bytes) :
      CommandMove k call next slot
        ⟨⟨slot.holder, some (connection.write bytes)⟩, .exchanging request true, [], []⟩
  | matched {connection : CommandConnection} {request : WireRequest} {frame : Frame}
      {rest payload : List UInt8} (hphase : call.phase = .exchanging request true)
      (hsome : slot.connection = some connection)
      (hread : readFrame connection.inbox = .ok (frame, rest))
      (hresult : exchangeResult request frame = .ok payload) :
      CommandMove k call next slot
        ⟨⟨none, some (connection.answered frame rest)⟩, .returned (.ok payload), [], []⟩
  | mismatched {connection : CommandConnection} {request : WireRequest} {frame : Frame}
      {rest : List UInt8} {error : IoError} (hphase : call.phase = .exchanging request true)
      (hsome : slot.connection = some connection)
      (hread : readFrame connection.inbox = .ok (frame, rest))
      (hresult : exchangeResult request frame = .error error) :
      CommandMove k call next slot (.failing error [connection.broken [] rest])
  | exchangeBreaks {connection : CommandConnection} {request : WireRequest} {sent : Bool}
      (error : IoError) (written rest : List UInt8)
      (hphase : call.phase = .exchanging request sent)
      (hsome : slot.connection = some connection) :
      CommandMove k call next slot (.failing error [connection.broken written rest])

structure CommandWorld where
  slots : Channel → CommandSlot
  calls : List CommandCall
  nextRequestId : UInt64
  drawn : List WireRequest
  dropped : List CommandConnection

namespace CommandWorld

def start : CommandWorld := ⟨fun _ => ⟨none, none⟩, [], 1, [], []⟩

def setSlot (world : CommandWorld) (channel : Channel) (slot : CommandSlot) : CommandWorld :=
  { world with slots := Function.update world.slots channel slot }

def setPhase (world : CommandWorld) (k : Nat) (call : CommandCall) (phase : CommandPhase) :
    CommandWorld :=
  { world with calls := world.calls.set k { call with phase := phase } }

def apply (world : CommandWorld) (k : Nat) (call : CommandCall) (effect : CommandEffect) :
    CommandWorld :=
  { (world.setSlot call.channel effect.slot).setPhase k call effect.phase with
    nextRequestId := world.nextRequestId + .ofNat effect.drawn.length
    drawn := world.drawn ++ effect.drawn
    dropped := world.dropped ++ effect.dropped }

variable {world : CommandWorld} {k : Nat} {call : CommandCall}

theorem slots_setSlot (channel lane : Channel) (slot : CommandSlot) :
    (world.setSlot channel slot).slots lane = if lane = channel then slot else world.slots lane :=
  Function.update_apply ..

theorem slots_apply (effect : CommandEffect) (lane : Channel) :
    (world.apply k call effect).slots lane =
      if lane = call.channel then effect.slot else world.slots lane :=
  Function.update_apply ..

end CommandWorld

inductive CommandLabel where
  | call (opcode : Opcode) (payload : List UInt8)
  | arrive (channel : Channel) (bytes : List UInt8)
  | arriveHello (k : Nat) (bytes : List UInt8)
  | move (k : Nat)

inductive CommandStep : CommandWorld → CommandLabel → CommandWorld → Prop
  | call {world : CommandWorld} (opcode : Opcode) (payload : List UInt8) :
      CommandStep world (.call opcode payload)
        { world with calls := world.calls ++ [⟨opcode, payload, .waiting⟩] }
  | arrive {world : CommandWorld} {channel : Channel} {connection : CommandConnection}
      (bytes : List UInt8) (hsome : (world.slots channel).connection = some connection) :
      CommandStep world (.arrive channel bytes)
        (world.setSlot channel ⟨(world.slots channel).holder, some (connection.arrive bytes)⟩)
  | arriveHello {world : CommandWorld} {k : Nat} {call : CommandCall}
      {connection : CommandConnection} {request : WireRequest} {written : Bool}
      (bytes : List UInt8) (hcall : world.calls[k]? = some call)
      (hphase : call.phase = .hello connection request written) :
      CommandStep world (.arriveHello k bytes)
        (world.setPhase k call (.hello (connection.arrive bytes) request written))
  | move {world : CommandWorld} {k : Nat} {call : CommandCall} {effect : CommandEffect}
      (hcall : world.calls[k]? = some call)
      (h : CommandMove k call world.nextRequestId (world.slots call.channel) effect) :
      CommandStep world (.move k) (world.apply k call effect)

end ClipFerry.Client
