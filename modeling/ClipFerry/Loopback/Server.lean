import ClipFerry.Loopback.Header
import ClipFerry.Foundation.Transition
import ClipFerry.Server.CoverageLaw

namespace ClipFerry.Loopback

open Server VirtualTree

structure LoopbackServerConfig where
  length : UInt64
  fileId : FileId
  maxRangeBytes : Nat
  fragmentBytes : Nat
  rangeDelay : Nat
  socketTimeout : Nat
  maxWorkers : Nat

def maxProtocolRangeBytes : Nat := 1024 * 1024

def maxConfiguredWorkers : Nat := 256

def validateServerConfig (config : LoopbackServerConfig) : Except HResult Unit :=
  if config.maxRangeBytes = 0 ∨ config.fragmentBytes = 0 ∨
      config.maxRangeBytes < config.fragmentBytes ∨ maxProtocolRangeBytes < config.maxRangeBytes ∨
      config.socketTimeout = 0 ∨ config.maxWorkers = 0 ∨ maxConfiguredWorkers < config.maxWorkers then
    .error .invalidArg
  else .ok ()

structure TransferControl where
  state : TransferControlState
  bytesServed : UInt64
  chunkCalls : UInt64

structure LoopbackMetrics where
  connections : UInt64
  readRequests : UInt64
  servedBytes : UInt64
  protocolErrors : UInt64
  activeReads : UInt64
  maxConcurrentReads : UInt64
  coverage : RangeCoverage

structure Shared where
  control : TransferControl
  metrics : LoopbackMetrics
  active : Nat

def Shared.start : Shared where
  control := ⟨.running, 0, 0⟩
  metrics := ⟨0, 0, 0, 0, 0, 0, .empty⟩
  active := 0

namespace Shared

def command (shared : Shared) (change : TransferControlState → TransferControlState) : Shared :=
  { shared with control.state := change shared.control.state }

def noteError (shared : Shared) : Shared :=
  { shared with metrics.protocolErrors := shared.metrics.protocolErrors + 1 }

def noteConnection (shared : Shared) : Shared :=
  { shared with metrics.connections := shared.metrics.connections + 1 }

def noteRequest (shared : Shared) : Shared :=
  { shared with metrics.readRequests := shared.metrics.readRequests + 1 }

def enterRead (shared : Shared) : Shared :=
  { shared with metrics.activeReads := shared.metrics.activeReads + 1 }

def raiseMaximum (shared : Shared) (current : UInt64) : Shared :=
  if shared.metrics.maxConcurrentReads < current then
    { shared with metrics.maxConcurrentReads := current }
  else shared

def leaveRead (shared : Shared) : Shared :=
  { shared with metrics.activeReads := shared.metrics.activeReads - 1 }

def noteServed (shared : Shared) (length : Nat) : Shared :=
  { shared with metrics.servedBytes := shared.metrics.servedBytes + .ofNat length }

def noteCovered (shared : Shared) (offset : UInt64) (length : Nat) : Shared :=
  { shared with metrics.coverage := shared.metrics.coverage.note offset.toNat length }

def noteChunkBytes (shared : Shared) (bytes : Nat) : Shared :=
  { shared with control.bytesServed := shared.control.bytesServed + .ofNat bytes }

def noteChunkCall (shared : Shared) : Shared :=
  { shared with control.chunkCalls := shared.control.chunkCalls + 1 }

def takeSlot (shared : Shared) : Shared := { shared with active := shared.active + 1 }

def dropSlot (shared : Shared) : Shared := { shared with active := shared.active - 1 }

end Shared

/-! The thread of one connection, between two of its effects on what it shares with others. -/

inductive Stage where
  | reading
  | commanding (request : RequestHeader)
  | admitting (request : RequestHeader)
  | entering (request : RequestHeader)
  | entered (request : RequestHeader) (current : UInt64)
  | waiting (request : RequestHeader) (wait : Wait)
  | responding (status : ResponseStatus) (requestId : UInt64) (payloadLength : UInt32)
      (active : Option RequestHeader)
  | writing (response : ResponseHeader) (active : Option RequestHeader)
  | streaming (request : RequestHeader) (payloadLength written : Nat)
  | noting (request : RequestHeader) (payloadLength : Nat)
  | covering (request : RequestHeader) (payloadLength : Nat)
  | tallying (request : RequestHeader) (payloadLength : Nat)
  | calling (request : RequestHeader) (payloadLength : Nat)
  | leaving (succeeded : Bool)
  | ended (succeeded : Bool)
  | releasing (succeeded : Bool)
  | gone (succeeded : Bool)

structure Worker where
  input : List UInt8
  output : List UInt8
  stage : Stage

def Worker.start (input : List UInt8) : Worker := ⟨input, [], .reading⟩

/-! What the rest of the world decides for a thread: a timeout, a socket that fails. -/

inductive Choice where
  | go
  | timedOut
  | fault (written : Nat)
deriving DecidableEq

def Opcode.change : Opcode → TransferControlState → TransferControlState
  | .pause => .pause
  | .resume => .resume
  | .cancel => .cancel
  | .readRange | .status => id

def serveRange (config : LoopbackServerConfig) (request : RequestHeader) : Stage :=
  if config.maxRangeBytes < request.length.toNat then
    .responding .invalidRequest request.requestId 0 none
  else .admitting request

def handleConnection (config : LoopbackServerConfig) (bytes : List UInt8) : Stage :=
  match RequestHeader.decode bytes with
  | none => .responding .invalidRequest 0 0 none
  | some request =>
    if request.fileId ≠ config.fileId then .responding .fileNotFound request.requestId 0 none
    else match request.opcode with
    | .pause | .resume | .cancel => .commanding request
    | .status => .responding .ok request.requestId 0 none
    | .readRange => serveRange config request

def waitStatus (error : HResult) : ResponseStatus :=
  if error.code = HResult.cancelled.code then .cancelled else .internalError

def payloadLength (config : LoopbackServerConfig) (request : RequestHeader) : UInt32 :=
  let length := min (config.length.toNat - request.offset.toNat) request.length.toNat
  if length < 2 ^ 32 then .ofNat length else request.length

def saturatingAdd (a b : Nat) : Nat := min (a + b) (2 ^ 64 - 1)

def fragmentLength (config : LoopbackServerConfig) (payloadLength written : Nat) : Nat :=
  min (payloadLength - written) (min config.fragmentBytes (max payloadLength 1))

def fragment (config : LoopbackServerConfig) (request : RequestHeader)
    (payloadLength written : Nat) : List UInt8 :=
  (List.range (fragmentLength config payloadLength written)).map fun index =>
    generatedByte (.ofNat (saturatingAdd (saturatingAdd request.offset.toNat written) index))

def respond (config : LoopbackServerConfig) (control : TransferControl) (status : ResponseStatus)
    (requestId : UInt64) (payloadLength : UInt32) : ResponseHeader :=
  ⟨status, control.state, requestId, config.length, payloadLength⟩

/-! A socket takes all of what is written to it, or fails after a part. -/

def Choice.accepts (bytes : List UInt8) : Choice → List UInt8
  | go | timedOut => bytes
  | fault written => bytes.take written

def Choice.isFault : Choice → Bool
  | go | timedOut => false
  | fault _ => true

def afterHeader (response : ResponseHeader) : Option RequestHeader → Stage
  | none => .ended true
  | some request =>
    if response.status = .ok then .streaming request response.payloadLength.toNat 0
    else .leaving true

def failure : Option RequestHeader → Stage
  | none => .ended false
  | some _ => .leaving false

def Worker.advance (config : LoopbackServerConfig) (choice : Choice) (shared : Shared)
    (worker : Worker) : Option (Shared × Worker) :=
  match worker.stage with
  | .reading =>
    if choice.isFault = true ∨ worker.input.length < requestHeaderLen then
      some (shared, { worker with stage := .ended false })
    else
      some (shared, { worker with
        stage := handleConnection config (worker.input.take requestHeaderLen) })
  | .commanding request =>
    some (shared.command request.opcode.change,
      { worker with stage := .responding .ok request.requestId 0 none })
  | .admitting request => some (shared.noteRequest, { worker with stage := .entering request })
  | .entering request =>
    some (shared.enterRead, { worker with
      stage := .entered request (shared.metrics.activeReads + 1) })
  | .entered request current =>
    some (shared.raiseMaximum current, { worker with stage := .waiting request .entering })
  | .waiting request wait =>
    match wait.waitForChunk config.rangeDelay (choice = .timedOut) shared.control.state with
    | .sleeps wait => some (shared, { worker with stage := .waiting request wait })
    | .returns (.ok ()) => some (shared, { worker with
        stage := .responding .ok request.requestId (payloadLength config request) (some request) })
    | .returns (.error error) => some (shared, { worker with
        stage := .responding (waitStatus error) request.requestId 0 (some request) })
  | .responding status requestId payloadLength active => some (shared, { worker with
      stage := .writing (respond config shared.control status requestId payloadLength) active })
  | .writing response active => some (shared, { worker with
      output := worker.output ++ choice.accepts response.encode
      stage := if choice.isFault = true then failure active else afterHeader response active })
  | .streaming request payloadLength written =>
    if written < payloadLength then
      some (shared, { worker with
        output := worker.output ++ choice.accepts (fragment config request payloadLength written)
        stage := if choice.isFault = true then .leaving false
          else .streaming request payloadLength
            (written + fragmentLength config payloadLength written) })
    else some (shared, { worker with stage := .noting request payloadLength })
  | .noting request payloadLength => some (shared.noteServed payloadLength,
      { worker with stage := .covering request payloadLength })
  | .covering request payloadLength => some (shared.noteCovered request.offset payloadLength,
      { worker with stage := .tallying request payloadLength })
  | .tallying request payloadLength => some (shared.noteChunkBytes payloadLength,
      { worker with stage := .calling request payloadLength })
  | .calling _ _ => some (shared.noteChunkCall, { worker with stage := .leaving true })
  | .leaving succeeded => some (shared.leaveRead, { worker with stage := .ended succeeded })
  | .ended succeeded => some (if succeeded = true then shared else shared.noteError,
      { worker with stage := .releasing succeeded })
  | .releasing succeeded => some (shared.dropSlot, { worker with stage := .gone succeeded })
  | .gone _ => none

inductive Acceptor where
  | listening
  | connected
  | starting
  | refusing
  | abandoning
  | stopped
deriving DecidableEq

structure World where
  shared : Shared
  acceptor : Acceptor
  stop : Bool
  workers : List Worker

def World.start : World := ⟨.start, .listening, false, []⟩

inductive Event where
  | accept
  | tryStart
  | refuse
  | spawn (input : List UInt8)
  | spawnFailed
  | abandon
  | owner (change : Opcode)
  | stop
  | worker (index : Nat) (choice : Choice)

def World.next (config : LoopbackServerConfig) (world : World) : Event → Option World
  | .accept =>
    if world.acceptor = .listening then
      if world.stop = true then some { world with acceptor := .stopped }
      else some { world with acceptor := .connected, shared := world.shared.noteConnection }
    else none
  | .tryStart =>
    if world.acceptor = .connected then
      if config.maxWorkers ≤ world.shared.active then some { world with acceptor := .refusing }
      else some { world with acceptor := .starting, shared := world.shared.takeSlot }
    else none
  | .refuse =>
    if world.acceptor = .refusing then
      some { world with acceptor := .listening, shared := world.shared.noteError }
    else none
  | .spawn input =>
    if world.acceptor = .starting then
      some { world with acceptor := .listening, workers := world.workers ++ [.start input] }
    else none
  | .spawnFailed =>
    if world.acceptor = .starting then
      some { world with acceptor := .abandoning, shared := world.shared.dropSlot }
    else none
  | .abandon =>
    if world.acceptor = .abandoning then
      some { world with acceptor := .listening, shared := world.shared.noteError }
    else none
  | .owner opcode => some { world with shared := world.shared.command opcode.change }
  | .stop => some { world with stop := true }
  | .worker index choice => do
    let worker ← world.workers[index]?
    let (shared, worker) ← worker.advance config choice world.shared
    some { world with shared := shared, workers := world.workers.set index worker }

def WorldStep (config : LoopbackServerConfig) (world : World) (event : Event) (world' : World) :
    Prop := world.next config event = some world'

end ClipFerry.Loopback
