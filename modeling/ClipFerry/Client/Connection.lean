import Mathlib.Logic.Function.Basic
import ClipFerry.Client.Command
import ClipFerry.Client.Credentials

namespace ClipFerry.Client

open Protocol Server Transition

/-! One connection after its handshake: the two streams, and the worker at the server's end. -/

inductive Handler where
  | waiting
  | checking (frame : Frame) (call : Nat)
  | serving (frame : Frame) (opcode : Opcode) (call : Nat)
  | closed

structure Link where
  peer : CertificateFingerprint
  upstream : List UInt8
  downstream : List UInt8
  handler : Handler

def Link.opened (peer : CertificateFingerprint) : Link := ⟨peer, [], [], .waiting⟩

def responseFrame (opcode : Opcode) (requestId : UInt64) (payload : List UInt8) : Frame :=
  ⟨responseOpcode opcode, requestId, payload⟩

inductive LinkStep (server : ServerState) : World → Link → World → Link → Prop
  | accept {w w' : World} {link : Link} {frame : Frame} {rest : List UInt8}
      (hwaiting : link.handler = .waiting) (hread : readFrame link.upstream = .ok (frame, rest))
      (hinvoke : Step server w (.invoke (.connect link.peer)) w') :
      LinkStep server w link w'
        { link with upstream := rest, handler := .checking frame w.calls.length }
  | dispatch {w w' : World} {link : Link} {frame : Frame} {opcode : Opcode} {k : Nat}
      {checkedAt readAt : Nat} {request : Request} (hchecking : link.handler = .checking frame k)
      (hallowed : At k (.connect link.peer) (.done (.ok .connected)) w)
      (hopcode : Opcode.tryFrom frame.opcode = .ok opcode)
      (hcall : dispatchRequest server checkedAt readAt link.peer opcode frame.payload =
        .call request)
      (hinvoke : Step server w (.invoke request) w') :
      LinkStep server w link w' { link with handler := .serving frame opcode w.calls.length }
  | reply {w : World} {link : Link} {frame : Frame} {opcode : Opcode} {k : Nat}
      {checkedAt readAt : Nat} {response bytes : List UInt8}
      (hchecking : link.handler = .checking frame k)
      (hallowed : At k (.connect link.peer) (.done (.ok .connected)) w)
      (hopcode : Opcode.tryFrom frame.opcode = .ok opcode)
      (hreply : dispatchRequest server checkedAt readAt link.peer opcode frame.payload =
        .reply response)
      (hwrite : writeFrame (responseFrame opcode frame.requestId response) = .ok bytes) :
      LinkStep server w link w
        { link with downstream := link.downstream ++ bytes, handler := .waiting }
  | respond {w : World} {link : Link} {frame : Frame} {opcode : Opcode} {k : Nat}
      {request : Request} {result : WireResult Answer} {bytes : List UInt8}
      (hserving : link.handler = .serving frame opcode k) (hdone : At k request (.done result) w)
      (hwrite : writeFrame (responseFrame opcode frame.requestId (respond result)) = .ok bytes) :
      LinkStep server w link w
        { link with downstream := link.downstream ++ bytes, handler := .waiting }
  | close {w : World} {link : Link} : LinkStep server w link w { link with handler := .closed }

/-! A client's two connections, each under its lock, and how far each command has come. -/

inductive Channel where
  | control
  | data
deriving DecidableEq

def Channel.carrying : Opcode → Channel
  | .readRange => .data
  | _ => .control

structure SlotKey where
  client : Nat
  channel : Channel
deriving DecidableEq

structure Slot where
  holder : Option Nat
  link : Option Nat

structure Command where
  key : SlotKey
  opcode : Opcode
  payload : List UInt8

inductive Exchange where
  | idle
  | trying (command : Command)
  | locked (command : Command)
  | awaiting (command : Command) (requestId : UInt64)
  | responded (command : Command) (response : List UInt8)
  | failed (error : IoError)

def recoverableNetworkCodes : List Int :=
  [53, 64, 121, 10050, 10051, 10052, 10053, 10054, 10060, 10061, 10064, 10065]

def isRecoverableNetworkError (error : IoError) : Bool :=
  (match error.kind with
    | .brokenPipe | .connectionAborted | .connectionReset | .notConnected | .timedOut
    | .unexpectedEof | .wouldBlock => true
    | _ => false) ||
  error.rawOsError.any recoverableNetworkCodes.contains

namespace Exchange

def holds (key : SlotKey) : Exchange → Prop
  | locked command | awaiting command _ => command.key = key
  | _ => False

def outcome : Exchange → Option (Except IoError (List UInt8))
  | responded _ response => some (.ok response)
  | failed error => some (.error error)
  | _ => none

end Exchange

structure System where
  client : ClientWorld TransferCredentials
  world : World
  links : List Link
  slots : SlotKey → Slot
  exchanges : Nat → Exchange
  nextRequestId : Nat → UInt64

namespace System

def start (now : Nat) (trusted : CertificateFingerprint → Bool) : System :=
  ⟨.empty, .start now trusted, [], fun _ => ⟨none, none⟩, fun _ => .idle, fun _ => 1⟩

def setExchange (system : System) (t : Nat) (exchange : Exchange) : System :=
  { system with exchanges := Function.update system.exchanges t exchange }

def setSlot (system : System) (key : SlotKey) (slot : Slot) : System :=
  { system with slots := Function.update system.slots key slot }

def setLink (system : System) (j : Nat) (link : Link) : System :=
  { system with links := system.links.set j link }

def Asks (system : System) (t : Nat) (rpc : Rpc TransferCredentials)
    (source : RemoteSource TransferCredentials) : Prop :=
  ∃ s pc, system.client.At t s pc ∧ pc.rpc s = some rpc ∧
    system.client.registry.sources[s]? = some source

end System

inductive SystemLabel where
  | client (l : ClientLabel TransferCredentials)
  | world (l : Label)
  | link (j : Nat)
  | exchange (t : Nat)

inductive SystemStep (server : ServerState) : System → SystemLabel → System → Prop
  | client {system : System} {l : ClientLabel TransferCredentials}
      {client : ClientWorld TransferCredentials} (hl : l.answered = false)
      (h : ClientStep system.client l client) :
      SystemStep server system (.client l) { system with client := client }
  | world {system : System} {l : Label} {world : World} (h : Step server system.world l world) :
      SystemStep server system (.world l) { system with world := world }
  | link {system : System} {j : Nat} {link link' : Link} {world : World}
      (hlink : system.links[j]? = some link) (h : LinkStep server system.world link world link') :
      SystemStep server system (.link j) { system.setLink j link' with world := world }
  | issue {system : System} {t : Nat} {rpc : Rpc TransferCredentials}
      {source : RemoteSource TransferCredentials} {nonce : Secret} {opcode : Opcode}
      {payload : List UInt8} (hasks : system.Asks t rpc source)
      (hidle : system.exchanges t = .idle)
      (hencode : rpc.encode nonce source = .ok (opcode, payload)) :
      SystemStep server system (.exchange t) (system.setExchange t
        (.trying ⟨⟨source.client, .carrying opcode⟩, opcode, payload⟩))
  | notIssued {system : System} {t : Nat} {rpc : Rpc TransferCredentials}
      {source : RemoteSource TransferCredentials} (error : IoError)
      (hasks : system.Asks t rpc source) (hidle : system.exchanges t = .idle) :
      SystemStep server system (.exchange t) (system.setExchange t (.failed error))
  | giveUp {system : System} {t : Nat} {command : Command} (error : IoError)
      (htrying : system.exchanges t = .trying command) :
      SystemStep server system (.exchange t) (system.setExchange t (.failed error))
  | lock {system : System} {t : Nat} {command : Command}
      (htrying : system.exchanges t = .trying command)
      (hfree : (system.slots command.key).holder = none) :
      SystemStep server system (.exchange t)
        ((system.setSlot command.key ⟨some t, (system.slots command.key).link⟩).setExchange t
          (.locked command))
  | connect {system : System} {t : Nat} {command : Command} (peer : CertificateFingerprint)
      (hlocked : system.exchanges t = .locked command)
      (hnone : (system.slots command.key).link = none) :
      SystemStep server system (.exchange t)
        { system.setSlot command.key ⟨some t, some system.links.length⟩ with
          links := system.links ++ [.opened peer]
          nextRequestId := Function.update system.nextRequestId command.key.client
            (system.nextRequestId command.key.client + 1) }
  | send {system : System} {t j : Nat} {command : Command} {link : Link} {bytes : List UInt8}
      (hlocked : system.exchanges t = .locked command)
      (hslot : (system.slots command.key).link = some j)
      (hlink : system.links[j]? = some link)
      (hwrite : writeFrame ⟨command.opcode.code, system.nextRequestId command.key.client,
        command.payload⟩ = .ok bytes) :
      SystemStep server system (.exchange t)
        { (system.setLink j { link with upstream := link.upstream ++ bytes }).setExchange t
            (.awaiting command (system.nextRequestId command.key.client)) with
          nextRequestId := Function.update system.nextRequestId command.key.client
            (system.nextRequestId command.key.client + 1) }
  | receive {system : System} {t j : Nat} {command : Command} {requestId : UInt64} {link : Link}
      {frame : Frame} {rest : List UInt8}
      (hawaiting : system.exchanges t = .awaiting command requestId)
      (hslot : (system.slots command.key).link = some j)
      (hlink : system.links[j]? = some link)
      (hread : readFrame link.downstream = .ok (frame, rest))
      (hopcode : frame.opcode = responseOpcode command.opcode) (hid : frame.requestId = requestId) :
      SystemStep server system (.exchange t)
        (((system.setLink j { link with downstream := rest }).setSlot command.key
          ⟨none, some j⟩).setExchange t (.responded command frame.payload))
  | lose {system : System} {t : Nat} {command : Command} (error : IoError)
      (hholds : system.exchanges t = .locked command ∨
        ∃ requestId, system.exchanges t = .awaiting command requestId) :
      SystemStep server system (.exchange t)
        ((system.setSlot command.key ⟨none, none⟩).setExchange t (.failed error))
  | retry {system : System} {t : Nat} {command : Command} (error : IoError)
      (hholds : system.exchanges t = .locked command ∨
        ∃ requestId, system.exchanges t = .awaiting command requestId)
      (hrecoverable : isRecoverableNetworkError error = true) :
      SystemStep server system (.exchange t)
        ((system.setSlot command.key ⟨none, none⟩).setExchange t (.trying command))
  | answer {system : System} {t : Nat} {rpc : Rpc TransferCredentials}
      {source : RemoteSource TransferCredentials} {outcome : Except IoError (List UInt8)}
      {client : ClientWorld TransferCredentials} (hasks : system.Asks t rpc source)
      (houtcome : (system.exchanges t).outcome = some outcome)
      (h : ClientStep system.client (.answer t (rpc.reply source outcome)) client) :
      SystemStep server system (.client (.answer t (rpc.reply source outcome)))
        { system.setExchange t .idle with client := client }

end ClipFerry.Client
