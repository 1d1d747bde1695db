import ClipFerry.Client.Connection
import ClipFerry.Protocol.FrameStream

namespace ClipFerry.Server

open Protocol Client Foundation Transition

def helloRoleReceiver : UInt8 := 1

def ValidHello (hello : Frame) : Prop :=
  hello.opcode = Opcode.hello.code ∧ hello.payload.length = 33 ∧
    hello.payload.head? = some helloRoleReceiver ∧ ¬(hello.payload.drop 1).all (· = 0)

instance (hello : Frame) : Decidable (ValidHello hello) :=
  inferInstanceAs (Decidable (_ ∧ _))

def invalidHello : IoError := invalidData "invalid secure protocol hello"

def unauthorizedPeer : IoError := .new .permissionDenied "peer is not authorized"

def revokedPeer : IoError := .new .permissionDenied "peer trust was revoked"

inductive ConnectionPc where
  | handshaking
  | authenticated
  | admitting (check : Nat)
  | greeting
  | greeted (hello : Frame)
  | waiting
  | checking (frame : Frame) (check : Nat)
  | serving (frame : Frame) (opcode : Opcode) (check call : Nat)
  | writing (frame : Frame) (opcode : Opcode) (check : Nat) (response : List UInt8)
  | failed (error : IoError)
  | unauthenticated
  | leaving (failure : Option IoError)
  | ended (failure : Option IoError)
deriving DecidableEq

-- `requests` are the frames read after the hello, each with the trust check made for it
structure SecureConnection where
  peer : Option CertificateFingerprint
  upstream : List UInt8
  sent : List UInt8
  pc : ConnectionPc
  hello : Option Frame
  requests : List (Frame × Nat)

def SecureConnection.accepted : SecureConnection := ⟨none, [], [], .handshaking, none, []⟩

def greetingFrame (hello : Frame) (nonce : Secret) : Frame :=
  ⟨responseOpcode .hello, hello.requestId, nonce.val⟩

def replyFrame (frame : Frame) (opcode : Opcode) (response : List UInt8) : Frame :=
  ⟨responseOpcode opcode, frame.requestId, response⟩

/-! `handle_secure_connection`, after the handshake that `worker_tls.accept` makes. -/

inductive ConnectionStep (server : ServerState) :
    World → SecureConnection → World → SecureConnection → Prop
  | arrive {w : World} {c : SecureConnection} (bytes : List UInt8) :
      ConnectionStep server w c w { c with upstream := c.upstream ++ bytes }
  | authenticate {w : World} {c : SecureConnection} (hpc : c.pc = .handshaking)
      (peer : CertificateFingerprint) :
      ConnectionStep server w c w { c with peer := some peer, pc := .authenticated }
  | refuse {w : World} {c : SecureConnection} (hpc : c.pc = .handshaking) :
      ConnectionStep server w c w { c with pc := .unauthenticated }
  | check {w w' : World} {c : SecureConnection} {peer : CertificateFingerprint}
      (hpc : c.pc = .authenticated) (hpeer : c.peer = some peer)
      (hinvoke : Step server w (.invoke (.connect peer)) w') :
      ConnectionStep server w c w' { c with pc := .admitting w.calls.length }
  | admitted {w : World} {c : SecureConnection} {k : Nat} {peer : CertificateFingerprint}
      (hpc : c.pc = .admitting k)
      (hallowed : At k (.connect peer) (.done (.ok .connected)) w) :
      ConnectionStep server w c w { c with pc := .greeting }
  | denied {w : World} {c : SecureConnection} {k : Nat} {peer : CertificateFingerprint}
      {status : ResponseStatus} (hpc : c.pc = .admitting k)
      (hdenied : At k (.connect peer) (.done (.error status)) w) :
      ConnectionStep server w c w { c with pc := .failed unauthorizedPeer }
  | hello {w : World} {c : SecureConnection} {frame : Frame} {rest : List UInt8}
      (hpc : c.pc = .greeting) (hread : readFrame c.upstream = .ok (frame, rest))
      (hvalid : ValidHello frame) :
      ConnectionStep server w c w
        { c with upstream := rest, hello := some frame, pc := .greeted frame }
  | badHello {w : World} {c : SecureConnection} {frame : Frame} {rest : List UInt8}
      (hpc : c.pc = .greeting) (hread : readFrame c.upstream = .ok (frame, rest))
      (hinvalid : ¬ValidHello frame) :
      ConnectionStep server w c w { c with upstream := rest, pc := .failed invalidHello }
  | greet {w : World} {c : SecureConnection} {frame : Frame} {bytes : List UInt8}
      (hpc : c.pc = .greeted frame) (nonce : Secret)
      (hwrite : writeFrame (greetingFrame frame nonce) = .ok bytes) :
      ConnectionStep server w c w { c with sent := c.sent ++ bytes, pc := .waiting }
  | ungreeted {w : World} {c : SecureConnection} {frame : Frame} {bytes : List UInt8}
      (hpc : c.pc = .greeted frame) (nonce : Secret)
      (hwrite : writeFrame (greetingFrame frame nonce) = .ok bytes) (n : Nat) (error : IoError) :
      ConnectionStep server w c w { c with sent := c.sent ++ bytes.take n, pc := .failed error }
  | read {w w' : World} {c : SecureConnection} {peer : CertificateFingerprint} {frame : Frame}
      {rest : List UInt8} (hpc : c.pc = .waiting) (hpeer : c.peer = some peer)
      (hread : readFrame c.upstream = .ok (frame, rest))
      (hinvoke : Step server w (.invoke (.connect peer)) w') :
      ConnectionStep server w c w' { c with
        upstream := rest
        requests := c.requests ++ [(frame, w.calls.length)]
        pc := .checking frame w.calls.length }
  | revoked {w : World} {c : SecureConnection} {k : Nat} {peer : CertificateFingerprint}
      {frame : Frame} {status : ResponseStatus} (hpc : c.pc = .checking frame k)
      (hdenied : At k (.connect peer) (.done (.error status)) w) :
      ConnectionStep server w c w { c with pc := .failed revokedPeer }
  | unknown {w : World} {c : SecureConnection} {k : Nat} {peer : CertificateFingerprint}
      {frame : Frame} {error : IoError} (hpc : c.pc = .checking frame k)
      (hallowed : At k (.connect peer) (.done (.ok .connected)) w)
      (hopcode : Opcode.tryFrom frame.opcode = .error error) :
      ConnectionStep server w c w { c with pc := .failed error }
  | dispatch {w w' : World} {c : SecureConnection} {k checkedAt readAt : Nat}
      {peer : CertificateFingerprint} {frame : Frame} {opcode : Opcode} {request : Request}
      (hpc : c.pc = .checking frame k) (hpeer : c.peer = some peer)
      (hallowed : At k (.connect peer) (.done (.ok .connected)) w)
      (hopcode : Opcode.tryFrom frame.opcode = .ok opcode)
      (hcall : dispatchRequest server checkedAt readAt peer opcode frame.payload = .call request)
      (hinvoke : Step server w (.invoke request) w') :
      ConnectionStep server w c w' { c with pc := .serving frame opcode k w.calls.length }
  | reply {w : World} {c : SecureConnection} {k checkedAt readAt : Nat}
      {peer : CertificateFingerprint} {frame : Frame} {opcode : Opcode} {response : List UInt8}
      (hpc : c.pc = .checking frame k) (hpeer : c.peer = some peer)
      (hallowed : At k (.connect peer) (.done (.ok .connected)) w)
      (hopcode : Opcode.tryFrom frame.opcode = .ok opcode)
      (hreply : dispatchRequest server checkedAt readAt peer opcode frame.payload =
        .reply response) :
      ConnectionStep server w c w { c with pc := .writing frame opcode k response }
  | respond {w : World} {c : SecureConnection} {k call : Nat} {frame : Frame} {opcode : Opcode}
      {request : Request} {result : WireResult Answer}
      (hpc : c.pc = .serving frame opcode k call) (hdone : At call request (.done result) w) :
      ConnectionStep server w c w { c with pc := .writing frame opcode k (respond result) }
  | write {w : World} {c : SecureConnection} {k : Nat} {frame : Frame} {opcode : Opcode}
      {response bytes : List UInt8} (hpc : c.pc = .writing frame opcode k response)
      (hwrite : writeFrame (replyFrame frame opcode response) = .ok bytes) :
      ConnectionStep server w c w { c with sent := c.sent ++ bytes, pc := .waiting }
  | unwritten {w : World} {c : SecureConnection} {k : Nat} {frame : Frame} {opcode : Opcode}
      {response bytes : List UInt8} (hpc : c.pc = .writing frame opcode k response)
      (hwrite : writeFrame (replyFrame frame opcode response) = .ok bytes) (n : Nat)
      (error : IoError) :
      ConnectionStep server w c w { c with sent := c.sent ++ bytes.take n, pc := .failed error }
  | unwritable {w : World} {c : SecureConnection} {k : Nat} {frame : Frame} {opcode : Opcode}
      {response : List UInt8} {error : IoError} (hpc : c.pc = .writing frame opcode k response)
      (hwrite : writeFrame (replyFrame frame opcode response) = .error error) :
      ConnectionStep server w c w { c with pc := .failed error }
  | unread {w : World} {c : SecureConnection}
      (hpc : c.pc = .authenticated ∨ c.pc = .greeting ∨ c.pc = .waiting) (error : IoError) :
      ConnectionStep server w c w { c with pc := .failed error }
  | finish {w : World} {c : SecureConnection} (hpc : c.pc = .waiting) (hend : c.upstream = []) :
      ConnectionStep server w c w { c with pc := .leaving none }

inductive AcceptPc where
  | top
  | listening
  | arrived
  | claimed (before : Nat)
  | refusing
  | stopped
deriving DecidableEq

structure SecureListener where
  world : World
  connections : List SecureConnection
  accepting : AcceptPc
  stop : Bool
  workers : Nat
  acceptedConnections : Nat
  protocolErrors : Nat
  tlsFailures : Nat
  refused : Nat
  unstarted : Nat
  acceptErrors : Nat

def defaultMaxWorkers : Nat := 32

def SecureListener.start (now : Nat) (trusted : CertificateFingerprint → Bool) : SecureListener :=
  ⟨.start now trusted, [], .top, false, 0, 0, 0, 0, 0, 0, 0⟩

-- a lost connection and a refused peer are no errors of the protocol
def countsAsProtocolError (error : IoError) : Bool :=
  error.kind ≠ .permissionDenied && !isRecoverableNetworkError error

namespace SecureListener

def setConnection (listener : SecureListener) (i : Nat) (c : SecureConnection) : SecureListener :=
  { listener with connections := listener.connections.set i c }

def noteError (listener : SecureListener) (error : IoError) : SecureListener :=
  { listener with
    protocolErrors := listener.protocolErrors + (countsAsProtocolError error).toNat }

end SecureListener

inductive ListenerStep (server : ServerState) : SecureListener → SecureListener → Prop
  | world {listener : SecureListener} {l : Label} {w : World}
      (hl : ∀ request, l ≠ .invoke request) (h : Step server listener.world l w) :
      ListenerStep server listener { listener with world := w }
  | connection {listener : SecureListener} {i : Nat} {c c' : SecureConnection} {w : World}
      (hc : listener.connections[i]? = some c)
      (h : ConnectionStep server listener.world c w c') :
      ListenerStep server listener { listener.setConnection i c' with world := w }
  | note {listener : SecureListener} {i : Nat} {c : SecureConnection} {error : IoError}
      (hc : listener.connections[i]? = some c) (hpc : c.pc = .failed error) :
      ListenerStep server listener
        ((listener.setConnection i { c with pc := .leaving (some error) }).noteError error)
  | noteTls {listener : SecureListener} {i : Nat} {c : SecureConnection}
      (hc : listener.connections[i]? = some c) (hpc : c.pc = .unauthenticated) :
      ListenerStep server listener
        { listener.setConnection i { c with pc := .leaving none } with
          tlsFailures := listener.tlsFailures + 1 }
  | drop {listener : SecureListener} {i : Nat} {c : SecureConnection} {failure : Option IoError}
      (hc : listener.connections[i]? = some c) (hpc : c.pc = .leaving failure) :
      ListenerStep server listener
        { listener.setConnection i { c with pc := .ended failure } with
          workers := listener.workers - 1 }
  | askStop {listener : SecureListener} :
      ListenerStep server listener { listener with stop := true }
  | listen {listener : SecureListener} (hpc : listener.accepting = .top)
      (hstop : listener.stop = false) :
      ListenerStep server listener { listener with accepting := .listening }
  | stopped {listener : SecureListener} (hpc : listener.accepting = .top)
      (hstop : listener.stop = true) :
      ListenerStep server listener { listener with accepting := .stopped }
  | nobody {listener : SecureListener} (hpc : listener.accepting = .listening) :
      ListenerStep server listener { listener with accepting := .top }
  | broken {listener : SecureListener} (hpc : listener.accepting = .listening) :
      ListenerStep server listener { listener with
        accepting := .stopped
        protocolErrors := listener.protocolErrors + 1
        acceptErrors := listener.acceptErrors + 1 }
  | accept {listener : SecureListener} (hpc : listener.accepting = .listening) :
      ListenerStep server listener { listener with
        accepting := .arrived
        acceptedConnections := listener.acceptedConnections + 1 }
  | claim {listener : SecureListener} (hpc : listener.accepting = .arrived) :
      ListenerStep server listener { listener with
        accepting := .claimed listener.workers
        workers := listener.workers + 1 }
  | release {listener : SecureListener} {before : Nat} (hpc : listener.accepting = .claimed before)
      (hfull : defaultMaxWorkers ≤ before) :
      ListenerStep server listener { listener with
        accepting := .refusing
        workers := listener.workers - 1 }
  | refuse {listener : SecureListener} (hpc : listener.accepting = .refusing) :
      ListenerStep server listener { listener with
        accepting := .top
        protocolErrors := listener.protocolErrors + 1
        refused := listener.refused + 1 }
  | spawn {listener : SecureListener} {before : Nat} (hpc : listener.accepting = .claimed before)
      (hfree : before < defaultMaxWorkers) :
      ListenerStep server listener { listener with
        accepting := .top
        connections := listener.connections ++ [.accepted] }
  | unspawned {listener : SecureListener} {before : Nat}
      (hpc : listener.accepting = .claimed before) (hfree : before < defaultMaxWorkers) :
      ListenerStep server listener { listener with
        accepting := .top
        workers := listener.workers - 1
        unstarted := listener.unstarted + 1 }

end ClipFerry.Server
