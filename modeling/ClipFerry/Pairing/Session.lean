import Mathlib.Logic.Function.Basic
import ClipFerry.Device.Identity
import ClipFerry.Foundation.Transition
import ClipFerry.Pairing.Hello

namespace ClipFerry.Pairing

open Device (TlsIdentity)
open Protocol Server Transition VirtualTree

abbrev PairingCode : Type := List.Vector UInt8 8

def transcriptBytes (listener connector : Hello) : List UInt8 :=
  transcriptDomain ++ (listener.bytes ++ connector.bytes)

def pairingTranscript (digest : List UInt8 → Secret) (listener connector : Hello) :
    Except IoError Secret := do
  if listener.role ≠ .listener ∨ connector.role ≠ .connector then
    .error (invalidData "pairing transcript roles are not canonical") else
  let first ← listener.encode
  let second ← connector.encode
  .ok (digest (transcriptDomain ++ (first ++ second)))

def pairingCode (transcriptHash : Secret) : PairingCode :=
  ⟨transcriptHash.val.take 8, by rw [List.length_take, transcriptHash.property]; rfl⟩

structure PendingPairing where
  localFingerprint : CertificateFingerprint
  peerFingerprint : CertificateFingerprint
  peerCertificate : List UInt8
  transcriptHash : Secret
  code : PairingCode

def proofMessage (transcriptHash : Secret) : List UInt8 := proofMagic ++ transcriptHash.val

def confirmMessage (transcriptHash : Secret) (localApproved : Bool) : List UInt8 :=
  confirmMagic ++ (transcriptHash.val ++ [if localApproved then 1 else 0])

def proofLength : Nat := 8 + 32

def confirmLength : Nat := 8 + 32 + 1

def checkConfirm (transcriptHash : Secret) (localApproved : Bool) (remote : List UInt8) :
    Except IoError Unit :=
  if remote.take 8 ≠ confirmMagic ∨ (remote.drop 8).take 32 ≠ transcriptHash.val then
    .error (invalidData "pairing confirmation transcript mismatch")
  else if 1 < remote.getD 40 0 then
    .error (invalidData "pairing confirmation decision is invalid")
  else if localApproved = false ∨ remote.getD 40 0 = 0 then
    .error (.new .permissionDenied "pairing was not approved on both devices")
  else .ok ()

inductive PairingPhase where
  | starting
  | greeting
  | pinned
  | sendingProof
  | readingProof
  | pending
  | sendingConfirm
  | readingConfirm
  | trusting
  | failed (error : IoError)

inductive Party where
  | session (k : Nat)
  | adversary
deriving DecidableEq

/-! One run of `listen_for_pairing` or `connect_for_pairing` and the `confirm` after it. `channel`
is who holds the other end of its pinned TLS stream, `written` and `received` what it passed. -/

structure PairingSession where
  role : Role
  certificate : List UInt8
  nonce : Secret
  phase : PairingPhase
  remote : Option Hello
  transcriptHash : Option Secret
  channel : Option Party
  approved : Option Bool
  written : List UInt8
  received : List UInt8

namespace PairingSession

variable (digest : List UInt8 → Secret) (session : PairingSession)

def hello : Hello := ⟨session.role, session.nonce, session.certificate⟩

def hashWith (remote : Hello) : Except IoError Secret :=
  match session.role with
  | .listener => pairingTranscript digest session.hello remote
  | .connector => pairingTranscript digest remote session.hello

def pairing : Option PendingPairing := do
  let remote ← session.remote
  let transcriptHash ← session.transcriptHash
  some ⟨⟨digest session.certificate⟩, ⟨digest remote.certificate⟩, remote.certificate,
    transcriptHash, pairingCode transcriptHash⟩

def pendingPairing : Option PendingPairing :=
  match session.phase with
  | .pending | .sendingConfirm | .readingConfirm => session.pairing digest
  | _ => none

def script : List UInt8 :=
  match session.transcriptHash with
  | none => []
  | some transcriptHash => proofMessage transcriptHash ++
    match session.approved with
    | none => []
    | some approved => confirmMessage transcriptHash approved

end PairingSession

inductive SessionAction where
  | silent
  | joins (party : Party)
  | sends (chunk : List UInt8)
  | receives (chunk : List UInt8)

inductive SessionStep (digest : List UInt8 → Secret) :
    PairingSession → SessionAction → PairingSession → Prop
  | opened {s : PairingSession} {hello : Hello} (hphase : s.phase = .starting)
      (hcreate : Hello.create s.role s.certificate s.nonce = .ok hello) :
      SessionStep digest s .silent { s with phase := .greeting }
  | greeted {s : PairingSession} {stream rest : List UInt8} {remote : Hello}
      {transcriptHash : Secret} (hphase : s.phase = .greeting)
      (hread : Hello.readFrom stream s.role.other = .ok (remote, rest))
      (htranscript : s.hashWith digest remote = .ok transcriptHash) :
      SessionStep digest s .silent
        { s with phase := .pinned, remote := some remote, transcriptHash := some transcriptHash }
  | joined {s : PairingSession} (party : Party) (hphase : s.phase = .pinned)
      (hchannel : s.channel = none) :
      SessionStep digest s (.joins party) { s with channel := some party }
  | connected {s : PairingSession} (hphase : s.phase = .pinned) (hchannel : s.channel ≠ none) :
      SessionStep digest s .silent { s with phase := .sendingProof }
  | wrote {s : PairingSession} (count : Nat)
      (hphase : s.phase = .sendingProof ∨ s.phase = .sendingConfirm) :
      SessionStep digest s (.sends (((s.script).drop s.written.length).take count))
        { s with written := s.written ++ ((s.script).drop s.written.length).take count }
  | sentProof {s : PairingSession} (hphase : s.phase = .sendingProof)
      (hall : s.written = s.script) :
      SessionStep digest s .silent { s with phase := .readingProof }
  | gotProof {s : PairingSession} (chunk : List UInt8) (hphase : s.phase = .readingProof)
      (hfits : (s.received ++ chunk).length ≤ proofLength) :
      SessionStep digest s (.receives chunk) { s with received := s.received ++ chunk }
  | proved {s : PairingSession} {transcriptHash : Secret} (hphase : s.phase = .readingProof)
      (hhash : s.transcriptHash = some transcriptHash)
      (hproof : s.received = proofMessage transcriptHash) :
      SessionStep digest s .silent { s with phase := .pending }
  | decided {s : PairingSession} (localApproved : Bool) (hphase : s.phase = .pending) :
      SessionStep digest s .silent
        { s with phase := .sendingConfirm, approved := some localApproved }
  | sentConfirm {s : PairingSession} (hphase : s.phase = .sendingConfirm)
      (hall : s.written = s.script) :
      SessionStep digest s .silent { s with phase := .readingConfirm }
  | gotConfirm {s : PairingSession} (chunk : List UInt8) (hphase : s.phase = .readingConfirm)
      (hfits : (s.received ++ chunk).length ≤ proofLength + confirmLength) :
      SessionStep digest s (.receives chunk) { s with received := s.received ++ chunk }
  | confirmed {s : PairingSession} {transcriptHash : Secret} {localApproved : Bool}
      {identity : TlsIdentity} (hphase : s.phase = .readingConfirm)
      (hhash : s.transcriptHash = some transcriptHash)
      (happroved : s.approved = some localApproved)
      (hwhole : s.received.length = proofLength + confirmLength)
      (hcheck : checkConfirm transcriptHash localApproved (s.received.drop proofLength) = .ok ())
      (hidentity : identity.fingerprint = ⟨digest s.certificate⟩) :
      SessionStep digest s .silent { s with phase := .trusting }
  | fails {s : PairingSession} (error : IoError) (hphase : s.phase ≠ .trusting) :
      SessionStep digest s .silent { s with phase := .failed error }

/-! The network: `inbox` holds what a pinned stream carries to its end. Hellos are not in it, a
session reads any that the attacker likes. -/

structure PairingWorld where
  sessions : Nat → PairingSession
  inbox : Nat → List UInt8

def deliver (inbox : Nat → List UInt8) (party : Option Party) (chunk : List UInt8) :
    Nat → List UInt8 :=
  match party with
  | some (.session j) => Function.update inbox j (inbox j ++ chunk)
  | some .adversary | none => inbox

def Pins (a b : PairingSession) : Prop :=
  a.remote.map (·.certificate) = some b.certificate

inductive PairingStep (digest : List UInt8 → Secret) : PairingWorld → Nat → PairingWorld → Prop
  | internal {world : PairingWorld} {k : Nat} {session : PairingSession}
      (h : SessionStep digest (world.sessions k) .silent session) :
      PairingStep digest world k ⟨Function.update world.sessions k session, world.inbox⟩
  | joined {world : PairingWorld} {j k : Nat} {listener connector : PairingSession}
      (hlistener : (world.sessions j).role = .listener)
      (hconnector : (world.sessions k).role = .connector)
      (hpins : Pins (world.sessions j) (world.sessions k))
      (hpinned : Pins (world.sessions k) (world.sessions j))
      (h : SessionStep digest (world.sessions j) (.joins (.session k)) listener)
      (h' : SessionStep digest (world.sessions k) (.joins (.session j)) connector) :
      PairingStep digest world k
        ⟨Function.update (Function.update world.sessions j listener) k connector, world.inbox⟩
  | seized {world : PairingWorld} {k : Nat} {session : PairingSession}
      (hforeign : ∀ j, ¬Pins (world.sessions k) (world.sessions j))
      (h : SessionStep digest (world.sessions k) (.joins .adversary) session) :
      PairingStep digest world k ⟨Function.update world.sessions k session, world.inbox⟩
  | sent {world : PairingWorld} {k : Nat} {session : PairingSession} {chunk : List UInt8}
      (h : SessionStep digest (world.sessions k) (.sends chunk) session) :
      PairingStep digest world k ⟨Function.update world.sessions k session,
        deliver world.inbox (world.sessions k).channel chunk⟩
  | received {world : PairingWorld} {k : Nat} {session : PairingSession}
      {chunk rest : List UInt8} (hinbox : world.inbox k = chunk ++ rest)
      (h : SessionStep digest (world.sessions k) (.receives chunk) session) :
      PairingStep digest world k ⟨Function.update world.sessions k session,
        Function.update world.inbox k rest⟩
  | injected {world : PairingWorld} {k : Nat} (bytes : List UInt8)
      (hchannel : (world.sessions k).channel = some .adversary) :
      PairingStep digest world k ⟨world.sessions,
        Function.update world.inbox k (world.inbox k ++ bytes)⟩

structure PairingStart (world : PairingWorld) : Prop where
  sessions : ∀ k, ∃ role certificate nonce, world.sessions k =
    ⟨role, certificate, nonce, .starting, none, none, none, none, [], []⟩
  inbox : ∀ k, world.inbox k = []

end ClipFerry.Pairing
