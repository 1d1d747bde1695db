import Mathlib.Logic.Function.Basic
import ClipFerry.Client.Credentials

namespace ClipFerry.Client

open Protocol Server Transition

/-! A server that answers every request; a session is named by its place in the table. -/

inductive Serves (shared : Shared) : Rpc Nat → List Update → Reply Nat → Prop
  | begun {source : Nat} (nonce : Secret) (session : TransferSession) :
      Serves shared (.beginTransfer source) [.create nonce session]
        (.began shared.sessions.length)
  | notBegun {source : Nat} (status : ResponseStatus) :
      Serves shared (.beginTransfer source) [] (.failed (statusError status))
  | control {i sequence : Nat} {opcode : Opcode} {session : TransferSession}
      {us : List Update} {status : TransferStatus}
      (hsession : shared.sessions[i]? = some session)
      (h : ServerState.control session i sequence opcode = (us, .done (.ok (.status status)))) :
      Serves shared (.control i sequence opcode) us (.status status)
  | controlFailed {i sequence : Nat} {opcode : Opcode} {session : TransferSession}
      {us : List Update} {status : ResponseStatus}
      (hsession : shared.sessions[i]? = some session)
      (h : ServerState.control session i sequence opcode = (us, .done (.error status))) :
      Serves shared (.control i sequence opcode) us (.failed (statusError status))
  | status {i : Nat} {session : TransferSession} (hsession : shared.sessions[i]? = some session) :
      Serves shared (.status i) [] (.status session.inner.status)
  | paused {i : Nat} {offset : UInt64} {requested : Nat} {session : TransferSession}
      (hsession : shared.sessions[i]? = some session) (h : session.inner.state = .paused) :
      Serves shared (.readRange i offset requested) [] (.range session.inner.status [])
  | range {i : Nat} {offset : UInt64} {requested : Nat} {session : TransferSession}
      (bytes : List UInt8) (hsession : shared.sessions[i]? = some session)
      (h : session.inner.state ≠ .cancelled) :
      Serves shared (.readRange i offset requested) [.serve i offset.toNat bytes.length]
        (.range (session.inner.serve offset.toNat bytes.length).status bytes)
  | readFailed {i : Nat} {offset : UInt64} {requested : Nat} (status : ResponseStatus) :
      Serves shared (.readRange i offset requested) [] (.failed (statusError status))

structure TransferGroup where
  client : ClientWorld Nat
  shared : Shared
  replies : Nat → Option (Reply Nat)
  lastStored : Option Nat

inductive GroupLabel where
  | client (l : ClientLabel Nat)
  | serve (t : Nat)

def SourcePc.resting {κ : Type} : SourcePc κ → Bool
  | .napping _ _ _ | .returned _ | .done _ => true
  | _ => false

def Thread.resting {κ : Type} : Thread κ → Bool
  | .source _ _ pc => pc.resting
  | .group _ (.done _) => true
  | .group _ _ => false

theorem Thread.resting_focus {κ : Type} {thread : Thread κ} {s : Nat} {pc : SourcePc κ}
    (h : thread.resting = true) (hfocus : thread.focus = some (s, pc)) : pc.resting = true := by
  cases thread with
  | source r task sub =>
    cases hfocus
    exact h
  | group op sub =>
    cases sub with
    | done => cases hfocus
    | _ => cases h

def SourcePc.acknowledged {κ : Type} (reply : Option (Reply κ)) : SourcePc κ → Bool
  | .done (.ok _) => true
  | .controlling _ _ _ => match reply with
    | some (.status _) => true
    | _ => false
  | _ => false

def GroupLabel.plain : GroupLabel → Bool
  | .client (.spawn (.source _ (.readAt _ _) _)) | .client (.spawn (.group .pauseAll _))
  | .client (.spawn (.group .resumeAll _)) => true
  | .client (.spawn _) => false
  | _ => true

namespace TransferGroup

def start : TransferGroup := ⟨.empty, .empty, fun _ => none, none⟩

def rpc (group : TransferGroup) (t : Nat) : Option (Rpc Nat) :=
  group.client.threads[t]?.bind Thread.rpc

def storedBy (group : TransferGroup) : ClientLabel Nat → Option Nat
  | .group t => match group.client.threads[t]? with
    | some (.group _ (.storing _)) => some t
    | _ => group.lastStored
  | _ => group.lastStored

inductive Step : TransferGroup → GroupLabel → TransferGroup → Prop
  | client {group : TransferGroup} {l : ClientLabel Nat} {client : ClientWorld Nat}
      (hl : l.answered = false) (h : ClientStep group.client l client) :
      Step group (.client l) { group with client := client, lastStored := group.storedBy l }
  | serve {group : TransferGroup} {t : Nat} {rpc : Rpc Nat} {us : List Update}
      {reply : Reply Nat} (hrpc : group.rpc t = some rpc) (hnone : group.replies t = none)
      (h : Serves group.shared rpc us reply) :
      Step group (.serve t)
        { group with
          shared := us.foldl Shared.run group.shared
          replies := Function.update group.replies t (some reply) }
  | answer {group : TransferGroup} {t : Nat} {reply : Reply Nat} {client : ClientWorld Nat}
      (hreply : group.replies t = some reply)
      (h : ClientStep group.client (.answer t reply) client) :
      Step group (.client (.answer t reply))
        { group with client := client, replies := Function.update group.replies t none }

def Owes (reply : Option (Reply Nat)) : GroupPc Nat → Nat → Prop
  | .controlling _ current pc rest _, s =>
    s ∈ rest ∨ (s = current ∧ pc.acknowledged reply = false)
  | .done (.error _), _ => True
  | _, _ => False

def Awaits (group : TransferGroup) (i : Nat) : Prop :=
  ∀ t pc, group.lastStored = some t → group.client.threads[t]? = some (.group .resumeAll pc) →
    ∃ s, group.client.Holds s (fun source => source.transfer = some i) ∧
      Owes (group.replies t) pc s

/-! No late Pause, and no resume without the sources of the paused sessions. -/

def Timely (group : TransferGroup) : GroupLabel → Prop
  | .serve t => ∀ i sequence session, group.rpc t = some (.control i sequence .pause) →
    group.shared.sessions[i]? = some session → session.inner.state = .running →
    session.inner.lastControlSequence < sequence → group.Awaits i
  | .client (.group t) => ∀ all,
    group.client.threads[t]? = some (.group .resumeAll (.storing all)) →
    ∀ i, group.shared.stateOf i = some .paused →
      ∃ s ∈ all, group.client.Holds s fun source => source.transfer = some i
  | .client _ => True

def TimelyStep (group : TransferGroup) (l : GroupLabel) (group' : TransferGroup) : Prop :=
  Step group l group' ∧ group.Timely l

def Quiescent (group : TransferGroup) : Prop :=
  (∀ t, group.replies t = none) ∧ ∀ thread ∈ group.client.threads, thread.resting = true

end TransferGroup

end ClipFerry.Client
