import ClipFerry.Foundation.Position
import ClipFerry.Foundation.Table
import ClipFerry.Server.Session

namespace ClipFerry.Server

open Protocol Foundation

structure SecureMetrics where
  deniedRequests : Nat
  replayedRequests : Nat
  begunTransfers : Nat
  readRequests : Nat
  servedBytes : Nat
  cancelledTransfers : Nat
deriving DecidableEq

structure Shared where
  sessions : List TransferSession
  transfers : Table ProtocolId Nat
  beginNonces : Table Secret BeginTransferRecord
  metrics : SecureMetrics

inductive Update where
  | deny
  | replay
  | beginRead
  | prune (now : Nat)
  | create (nonce : Secret) (session : TransferSession)
  | control (session sequence : Nat) (opcode : Opcode)
  | cancel (session : Nat)
  | serve (session offset read : Nat)
deriving DecidableEq

namespace Shared

def empty : Shared := ⟨[], ∅, ∅, ⟨0, 0, 0, 0, 0, 0⟩⟩

def stateOf (shared : Shared) (i : Nat) : Option RemoteTransferState :=
  shared.sessions[i]?.map (·.inner.state)

def isActive (shared : Shared) (i : Nat) : Bool := (shared.stateOf i).any (·.active)

def expiresAfter (shared : Shared) (now i : Nat) : Bool :=
  shared.sessions[i]?.any fun session => decide (now < session.expiresAt)

def prune (shared : Shared) (now : Nat) : Shared :=
  { shared with
    transfers := shared.transfers.retain fun _ i => shared.expiresAfter now i
    beginNonces := shared.beginNonces.retain fun _ record => decide (now < record.expiresAt) }

def create (shared : Shared) (nonce : Secret) (session : TransferSession) : Shared :=
  { shared with
    sessions := shared.sessions ++ [{ session with inner := .fresh }]
    beginNonces := shared.beginNonces.insert nonce session.record
    transfers := shared.transfers.insert session.transferId shared.sessions.length
    metrics := { shared.metrics with begunTransfers := shared.metrics.begunTransfers + 1 } }

def modifyInner (shared : Shared) (i : Nat) (f : TransferInner → TransferInner) : Shared :=
  { shared with
    sessions := shared.sessions.modify i fun session => { session with inner := f session.inner } }

def countCancelled (shared : Shared) (cancels : Bool) : Shared :=
  { shared with metrics :=
    { shared.metrics with
      cancelledTransfers := shared.metrics.cancelledTransfers + cancels.toNat } }

def run (shared : Shared) : Update → Shared
  | .deny => { shared with metrics :=
      { shared.metrics with deniedRequests := shared.metrics.deniedRequests + 1 } }
  | .replay => { shared with metrics :=
      { shared.metrics with replayedRequests := shared.metrics.replayedRequests + 1 } }
  | .beginRead => { shared with metrics :=
      { shared.metrics with readRequests := shared.metrics.readRequests + 1 } }
  | .prune now => shared.prune now
  | .create nonce session => shared.create nonce session
  | .control i sequence opcode =>
    (shared.modifyInner i (·.accept sequence opcode)).countCancelled
      (opcode = .cancel && shared.isActive i)
  | .cancel i => (shared.modifyInner i (·.cancel)).countCancelled (shared.isActive i)
  | .serve i offset read =>
    { shared.modifyInner i (·.serve offset read) with metrics :=
      { shared.metrics with servedBytes := shared.metrics.servedBytes + read } }

end Shared

namespace Update

def onInner (i : Nat) (inner : TransferInner) : Update → TransferInner
  | control j sequence opcode => if j = i then inner.accept sequence opcode else inner
  | cancel j => if j = i then inner.cancel else inner
  | serve j offset read => if j = i then inner.serve offset read else inner
  | _ => inner

theorem onInner_moves (i : Nat) (inner : TransferInner) (u : Update) :
    (u.onInner i inner).state = inner.state ∨ inner.state.Moves (u.onInner i inner).state := by
  cases u with
  | control j sequence opcode =>
    rw [onInner]
    split
    · exact inner.state.lifeCycle_moves opcode
    · exact .inl rfl
  | cancel j =>
    rw [onInner, TransferInner.cancel]
    split
    · split
      · rename_i hactive
        exact .inr (.cancel hactive)
      · exact .inl rfl
    · exact .inl rfl
  | serve j offset read =>
    rw [onInner]
    split <;> exact .inl rfl
  | deny | replay | beginRead | prune now | create nonce session => exact .inl rfl

def keepsTables : Update → Bool
  | prune _ | create _ _ => false
  | _ => true

end Update

def innerAfter (i : Nat) (us : List Update) (inner : TransferInner) : TransferInner :=
  us.foldl (fun inner u => u.onInner i inner) inner

theorem innerAfter_eq {i : Nat} {us : List Update} {inner : TransferInner}
    (h : ∀ u ∈ us, ∀ inner, u.onInner i inner = inner) : innerAfter i us inner = inner := by
  induction us with
  | nil => rfl
  | cons u us ih =>
    have hu := h u List.mem_cons_self inner
    rw [innerAfter, List.foldl_cons, hu]
    exact ih fun v hv => h v (List.mem_cons_of_mem _ hv)

theorem innerAfter_append (i : Nat) (us vs : List Update) (inner : TransferInner) :
    innerAfter i (us ++ vs) inner = innerAfter i vs (innerAfter i us inner) :=
  List.foldl_append

theorem innerAfter_inactive {i : Nat} {us : List Update} {inner : TransferInner}
    (h : inner.state.active = false) : (innerAfter i us inner).state.active = false := by
  induction us generalizing inner with
  | nil => exact h
  | cons u us ih =>
    refine ih ?_
    rcases u.onInner_moves i inner with hsame | hmoves
    · rw [hsame, h]
    · cases h.symm.trans hmoves.active

namespace Shared

variable {shared : Shared} {i : Nat} {session : TransferSession}

theorem run_session (h : shared.sessions[i]? = some session) (u : Update) :
    (shared.run u).sessions[i]? = some { session with inner := u.onInner i session.inner } := by
  cases u with
  | create nonce created =>
    simp only [run, create, Update.onInner]
    rw [List.getElem?_append_left (List.getElem?_eq_some_iff.mp h).1, h]
  | control j sequence opcode | cancel j | serve j offset read =>
    simp only [run, countCancelled, modifyInner, Update.onInner, List.getElem?_modify, h]
    split <;> rfl
  | deny | replay | beginRead | prune now => exact h

theorem foldl_session (h : shared.sessions[i]? = some session) (us : List Update) :
    (us.foldl run shared).sessions[i]? =
      some { session with inner := innerAfter i us session.inner } := by
  induction us generalizing shared session with
  | nil => exact h
  | cons u us ih => exact ih (run_session h u)

theorem length_run {u : Update} (h : u.keepsTables = true) :
    (shared.run u).sessions.length = shared.sessions.length := by
  cases u with
  | create nonce session | prune now => cases h
  | control i sequence opcode | cancel i | serve i offset read =>
    simp [run, countCancelled, modifyInner]
  | deny | replay | beginRead => rfl

theorem length_foldl (shared : Shared) {us : List Update}
    (h : ∀ u ∈ us, u.keepsTables = true) :
    (us.foldl run shared).sessions.length = shared.sessions.length := by
  induction us generalizing shared with
  | nil => rfl
  | cons u us ih =>
    have hus := ih (shared.run u) fun v hv => h v (List.mem_cons_of_mem _ hv)
    exact hus.trans (length_run (h u List.mem_cons_self))

theorem run_tables (shared : Shared) {u : Update} (h : u.keepsTables = true) :
    (shared.run u).transfers = shared.transfers ∧
      (shared.run u).beginNonces = shared.beginNonces := by
  cases u with
  | create nonce session | prune now => cases h
  | deny | replay | beginRead | control i sequence opcode | cancel i | serve i offset read =>
    exact ⟨rfl, rfl⟩

theorem run_fresh (h : shared.sessions[i]? = none) {u : Update}
    (hsession : (shared.run u).sessions[i]? = some session) : session.inner = .fresh := by
  have hlt := (List.getElem?_eq_some_iff.mp hsession).1
  have hle := List.getElem?_eq_none_iff.mp h
  cases u with
  | create nonce created =>
    rcases Position.concat_cases hsession with hold | ⟨-, rfl⟩
    · cases h.symm.trans hold
    · rfl
  | prune now => exact absurd hlt (Nat.not_lt.mpr hle)
  | deny | replay | beginRead | control j sequence opcode | cancel j | serve j offset read =>
    rw [length_run rfl] at hlt
    exact absurd hlt (Nat.not_lt.mpr hle)

theorem foldl_invariant {I : Shared → Prop} (hrun : ∀ {shared}, I shared → ∀ u, I (shared.run u))
    (h : I shared) (us : List Update) : I (us.foldl run shared) := by
  induction us generalizing shared with
  | nil => exact h
  | cons u us ih => exact ih (hrun h u)

theorem stateOf_eq (h : shared.sessions[i]? = some session) :
    shared.stateOf i = some session.inner.state := by rw [stateOf, h, Option.map_some]

theorem stateOf_eq_some {state : RemoteTransferState} (h : shared.stateOf i = some state) :
    ∃ session, shared.sessions[i]? = some session ∧ session.inner.state = state :=
  Option.map_eq_some_iff.mp h

end Shared

end ClipFerry.Server
