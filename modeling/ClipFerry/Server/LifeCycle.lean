import ClipFerry.Server.Effect
import ClipFerry.Foundation.Counting

namespace ClipFerry.Server

open Protocol Foundation Transition Counting

namespace Shared

variable {shared : Shared}

def cancelledCount (shared : Shared) : Nat :=
  shared.sessions.countP fun session => session.inner.state = .cancelled

theorem lifeCycle_cancelled (state : RemoteTransferState) (opcode : Opcode) :
    (decide (state.lifeCycle opcode = .cancelled)).toNat =
      (decide (state = .cancelled)).toNat + (opcode = .cancel && state.active).toNat := by
  cases state <;> cases opcode <;> decide

theorem cancel_cancelled (inner : TransferInner) :
    (decide (inner.cancel.state = .cancelled)).toNat =
      (decide (inner.state = .cancelled)).toNat + inner.state.active.toNat := by
  rw [TransferInner.cancel]
  split
  · rename_i h
    cases hs : inner.state <;> simp_all [RemoteTransferState.active]
  · rename_i h
    simp [h]

theorem isActive_eq (shared : Shared) (i : Nat) : shared.isActive i =
    shared.sessions[i]?.any fun session => session.inner.state.active := by
  rw [isActive, stateOf]
  cases shared.sessions[i]? <;> rfl

theorem cancelledCount_modify (shared : Shared) (i : Nat) (f : TransferInner → TransferInner)
    (c : Bool) (hf : ∀ inner, (decide ((f inner).state = .cancelled)).toNat =
      (decide (inner.state = .cancelled)).toNat + (c && inner.state.active).toNat) :
    (shared.modifyInner i f).cancelledCount =
      shared.cancelledCount + (c && shared.isActive i).toNat := by
  rw [isActive_eq]
  cases hsession : shared.sessions[i]? with
  | none =>
    rw [cancelledCount, modifyInner, List.modify_eq_self (List.getElem?_eq_none_iff.mp hsession)]
    simp [cancelledCount]
  | some session =>
    have hcount := countP_modify (p := fun session => decide (session.inner.state = .cancelled))
      (f := fun session => { session with inner := f session.inner }) hsession
    have hinner := hf session.inner
    simp only [cancelledCount, modifyInner, Option.any_some]
    dsimp only at hcount
    omega

theorem run_cancelledCount (h : shared.metrics.cancelledTransfers = shared.cancelledCount)
    (u : Update) : (shared.run u).metrics.cancelledTransfers = (shared.run u).cancelledCount := by
  cases u with
  | deny | replay | beginRead | prune now => exact h
  | create nonce session =>
    simp only [cancelledCount, run, create, List.countP_append]
    rw [h]
    rfl
  | control i sequence opcode =>
    have hcount := cancelledCount_modify shared i (·.accept sequence opcode)
      (decide (opcode = .cancel)) fun inner => lifeCycle_cancelled inner.state opcode
    rw [← h] at hcount
    exact hcount.symm
  | cancel i =>
    have hcount := cancelledCount_modify shared i (·.cancel) true cancel_cancelled
    rw [← h] at hcount
    exact hcount.symm
  | serve i offset read =>
    have hcount := cancelledCount_modify shared i (·.serve offset read) false fun inner => rfl
    rw [← h] at hcount
    exact hcount.symm

end Shared

variable {server : ServerState} {w w' : World} {l : Label} {i : Nat}

theorem Effect.shape {view : View} {free : Prop} {request : Request} {pc next : Pc}
    {us : List Update} (h : Effect server view free request pc next us) :
    us = [] ∨ (∃ u, us = [u]) ∨ ∃ now, us = [.prune now, .replay] := by
  cases h with
  | none => exact .inl rfl
  | pruneReplay => exact .inr (.inr ⟨_, rfl⟩)
  | deny | replay | beginRead | prune | create | control | revoke | refuse | serve =>
    exact .inr (.inl ⟨_, rfl⟩)

theorem Step.shape (h : Step server w l w') : l.updates = [] ∨ (∃ u, l.updates = [u]) ∨
    ∃ now, l.updates = [.prune now, .replay] := by
  cases h with
  | clock | trust | invoke => exact .inl rfl
  | cleanup => exact .inr (.inl ⟨_, rfl⟩)
  | turn hcall h => exact h.effect.shape

theorem Step.stateOf (h : Step server w l w') {a : RemoteTransferState}
    (ha : w.shared.stateOf i = some a) :
    ∃ b, w'.shared.stateOf i = some b ∧ (b = a ∨ a.Moves b) := by
  obtain ⟨session, hsession, rfl⟩ := Shared.stateOf_eq_some ha
  refine ⟨_, Shared.stateOf_eq (h.session hsession), ?_⟩
  rcases h.shape with hnil | ⟨u, hone⟩ | ⟨now, htwo⟩
  · exact .inl (by rw [hnil]; rfl)
  · rw [hone]
    exact u.onInner_moves i session.inner
  · exact .inl (by rw [htwo]; rfl)

theorem Step.terminal (h : Step server w l w') {a : RemoteTransferState}
    (ha : w.shared.stateOf i = some a) (hterminal : a.active = false) :
    w'.shared.stateOf i = some a := by
  obtain ⟨b, hb, rfl | hmoves⟩ := h.stateOf ha
  · exact hb
  · rw [hmoves.active] at hterminal
    cases hterminal

theorem terminal_of_run {ls : List Label} (h : Run (Step server) w ls w')
    {a : RemoteTransferState} (ha : w.shared.stateOf i = some a) (hterminal : a.active = false) :
    w'.shared.stateOf i = some a :=
  h.invariant (I := fun w => w.shared.stateOf i = some a)
    (fun hi hstep => Step.terminal hstep hi hterminal) ha

theorem cancelledTransfers_of_run {now : Nat} {trusted : CertificateFingerprint → Bool}
    {ls : List Label} (h : Run (Step server) (World.start now trusted) ls w) :
    w.shared.metrics.cancelledTransfers = w.shared.cancelledCount := by
  refine h.invariant
    (I := fun w => w.shared.metrics.cancelledTransfers = w.shared.cancelledCount) ?_ rfl
  intro s l t hs hstep
  rw [hstep.shared_eq]
  exact Shared.foldl_invariant
    (I := fun shared => shared.metrics.cancelledTransfers = shared.cancelledCount)
    Shared.run_cancelledCount hs l.updates

def BecameCancelled (server : ServerState) (w : World) (ls : List Label) (w' : World) (i : Nat) :
    Prop :=
  Past (Step server) w (fun _ mid => mid.shared.stateOf i = some .cancelled) ls w'

theorem becameCancelled_iff {ls : List Label} (h : Run (Step server) w ls w') :
    BecameCancelled server w ls w' i ↔ w'.shared.stateOf i = some .cancelled := by
  constructor
  · rintro ⟨before, mid, after, -, -, hafter, hcancelled⟩
    exact terminal_of_run hafter hcancelled rfl
  · intro hcancelled
    exact .here h hcancelled

theorem cancelledCount_eq_ncard (shared : Shared) :
    shared.cancelledCount = {i | shared.stateOf i = some .cancelled}.ncard := by
  rw [Shared.cancelledCount, ← ncard_matching]
  congr 1
  ext i
  simp [matching, Shared.stateOf]

end ClipFerry.Server
