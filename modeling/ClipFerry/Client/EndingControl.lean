import ClipFerry.Client.Relay

namespace ClipFerry.Client.Relay

open Protocol Server Transition

variable {relay relay' : Relay} {label : RelayLabel} {copy : Copy} {us : List Update}
  {entries : List (Ticket × Nat)} {reply : Reply Nat} {i : Nat} {inner : TransferInner}
  {opcode : Opcode}

def EndsSession (relay : Relay) (opcode : Opcode) (label : RelayLabel) : Prop :=
  ∀ copy i sequence state, label = .deliver copy [.control i sequence opcode] →
    relay.shared.stateOf i = some state → (state.lifeCycle opcode).active = false

def Finished (opcode : Opcode) (inner : TransferInner) : Prop :=
  inner.lastControlOpcode = some opcode → inner.state.active = false

def Acknowledged (relay : Relay) (copy : Copy) : Prop :=
  ∃ status, (copy, .status status) ∈ relay.responses ++ relay.answered

structure Ending (opcode : Opcode) (relay : Relay) : Prop where
  finished {i : Nat} {session : TransferSession} : relay.shared.sessions[i]? = some session →
    Finished opcode session.inner
  acknowledged {ticket : Ticket} {i sequence : Nat} :
    relay.Acknowledged ⟨ticket, .control i sequence opcode⟩ → relay.Terminal i

theorem Finished.fresh : Finished opcode .fresh := nofun

theorem Finished.cancel (h : Finished opcode inner) (j : Nat) :
    Finished opcode ((Update.cancel j).onInner i inner) := by
  intro hlast
  rw [Update.onInner] at hlast ⊢
  split at hlast
  · rename_i hji
    rw [if_pos hji, TransferInner.cancel] at *
    split <;> rename_i hactive
    · rfl
    · simpa using hactive
  · rename_i hji
    rw [if_neg hji]
    exact h hlast

theorem Finished.meets {session : TransferSession} (h : Finished opcode session.inner)
    (hmeets : relay.Meets copy us entries reply)
    (hlabel : relay.EndsSession opcode (.deliver copy us))
    (hsession : relay.shared.sessions[i]? = some session) :
    Finished opcode (innerAfter i us session.inner) := by
  rcases hmeets.applies i with hsame | ⟨sequence, applied, found, hrpc, hfound, hnew, rfl⟩
  · intro hlast
    rw [(hsame _).1]
    exact h ((hsame _).2.2.symm.trans hlast)
  · cases hfound.symm.trans hsession
    rw [innerAfter, List.foldl_cons, List.foldl_nil, Update.onInner, if_pos rfl]
    intro hlast
    cases Option.some.inj hlast
    exact hlabel copy i sequence _ rfl (Shared.stateOf_eq hsession)

namespace Ending

theorem start (now : Nat) : (Relay.start now).Ending opcode where
  finished h := by cases h
  acknowledged := by
    rintro ticket i sequence ⟨status, h⟩
    cases h

theorem finished_step (h : relay.Ending opcode) (hstep : Step relay label relay')
    (hlabel : relay.EndsSession opcode label) {session : TransferSession}
    (hsession : relay'.shared.sessions[i]? = some session) : Finished opcode session.inner := by
  cases hold : relay.shared.sessions[i]? with
  | some old =>
    cases (hstep.session hold).symm.trans hsession
    cases hstep with
    | client | send | lose | clock | answer | giveUp => exact h.finished hold
    | revoke => exact (h.finished hold).cancel _
    | deliver hcopy hmeets => exact (h.finished hold).meets hmeets hlabel hold
  | none =>
    rw [hstep.fresh hold hsession]
    exact .fresh

theorem step (h : relay.Ending opcode) (hstep : Step relay label relay')
    (hlabel : relay.EndsSession opcode label) : relay'.Ending opcode where
  finished hsession := h.finished_step hstep hlabel hsession
  acknowledged := by
    rintro ticket i sequence ⟨status, hmem⟩
    have hold : relay.Acknowledged ⟨ticket, .control i sequence opcode⟩ → relay'.Terminal i :=
      fun hacknowledged => (h.acknowledged hacknowledged).step hstep
    have hfinished := @finished_step _ _ _ i _ h hstep hlabel
    cases hstep with
    | client | send | lose | revoke | clock | giveUp => exact hold ⟨status, hmem⟩
    | answer hresponse =>
      rcases List.mem_append.mp hmem with hresponses | hanswered
      · exact hold ⟨status, List.mem_append_left _ hresponses⟩
      · rcases List.mem_append.mp hanswered with hanswered | hnew
        · exact hold ⟨status, List.mem_append_right _ hanswered⟩
        · cases List.mem_singleton.mp hnew
          exact hold ⟨status, List.mem_append_left _ hresponse⟩
    | @deliver k copy us entries reply hcopy hmeets =>
      rcases List.mem_append.mp hmem with hresponses | hanswered
      · rcases List.mem_append.mp hresponses with hresponses | hnew
        · exact hold ⟨status, List.mem_append_left _ hresponses⟩
        · cases List.mem_singleton.mp hnew
          obtain ⟨session, hsession, -, hopcode⟩ := hmeets.acknowledges rfl rfl
          have hafter := Shared.foldl_session hsession us
          exact ⟨_, hafter, hfinished hafter hopcode⟩
      · exact hold ⟨status, List.mem_append_right _ hanswered⟩

end Ending

end ClipFerry.Client.Relay
