import ClipFerry.Server.LifeCycle

namespace ClipFerry.Server

open Protocol Foundation Transition

namespace Update

def applied (i : Nat) : Update → Option (Nat × Opcode)
  | control j sequence opcode => if j = i then some (sequence, opcode) else none
  | _ => none

def command (i : Nat) : Update → Option Opcode
  | control j _ opcode => if j = i then some opcode else none
  | cancel j => if j = i then some .cancel else none
  | _ => none

end Update

def appliedControls (i : Nat) (us : List Update) : List (Nat × Opcode) :=
  us.filterMap (Update.applied i)

def appliedOpcodes (i : Nat) (us : List Update) : List Opcode := us.filterMap (Update.command i)

variable {server : ServerState} {w w' : World} {l : Label} {ls : List Label} {i : Nat}
  {us : List Update} {inner : TransferInner} {session : TransferSession}

theorem cancel_lifeCycle (inner : TransferInner) :
    inner.cancel.state = inner.state.lifeCycle .cancel := by
  rw [TransferInner.cancel]
  cases hs : inner.state <;> simp [RemoteTransferState.active, RemoteTransferState.lifeCycle, hs]

theorem onInner_state (i : Nat) (inner : TransferInner) (u : Update) :
    (u.onInner i inner).state = (u.command i).elim inner.state inner.state.lifeCycle := by
  cases u with
  | control j sequence opcode =>
    rw [Update.onInner, Update.command]
    split <;> rfl
  | cancel j =>
    rw [Update.onInner, Update.command]
    split
    · exact cancel_lifeCycle inner
    · rfl
  | serve j offset read =>
    rw [Update.onInner]
    split <;> rfl
  | deny | replay | beginRead | prune | create => rfl

def Latest (inner : TransferInner) (command : Nat × Opcode) : Prop :=
  inner.lastControlSequence = command.1 ∧ inner.lastControlOpcode = some command.2

theorem onInner_latest (i : Nat) (inner : TransferInner) (u : Update) :
    (u.applied i = none ∧ (u.onInner i inner).lastControlSequence = inner.lastControlSequence ∧
      (u.onInner i inner).lastControlOpcode = inner.lastControlOpcode) ∨
    ∃ command, u.applied i = some command ∧ Latest (u.onInner i inner) command := by
  cases u with
  | control j sequence opcode =>
    rw [Update.onInner, Update.applied]
    split
    · exact .inr ⟨_, rfl, rfl, rfl⟩
    · exact .inl ⟨rfl, rfl, rfl⟩
  | cancel j =>
    rw [Update.onInner, TransferInner.cancel]
    split
    · split <;> exact .inl ⟨rfl, rfl, rfl⟩
    · exact .inl ⟨rfl, rfl, rfl⟩
  | serve j offset read =>
    rw [Update.onInner]
    split <;> exact .inl ⟨rfl, rfl, rfl⟩
  | deny | replay | beginRead | prune | create => exact .inl ⟨rfl, rfl, rfl⟩

structure ControlLog (i : Nat) (us : List Update) (inner : TransferInner) : Prop where
  state : inner.state = (appliedOpcodes i us).foldl RemoteTransferState.lifeCycle .running
  increasing : (appliedControls i us).Pairwise fun c d => c.1 < d.1
  bounded : ∀ command ∈ appliedControls i us, command.1 ≤ inner.lastControlSequence
  latest : (inner.lastControlSequence = 0 ∧ inner.lastControlOpcode = none) ∨
    ∃ command ∈ appliedControls i us, Latest inner command

theorem ControlLog.fresh (i : Nat) : ControlLog i [] .fresh :=
  ⟨rfl, .nil, by simp [appliedControls], .inl ⟨rfl, rfl⟩⟩

theorem ControlLog.snoc (h : ControlLog i us inner) {u : Update}
    (hnew : ∀ command, u.applied i = some command → inner.lastControlSequence < command.1) :
    ControlLog i (us ++ [u]) (u.onInner i inner) := by
  have hstate : (u.onInner i inner).state =
      (appliedOpcodes i (us ++ [u])).foldl RemoteTransferState.lifeCycle .running := by
    rw [onInner_state, h.state, appliedOpcodes, appliedOpcodes, List.filterMap_append,
      List.foldl_append]
    cases hu : u.command i with
    | none => rw [List.filterMap_cons_none hu]; rfl
    | some opcode => rw [List.filterMap_cons_some hu]; rfl
  rcases onInner_latest i inner u with ⟨hnone, hsequence, hopcode⟩ | ⟨command, hsome, hlatest⟩
  · have hsame : appliedControls i (us ++ [u]) = appliedControls i us := by
      simp [appliedControls, hnone]
    refine ⟨hstate, hsame ▸ h.increasing, ?_, ?_⟩
    · rw [hsame, hsequence]
      exact h.bounded
    · rw [hsame]
      simp only [Latest, hsequence, hopcode]
      exact h.latest
  · have hmore : appliedControls i (us ++ [u]) = appliedControls i us ++ [command] := by
      simp [appliedControls, hsome]
    have hlt := hnew command hsome
    refine ⟨hstate, ?_, ?_, .inr ⟨command, by simp [hmore], hlatest⟩⟩
    · rw [hmore, List.pairwise_append]
      refine ⟨h.increasing, List.pairwise_singleton _ _, ?_⟩
      intro c hc d hd
      rw [List.mem_singleton.mp hd]
      exact Nat.lt_of_le_of_lt (h.bounded c hc) hlt
    · intro c hc
      rw [hlatest.1]
      rw [hmore, List.mem_append, List.mem_singleton] at hc
      rcases hc with hc | rfl
      · exact Nat.le_of_lt (Nat.lt_of_le_of_lt (h.bounded c hc) hlt)
      · exact Nat.le_refl _

theorem Step.applied_new (hstep : Step server w l w') {u : Update} (hu : u ∈ l.updates)
    {command : Nat × Opcode} (happlied : u.applied i = some command) :
    ∃ k peer credentials session, l = .turn k [u] ∧
      w.calls[k]? = some ⟨.control peer credentials command.1 command.2, .apply i⟩ ∧
      w.shared.sessions[i]? = some session ∧ session.inner.lastControlSequence < command.1 := by
  cases hstep with
  | clock | trust | invoke => cases hu
  | cleanup =>
    rw [List.mem_singleton.mp hu] at happlied
    cases happlied
  | @turn k call us next hcall hturn =>
    obtain ⟨request, pc⟩ := call
    cases hturn.effect with
    | none => cases hu
    | deny | replay | beginRead | prune | create | revoke | refuse | serve =>
      rw [List.mem_singleton.mp hu] at happlied
      cases happlied
    | pruneReplay =>
      simp only [Label.updates, List.mem_cons, List.not_mem_nil, or_false] at hu
      rcases hu with rfl | rfl <;> cases happlied
    | @control peer credentials sequence j opcode session hrequest hpc hsession hnew =>
      obtain rfl : request = .control peer credentials sequence opcode := hrequest
      obtain rfl : pc = .apply j := hpc
      obtain rfl := List.mem_singleton.mp hu
      rw [Update.applied] at happlied
      split at happlied
      · rename_i hj
        subst hj
        cases happlied
        exact ⟨k, peer, credentials, session, rfl, hcall, hsession, hnew⟩
      · cases happlied

theorem Step.controlLog (hstep : Step server w l w')
    (hsession : w.shared.sessions[i]? = some session) (h : ControlLog i us session.inner) :
    ControlLog i (us ++ l.updates) (innerAfter i l.updates session.inner) := by
  have hnew : ∀ u ∈ l.updates, ∀ command, u.applied i = some command →
      session.inner.lastControlSequence < command.1 := by
    intro u hu command happlied
    obtain ⟨_, _, _, _, -, -, hfound, hlt⟩ := hstep.applied_new hu happlied
    rw [hsession] at hfound
    obtain rfl := Option.some.inj hfound
    exact hlt
  rcases hstep.shape with hnil | ⟨u, hone⟩ | ⟨now, htwo⟩
  · rw [hnil, List.append_nil]
    exact h
  · rw [hone]
    exact h.snoc (hnew u (by simp [hone]))
  · rw [htwo, List.append_cons]
    refine (h.snoc (u := .prune now) fun c hc => nomatch hc).snoc (u := .replay) fun c hc => ?_
    cases hc

theorem controlLog_of_run (h : Run (Step server) w ls w')
    (hsession : w.shared.sessions[i]? = some session) (hfresh : session.inner = .fresh) :
    ControlLog i (ls.flatMap Label.updates) (innerAfter i (ls.flatMap Label.updates) .fresh) := by
  induction h with
  | nil => exact .fresh i
  | snoc run last ih =>
    rw [List.flatMap_append, List.flatMap_singleton, innerAfter_append, ← hfresh]
    rw [← hfresh] at ih
    exact last.controlLog (session_of_run run hsession) ih

theorem Step.fresh (hstep : Step server w l w') (h : w.shared.sessions[i]? = none)
    (hsession : w'.shared.sessions[i]? = some session) : session.inner = .fresh := by
  rw [hstep.shared_eq] at hsession
  rcases hstep.shape with hnil | ⟨u, hone⟩ | ⟨now, htwo⟩
  · rw [hnil, List.foldl_nil, h] at hsession
    cases hsession
  · rw [hone] at hsession
    exact Shared.run_fresh h hsession
  · rw [htwo] at hsession
    have hsession : w.shared.sessions[i]? = some session := hsession
    rw [h] at hsession
    cases hsession

theorem created_of_run {now : Nat} {trusted : CertificateFingerprint → Bool}
    (h : Run (Step server) (World.start now trusted) ls w)
    (hsession : w.shared.sessions[i]? = some session) :
    ∃ before w₀ after, ls = before ++ after ∧
      Run (Step server) (World.start now trusted) before w₀ ∧ Run (Step server) w₀ after w ∧
      w₀.shared.sessions[i]? = some { session with inner := .fresh } := by
  induction h generalizing session with
  | nil => cases hsession
  | @snoc ls l t u run last ih =>
    cases hold : t.shared.sessions[i]? with
    | none =>
      refine ⟨_, u, [], (List.append_nil _).symm, .snoc run last, .nil, ?_⟩
      rw [hsession, ← Step.fresh last hold hsession]
    | some old =>
      obtain ⟨before, w₀, after, rfl, hbefore, hafter, hfresh⟩ := ih hold
      refine ⟨before, w₀, after ++ [l], by simp, hbefore, .snoc hafter last, ?_⟩
      rw [hfresh]
      rw [last.session hold] at hsession
      cases hsession
      rfl

end ClipFerry.Server
