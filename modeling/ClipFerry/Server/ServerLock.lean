import ClipFerry.Server.Effect

namespace ClipFerry.Server

open Protocol Foundation Transition

variable {server : ServerState} {view : View} {free : Prop} {request : Request} {pc next : Pc}
  {us : List Update} {w w' : World} {l : Label} {k : Nat} {call : Call}

theorem Step.call_cases (h : Step server w l w') (hcall : w'.calls[k]? = some call) :
    (w.calls[k]? = some call ∧ ∀ us, l ≠ .turn k us) ∨
    (w.calls[k]? = none ∧ ∃ request, l = .invoke request ∧ call = ⟨request, request.entry⟩) ∨
    ∃ before us next, l = .turn k us ∧ w.calls[k]? = some before ∧
      Turn server w.toView w.ServerLockFree before.request before.pc us next ∧
      call = { before with pc := next } := by
  cases h with
  | clock | trust | cleanup => exact .inl ⟨hcall, by simp⟩
  | invoke request =>
    rcases Position.concat_cases hcall with hold | ⟨rfl, rfl⟩
    · exact .inl ⟨hold, by simp⟩
    · exact .inr (.inl ⟨List.getElem?_eq_none (Nat.le_refl _), request, rfl, rfl⟩)
  | @turn j before us next hbefore hturn =>
    rcases Position.set_cases hcall with ⟨rfl, rfl⟩ | ⟨hkj, hold⟩
    · exact .inr (.inr ⟨before, us, next, rfl, hbefore, hturn, rfl⟩)
    · exact .inl ⟨hold, fun vs hl => hkj (Label.turn.inj hl).1.symm⟩

theorem Step.call_kept (h : Step server w l w') (hcall : w.calls[k]? = some call)
    (hother : ∀ us, l ≠ .turn k us) : w'.calls[k]? = some call := by
  cases h with
  | clock | trust | cleanup => exact hcall
  | invoke request =>
    rwa [List.getElem?_append_left (List.getElem?_eq_some_iff.mp hcall).1]
  | @turn j before us next hbefore hturn =>
    have hj : j ≠ k := fun hj => hother us (by rw [hj])
    rwa [List.getElem?_set_ne hj]

theorem Step.turn_cases (h : Step server w (.turn k us) w') (hcall : w.calls[k]? = some call) :
    ∃ next, Turn server w.toView w.ServerLockFree call.request call.pc us next ∧
      w'.calls[k]? = some { call with pc := next } := by
  cases h with
  | turn hbefore hturn =>
    rw [hcall] at hbefore
    obtain rfl := Option.some.inj hbefore
    exact ⟨_, hturn, List.getElem?_set_self (List.getElem?_eq_some_iff.mp hcall).1⟩

def Pc.plain : Pc → Bool
  | .cancelling _ | .admission _ | .counting _ _ _ => false
  | _ => true

theorem Pc.free_of_plain (h : pc.plain = true) : pc.holdsServerLock = false := by
  cases pc <;> first | rfl | cases h

theorem Request.entry_plain (request : Request) : request.entry.plain = true := by
  cases request with
  | readRange peer credentials offset requested =>
    rw [Request.entry]
    split <;> rfl
  | connect | beginTransfer | control | status => rfl

theorem readRangeGate_plain {peer : CertificateFingerprint} {session : TransferSession} {i : Nat}
    (h : server.readRangeGate view peer session i = (us, next)) : next.plain = true := by
  rcases readRangeGate_cases h with ⟨-, -, rfl⟩ | ⟨-, -, rfl⟩ | ⟨-, rfl, -⟩ | ⟨-, rfl, -⟩ <;> rfl

theorem Turn.plain_cases (h : Turn server view free request pc us next) :
    next.plain = true ∨ next = .admission view.now ∨
    (free ∧ pc = .revoke ∧ us = [] ∧
      next = .cancelling (ServerState.peerTransfers view.shared request.peer)) ∨
    (∃ todo i, i ∈ todo ∧ pc = .cancelling todo ∧ us = [.cancel i] ∧
      next = .cancelling (todo.erase i)) ∨
    (free ∧ ∃ peer offerId fileId nonce now,
      request = .beginTransfer peer offerId fileId nonce ∧ pc = .admission now ∧ us = [.prune now] ∧
      (view.shared.prune now).beginNonces.get nonce = none ∧
      next = .counting now (view.shared.prune now).transfers.values 0) ∨
    (∃ now todo active i, i ∈ todo ∧ pc = .counting now todo active ∧ us = [] ∧
      next = .counting now (todo.erase i) (active + (view.shared.isActive i).toNat)) := by
  cases h with
  | revoke hfree => exact .inr (.inr (.inl ⟨hfree, rfl, rfl, rfl⟩))
  | cancelNext hi => exact .inr (.inr (.inr (.inl ⟨_, _, hi, rfl, rfl, rfl⟩)))
  | count hi => exact .inr (.inr (.inr (.inr (.inr ⟨_, _, _, _, hi, rfl, rfl, rfl⟩))))
  | admission hfree h =>
    rcases beginAdmit_cases h with ⟨_, -, ⟨_, -, -, rfl⟩ | ⟨-, -, rfl⟩⟩ | ⟨hnone, hus, hpc⟩
    · exact .inl rfl
    · exact .inl rfl
    · exact .inr (.inr (.inr (.inr (.inl ⟨hfree, _, _, _, _, _, rfl, rfl, hus, hnone, hpc⟩))))
  | sample h =>
    rcases beginSample_cases h with ⟨-, rfl⟩ | ⟨-, rfl⟩ | ⟨-, rfl, -⟩
    · exact .inl rfl
    · exact .inl rfl
    · exact .inr (.inl rfl)
  | authorize h =>
    rcases ensurePeerAllowed_cases h with ⟨-, -, rfl⟩ | ⟨-, -, rfl⟩
    · exact .inl rfl
    · cases request <;> exact .inl rfl
  | create drawn h =>
    rcases beginCreate_cases h with ⟨-, _, rfl⟩ | ⟨_, _, _, _, -, -, -, -, -, -, rfl⟩ <;>
      exact .inl rfl
  | lookup _ _ h =>
    rcases authenticatedSession_cases h with ⟨-, _, rfl, -⟩ | ⟨_, _, -, -, -, -, h⟩
    · exact .inl rfl
    · rcases authenticated_cases h with ⟨-, rfl, -⟩ | ⟨-, rfl⟩ <;> exact .inl rfl
  | control hsession h =>
    rcases control_cases h with ⟨-, -, -, rfl⟩ | ⟨-, -, -, rfl⟩ | ⟨-, -, rfl | ⟨-, rfl⟩⟩ <;>
      exact .inl rfl
  | revoked | status => exact .inl rfl
  | gate hsession h => exact .inl (readRangeGate_plain h)
  | wake timedOut hsession h =>
    rcases readRangeWake_cases h with ⟨-, -, rfl⟩ | h
    · exact .inl rfl
    · exact .inl (readRangeGate_plain h)
  | recheck h =>
    rcases ensurePeerAllowed_cases h with ⟨-, -, rfl⟩ | ⟨-, -, rfl⟩ <;> exact .inl rfl
  | fetch attempt hsession h =>
    obtain ⟨-, ⟨_, rfl⟩ | ⟨_, _, _, _, -, -, -, rfl⟩⟩ := readRangeFetch_cases h <;> exact .inl rfl
  | finish hsession h =>
    rcases readRangeFinish_cases h with ⟨-, -, rfl⟩ | ⟨-, _, rfl⟩ | ⟨-, -, -, -, rfl⟩ <;>
      exact .inl rfl

theorem Turn.lock_cases (h : Turn server view free request pc us next)
    (hnext : next.holdsServerLock = true) :
    (free ∧ pc = .revoke ∧ us = [] ∧
      next = .cancelling (ServerState.peerTransfers view.shared request.peer)) ∨
    (∃ todo i, i ∈ todo ∧ pc = .cancelling todo ∧ us = [.cancel i] ∧
      next = .cancelling (todo.erase i)) ∨
    (free ∧ ∃ peer offerId fileId nonce now,
      request = .beginTransfer peer offerId fileId nonce ∧ pc = .admission now ∧ us = [.prune now] ∧
      (view.shared.prune now).beginNonces.get nonce = none ∧
      next = .counting now (view.shared.prune now).transfers.values 0) ∨
    (∃ now todo active i, i ∈ todo ∧ pc = .counting now todo active ∧ us = [] ∧
      next = .counting now (todo.erase i) (active + (view.shared.isActive i).toNat)) := by
  rcases h.plain_cases with hplain | rfl | hlocked
  · cases (Pc.free_of_plain hplain).symm.trans hnext
  · cases hnext
  · exact hlocked

theorem Turn.lock (h : Turn server view free request pc us next)
    (hnext : next.holdsServerLock = true) : pc.holdsServerLock = true ∨ free := by
  rcases h.lock_cases hnext with ⟨hfree, -⟩ | ⟨_, _, -, rfl, -⟩ | ⟨hfree, -⟩ |
    ⟨_, _, _, _, -, rfl, -⟩
  · exact .inr hfree
  · exact .inl rfl
  · exact .inr hfree
  · exact .inl rfl

def World.HoldsLock (w : World) (k : Nat) : Prop :=
  ∃ call, w.calls[k]? = some call ∧ call.pc.holdsServerLock = true

def World.LockExclusive (w : World) : Prop := ∀ j k, w.HoldsLock j → w.HoldsLock k → j = k

theorem World.HoldsLock.not_free (h : w.HoldsLock k) : ¬w.ServerLockFree := by
  obtain ⟨call, hcall, hlock⟩ := h
  intro hfree
  rw [hfree call (List.mem_of_getElem? hcall)] at hlock
  cases hlock

theorem Step.holdsLock (h : Step server w l w') (hlock : w'.HoldsLock k) :
    w.HoldsLock k ∨ ((∃ us, l = .turn k us) ∧ w.ServerLockFree) := by
  obtain ⟨call, hcall, hlock⟩ := hlock
  rcases h.call_cases hcall with ⟨hsame, -⟩ | ⟨-, request, -, rfl⟩ | ⟨before, us, next, hl, hbefore, hturn, rfl⟩
  · exact .inl ⟨call, hsame, hlock⟩
  · rw [Pc.free_of_plain request.entry_plain] at hlock
    cases hlock
  · rcases hturn.lock hlock with hheld | hfree
    · exact .inl ⟨before, hbefore, hheld⟩
    · exact .inr ⟨⟨us, hl⟩, hfree⟩

theorem Step.lockExclusive (h : Step server w l w') (hw : w.LockExclusive) :
    w'.LockExclusive := by
  intro j k hj hk
  rcases h.holdsLock hj with hj | ⟨⟨us, hl⟩, hfree⟩
  · rcases h.holdsLock hk with hk | ⟨-, hfree⟩
    · exact hw j k hj hk
    · exact absurd hfree hj.not_free
  · rcases h.holdsLock hk with hk | ⟨⟨vs, hl'⟩, -⟩
    · exact absurd hfree hk.not_free
    · rw [hl] at hl'
      cases hl'
      rfl

theorem foldl_keepsTables (shared : Shared) {us : List Update}
    (h : ∀ u ∈ us, u.keepsTables = true) :
    (us.foldl Shared.run shared).transfers = shared.transfers ∧
      (us.foldl Shared.run shared).beginNonces = shared.beginNonces := by
  induction us generalizing shared with
  | nil => exact ⟨rfl, rfl⟩
  | cons u us ih =>
    have hu := shared.run_tables (h u List.mem_cons_self)
    have hus := ih (shared.run u) fun v hv => h v (List.mem_cons_of_mem _ hv)
    exact ⟨hus.1.trans hu.1, hus.2.trans hu.2⟩

theorem Step.keepsTables (h : Step server w l w') (hw : w.LockExclusive) (hk : w.HoldsLock k)
    (hother : ∀ us, l ≠ .turn k us) : ∀ u ∈ l.updates, u.keepsTables = true := by
  cases h with
  | clock | trust | invoke => simp [Label.updates]
  | cleanup hle hfree => exact absurd hfree hk.not_free
  | @turn j call us next hcall hturn =>
    have hj : j ≠ k := fun hj => hother us (by rw [hj])
    simp only [Label.updates]
    cases hturn.effect with
    | prune hfree | pruneReplay hfree => exact absurd hfree hk.not_free
    | create hrequest hpc => exact absurd (hw j k ⟨call, hcall, by rw [hpc]; rfl⟩ hk) hj
    | none | deny | replay | beginRead | control | revoke | refuse | serve =>
      simp [Update.keepsTables]

end ClipFerry.Server
