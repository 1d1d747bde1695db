import ClipFerry.Server.LifeCycle
import ClipFerry.Server.ServerLock

namespace ClipFerry.Server

open Protocol Foundation Transition

variable {server : ServerState} {w w' : World} {l : Label}

namespace Shared

variable {shared : Shared} {u : Update} {i : Nat}

def activeCount (shared : Shared) (handles : List Nat) : Nat := handles.countP shared.isActive

theorem isActive_run (hlt : i < shared.sessions.length) (h : (shared.run u).isActive i = true) :
    shared.isActive i = true := by
  obtain ⟨session, hsession⟩ : ∃ session, shared.sessions[i]? = some session :=
    ⟨_, List.getElem?_eq_getElem hlt⟩
  rw [isActive_eq, run_session hsession] at h
  rw [isActive_eq, hsession]
  rcases u.onInner_moves i session.inner with hsame | hmoves
  · rwa [Option.any_some, hsame] at h
  · exact hmoves.active

theorem activeCount_run {handles : List Nat} (hlt : ∀ i ∈ handles, i < shared.sessions.length) :
    (shared.run u).activeCount handles ≤ shared.activeCount handles :=
  List.countP_mono_left fun i hi h => isActive_run (hlt i hi) h

theorem activeCount_sublist (shared : Shared) {few many : List Nat} (h : few.Sublist many) :
    shared.activeCount few ≤ shared.activeCount many :=
  h.countP_le

theorem values_create (shared : Shared) (nonce : Secret) (session : TransferSession) :
    ∃ rest, (shared.create nonce session).transfers.values = shared.sessions.length :: rest ∧
      rest.Sublist shared.transfers.values :=
  Table.values_insert shared.transfers session.transferId shared.sessions.length

theorem activeCount_create {nonce : Secret} {session : TransferSession}
    (hlt : ∀ i ∈ shared.transfers.values, i < shared.sessions.length) :
    (shared.create nonce session).activeCount (shared.create nonce session).transfers.values ≤
      shared.activeCount shared.transfers.values + 1 := by
  obtain ⟨rest, hvalues, hrest⟩ := shared.values_create nonce session
  have hold : (shared.create nonce session).activeCount rest ≤ shared.activeCount rest :=
    activeCount_run (u := .create nonce session) fun i hi => hlt i (hrest.subset hi)
  have hsub := shared.activeCount_sublist hrest
  rw [hvalues, activeCount, List.countP_cons]
  rw [activeCount] at hold
  split <;> omega

end Shared

structure Capacity (shared : Shared) : Prop where
  known : ∀ i ∈ shared.transfers.values, i < shared.sessions.length
  active : shared.activeCount shared.transfers.values ≤ maxActiveTransfers
  transfers : shared.transfers.len ≤ maxBeginNonces
  nonces : shared.beginNonces.len ≤ maxBeginNonces

namespace Capacity

variable {shared : Shared} {u : Update}

theorem run (h : Capacity shared) (hu : u.keepsTables = true) : Capacity (shared.run u) := by
  obtain ⟨htransfers, hnonces⟩ := shared.run_tables hu
  refine ⟨?_, ?_, htransfers ▸ h.transfers, hnonces ▸ h.nonces⟩
  · rw [htransfers, Shared.length_run hu]
    exact h.known
  · rw [htransfers]
    exact Nat.le_trans (Shared.activeCount_run h.known) h.active

theorem foldl {us : List Update} (h : Capacity shared) (hus : ∀ u ∈ us, u.keepsTables = true) :
    Capacity (us.foldl Shared.run shared) := by
  induction us generalizing shared with
  | nil => exact h
  | cons u us ih =>
    exact ih (h.run (hus u List.mem_cons_self)) fun v hv => hus v (List.mem_cons_of_mem _ hv)

theorem prune (h : Capacity shared) (now : Nat) : Capacity (shared.prune now) where
  known i hi := h.known i (Table.values_retain_sublist.subset hi)
  active := Nat.le_trans (Shared.activeCount_sublist _ Table.values_retain_sublist) h.active
  transfers := Nat.le_trans Table.len_retain_le h.transfers
  nonces := Nat.le_trans Table.len_retain_le h.nonces

theorem create (h : Capacity shared) {nonce : Secret} {session : TransferSession}
    (hactive : shared.activeCount shared.transfers.values < maxActiveTransfers)
    (htransfers : shared.transfers.len < maxBeginNonces)
    (hnonces : shared.beginNonces.len < maxBeginNonces) :
    Capacity (shared.create nonce session) where
  known i hi := by
    obtain ⟨rest, hvalues, hrest⟩ := shared.values_create nonce session
    have hlen : (shared.create nonce session).sessions.length = shared.sessions.length + 1 := by
      simp [Shared.create]
    rw [hvalues] at hi
    rw [hlen]
    rcases List.mem_cons.mp hi with rfl | hi
    · exact Nat.lt_succ_self _
    · exact Nat.lt_succ_of_lt (h.known i (hrest.subset hi))
  active := Nat.le_trans (Shared.activeCount_create h.known) hactive
  transfers := Nat.le_trans Table.len_insert_le htransfers
  nonces := Nat.le_trans Table.len_insert_le hnonces

end Capacity

def Counted (shared : Shared) (todo : List Nat) (active : Nat) : Prop :=
  ∃ visited, (visited ++ todo).Perm shared.transfers.values ∧
    shared.activeCount visited ≤ active

namespace Counted

variable {shared : Shared} {u : Update} {todo : List Nat} {active i : Nat}

theorem run (h : Counted shared todo active) (hc : Capacity shared)
    (hu : u.keepsTables = true) : Counted (shared.run u) todo active := by
  obtain ⟨visited, hperm, hle⟩ := h
  have hknown : ∀ i ∈ visited, i < shared.sessions.length := fun i hi =>
    hc.known i (hperm.subset (List.mem_append_left _ hi))
  refine ⟨visited, ?_, Nat.le_trans (Shared.activeCount_run hknown) hle⟩
  rw [(Shared.run_tables _ hu).1]
  exact hperm

theorem visit (h : Counted shared todo active) (hi : i ∈ todo) :
    Counted shared (todo.erase i) (active + (shared.isActive i).toNat) := by
  obtain ⟨visited, hperm, hle⟩ := h
  refine ⟨i :: visited, ?_, ?_⟩
  · calc (i :: visited ++ todo.erase i).Perm (visited ++ i :: todo.erase i) :=
          List.perm_middle.symm
      _ |>.Perm (visited ++ todo) := (List.perm_cons_erase hi).symm.append_left visited
      _ |>.Perm shared.transfers.values := hperm
  · rw [Shared.activeCount, List.countP_cons]
    rw [Shared.activeCount] at hle
    cases shared.isActive i <;> simp <;> omega

theorem total (h : Counted shared [] active) :
    shared.activeCount shared.transfers.values ≤ active := by
  obtain ⟨visited, hperm, hle⟩ := h
  rw [List.append_nil] at hperm
  rw [Shared.activeCount, ← hperm.countP_eq]
  exact hle

end Counted

structure Admission (w : World) : Prop where
  capacity : Capacity w.shared
  exclusive : w.LockExclusive
  counted : ∀ (k : Nat) (call : Call), w.calls[k]? = some call → ∀ now todo active,
    call.pc = .counting now todo active → Counted w.shared todo active

theorem Counted.foldl {shared : Shared} {us : List Update} {todo : List Nat} {active : Nat}
    (h : Counted shared todo active) (hc : Capacity shared)
    (hus : ∀ u ∈ us, u.keepsTables = true) : Counted (us.foldl Shared.run shared) todo active := by
  induction us generalizing shared with
  | nil => exact h
  | cons u us ih =>
    have hu := hus u List.mem_cons_self
    exact ih (h.run hc hu) (hc.run hu) fun v hv => hus v (List.mem_cons_of_mem _ hv)

theorem Admission.step_capacity (h : Admission w) (hstep : Step server w l w') :
    Capacity w'.shared := by
  rw [hstep.shared_eq]
  cases hstep with
  | clock | trust | invoke => exact h.capacity
  | cleanup => exact h.capacity.prune _
  | @turn k call us next hcall hturn =>
    cases hturn.effect with
    | none | deny | replay | beginRead | control | revoke | refuse | serve =>
      exact h.capacity.foldl (by simp [Label.updates, Update.keepsTables])
    | prune => exact h.capacity.prune _
    | @pruneReplay now =>
      have hreplay : ∀ u ∈ [Update.replay], u.keepsTables = true := by simp [Update.keepsTables]
      exact (h.capacity.prune now).foldl hreplay
    | create hrequest hpc hactive htransfers hnonces =>
      have htotal := (h.counted k call hcall _ _ _ hpc).total
      exact h.capacity.create (Nat.lt_of_le_of_lt htotal hactive) htransfers hnonces

theorem Admission.step (h : Admission w) (hstep : Step server w l w') : Admission w' where
  capacity := h.step_capacity hstep
  exclusive := hstep.lockExclusive h.exclusive
  counted k call hcall now todo active hpc := by
    have hlock : call.pc.holdsServerLock = true := by rw [hpc]; rfl
    rcases hstep.call_cases hcall with ⟨hsame, hother⟩ | ⟨-, request, -, rfl⟩ |
      ⟨before, us, next, rfl, hbefore, hturn, rfl⟩
    · rw [hstep.shared_eq]
      exact (h.counted k call hsame now todo active hpc).foldl h.capacity
        (hstep.keepsTables h.exclusive ⟨call, hsame, hlock⟩ hother)
    · rw [Pc.free_of_plain request.entry_plain] at hlock
      cases hlock
    · obtain rfl : next = .counting now todo active := hpc
      rw [hstep.shared_eq]
      rcases hturn.lock_cases hlock with ⟨-, -, -, hnext⟩ | ⟨_, _, -, -, -, hnext⟩ |
        ⟨-, _, _, _, _, _, -, -, rfl, -, hnext⟩ | ⟨_, _, _, i, hi, hcounting, rfl, hnext⟩
      · cases hnext
      · cases hnext
      · cases hnext
        exact ⟨[], .refl _, Nat.le_refl _⟩
      · cases hnext
        exact (h.counted k before hbefore _ _ _ hcounting).visit hi

theorem admission_of_run {now : Nat} {trusted : CertificateFingerprint → Bool} {ls : List Label}
    (h : Run (Step server) (World.start now trusted) ls w) : Admission w := by
  refine h.invariant (fun hs hstep => Admission.step hs hstep) ⟨⟨?_, ?_, ?_, ?_⟩, ?_, ?_⟩
  · intro i hi
    cases hi
  · exact Nat.zero_le _
  · exact Nat.zero_le _
  · exact Nat.zero_le _
  · intro j k hj
    obtain ⟨call, hcall, -⟩ := hj
    cases hcall
  · intro k call hcall
    cases hcall

theorem session_life_cycle_safe {now : Nat} {trusted : CertificateFingerprint → Bool}
    {ls : List Label} (h : Run (Step server) (World.start now trusted) ls w) :
    (∀ l w', Step server w l w' → ∀ i a, w.shared.stateOf i = some a →
      ∃ b, w'.shared.stateOf i = some b ∧ (b = a ∨ a.Moves b)) ∧
    (∀ ls' w', Run (Step server) w ls' w' → ∀ i a, w.shared.stateOf i = some a →
      a.active = false → w'.shared.stateOf i = some a) ∧
    w.shared.metrics.cancelledTransfers =
      {i | BecameCancelled server (World.start now trusted) ls w i}.ncard ∧
    (w.shared.transfers.values.filter w.shared.isActive).length ≤ maxActiveTransfers ∧
    w.shared.transfers.len ≤ maxBeginNonces ∧ w.shared.beginNonces.len ≤ maxBeginNonces := by
  have hadmission := admission_of_run h
  have hcancelled : w.shared.metrics.cancelledTransfers =
      {i | BecameCancelled server (World.start now trusted) ls w i}.ncard := by
    rw [cancelledTransfers_of_run h, cancelledCount_eq_ncard]
    simp only [becameCancelled_iff h]
  have hactive : (w.shared.transfers.values.filter w.shared.isActive).length ≤
      maxActiveTransfers := by
    rw [← List.countP_eq_length_filter]
    exact hadmission.capacity.active
  refine ⟨?_, ?_, hcancelled, hactive, hadmission.capacity.transfers, hadmission.capacity.nonces⟩
  · intro l w' hstep i a ha
    exact hstep.stateOf ha
  · intro ls' w' hrun i a ha hterminal
    exact terminal_of_run hrun ha hterminal

def soloPeer : CertificateFingerprint := ⟨repeatedSecret 7⟩

def soloServer : ServerState where
  offered := ⟨⟨repeatedId 0, [⟨repeatedId 1, .basic ['a'] 5⟩], fromMillis 2000⟩,
    AList.insert (repeatedId 1) (memorySource [1, 2, 3, 4, 5]) ∅, fromMillis 2000⟩
  authorizedPeer := soloPeer
  trustStore := false
  transferTtl := fromMillis 1000

def soloSession : TransferSession :=
  ⟨soloPeer, repeatedId 0, repeatedId 1, repeatedId 2, repeatedSecret 3, repeatedSecret 4,
    fromMillis 1000, .fresh⟩

def soloDraw : Option (ProtocolId × Secret × Secret) :=
  some (repeatedId 2, repeatedSecret 3, repeatedSecret 4)

def soloStart : World := World.start 0 fun _ => true

def soloBegin : Request :=
  .beginTransfer soloPeer (repeatedId 0) (repeatedId 1) (repeatedSecret 5)

def soloBeginLabels : List Label :=
  [.invoke soloBegin, .turn 0 [], .turn 0 [], .turn 0 [.prune 0],
    .turn 0 [.create (repeatedSecret 5) soloSession]]

def soloBegun : World where
  shared := (Shared.empty.run (.prune 0)).run (.create (repeatedSecret 5) soloSession)
  now := 0
  trusted _ := true
  calls := [⟨soloBegin, .done (.ok (.began (soloSession.credentials 0)))⟩]

theorem soloBegin_run : Run (Step soloServer) soloStart soloBeginLabels soloBegun := by
  have h := (Run.single (@Step.invoke soloServer soloStart soloBegin))
    |>.snoc (.turn (k := 0) rfl (.authorize rfl))
    |>.snoc (.turn (k := 0) rfl (.sample rfl))
    |>.snoc (.turn (k := 0) rfl (.admission (World.serverLockFree_of_all rfl) rfl))
    |>.snoc (.turn (k := 0) rfl (.create soloDraw rfl))
  exact h

def soloCancel : Request := .control soloPeer (soloSession.credentials 0) 1 .cancel

def soloCancelLabels : List Label :=
  soloBeginLabels ++ [.invoke soloCancel, .turn 1 [], .turn 1 [], .turn 1 [.control 0 1 .cancel]]

theorem soloCancel_run : ∃ w, Run (Step soloServer) soloStart soloCancelLabels w ∧
    w.shared.metrics.cancelledTransfers = 1 :=
  ⟨_, soloBegin_run
    |>.snoc (.invoke soloCancel)
    |>.snoc (.turn (k := 1) rfl (.authorize rfl))
    |>.snoc (.turn (k := 1) rfl (.lookup (World.serverLockFree_of_all rfl) rfl rfl))
    |>.snoc (.turn (k := 1) rfl (.control rfl rfl)), rfl⟩

theorem session_life_cycle_safe_cancelled : ∃ w, w.shared.metrics.cancelledTransfers = 1 ∧
    w.shared.metrics.cancelledTransfers =
      {i | BecameCancelled soloServer soloStart soloCancelLabels w i}.ncard ∧
    (w.shared.transfers.values.filter w.shared.isActive).length ≤ maxActiveTransfers := by
  obtain ⟨w, hrun, hcancelled⟩ := soloCancel_run
  obtain ⟨-, -, hcount, hactive, -, -⟩ := session_life_cycle_safe hrun
  exact ⟨w, hcancelled, hcount, hactive⟩

end ClipFerry.Server
