import ClipFerry.Foundation.Crowd
import ClipFerry.Server.ConnectionLaw

namespace ClipFerry.Server

open Protocol Client Foundation

variable {server : ServerState} {listener listener' : SecureListener} {w w' : World}
  {c c' : SecureConnection} {i : Nat} {now : Nat} {trusted : CertificateFingerprint → Bool}

def ConnectionPc.slots : ConnectionPc → Nat
  | .ended _ => 0
  | _ => 1

def ConnectionPc.noted : ConnectionPc → Nat
  | .leaving (some error) | .ended (some error) => (countsAsProtocolError error).toNat
  | _ => 0

def SecureConnection.slots (c : SecureConnection) : Nat := c.pc.slots

def SecureConnection.noted (c : SecureConnection) : Nat := c.pc.noted

def AcceptPc.slots : AcceptPc → Nat
  | .claimed _ => 1
  | _ => 0

def AcceptPc.undecided : AcceptPc → Nat
  | .arrived | .claimed _ | .refusing => 1
  | _ => 0

def SecureListener.live (listener : SecureListener) : Nat :=
  crowdWeight SecureConnection.slots listener.connections

def SecureListener.noted (listener : SecureListener) : Nat :=
  crowdWeight SecureConnection.noted listener.connections

structure SecureListener.Slotted (listener : SecureListener) : Prop where
  workers : listener.workers = listener.live + listener.accepting.slots
  live : listener.live ≤ defaultMaxWorkers
  claimed : ∀ before, listener.accepting = .claimed before →
    listener.live ≤ before ∧ before ≤ defaultMaxWorkers
  accepted : listener.acceptedConnections = listener.connections.length + listener.refused +
    listener.unstarted + listener.accepting.undecided
  errors : listener.protocolErrors = listener.refused + listener.noted + listener.acceptErrors

theorem ConnectionStep.noted (h : ConnectionStep server w c w' c') : c'.noted = c.noted := by
  cases h with
  | arrive bytes => rfl
  | unread hpc error =>
    rcases hpc with hpc | hpc | hpc <;> simp [SecureConnection.noted, ConnectionPc.noted, hpc]
  | authenticate hpc | refuse hpc | check hpc | admitted hpc | denied hpc | hello hpc
  | badHello hpc | greet hpc | ungreeted hpc | read hpc | revoked hpc | unknown hpc | dispatch hpc
  | reply hpc | respond hpc | write hpc | unwritten hpc | unwritable hpc | finish hpc =>
    simp [SecureConnection.noted, ConnectionPc.noted, hpc]

theorem ConnectionStep.slots (h : ConnectionStep server w c w' c') : c'.slots = c.slots := by
  cases h with
  | arrive bytes => rfl
  | unread hpc error =>
    rcases hpc with hpc | hpc | hpc <;> simp [SecureConnection.slots, ConnectionPc.slots, hpc]
  | authenticate hpc | refuse hpc | check hpc | admitted hpc | denied hpc | hello hpc
  | badHello hpc | greet hpc | ungreeted hpc | read hpc | revoked hpc | unknown hpc | dispatch hpc
  | reply hpc | respond hpc | write hpc | unwritten hpc | unwritable hpc | finish hpc =>
    simp [SecureConnection.slots, ConnectionPc.slots, hpc]

namespace SecureListener

theorem live_set (hc : listener.connections[i]? = some c) (hslots : c'.slots = c.slots) :
    (listener.setConnection i c').live = listener.live :=
  crowdWeight_same hc hslots

theorem noted_set (hc : listener.connections[i]? = some c) (hnoted : c'.noted = c.noted) :
    (listener.setConnection i c').noted = listener.noted :=
  crowdWeight_same hc hnoted

theorem live_end {failure : Option IoError} (hc : listener.connections[i]? = some c)
    (hpc : c.pc = .leaving failure) :
    listener.live = (listener.setConnection i { c with pc := .ended failure }).live + 1 := by
  apply crowdWeight_loss hc
  simp [SecureConnection.slots, ConnectionPc.slots, hpc]

theorem Slotted.moved (h : listener.Slotted) (hlive : listener'.live = listener.live)
    (hlength : listener'.connections.length = listener.connections.length)
    (hworkers : listener'.workers = listener.workers)
    (haccepting : listener'.accepting = listener.accepting)
    (haccepted : listener'.acceptedConnections = listener.acceptedConnections)
    (hrefused : listener'.refused = listener.refused)
    (hunstarted : listener'.unstarted = listener.unstarted)
    (herrors : listener'.protocolErrors =
      listener'.refused + listener'.noted + listener'.acceptErrors) : listener'.Slotted where
  workers := by rw [hworkers, hlive, haccepting, h.workers]
  live := by
    rw [hlive]
    exact h.live
  claimed := by
    rw [hlive, haccepting]
    exact h.claimed
  accepted := by rw [haccepted, hlength, hrefused, hunstarted, haccepting, h.accepted]
  errors := herrors

theorem Slotted.turn (h : listener.Slotted) {accepting : AcceptPc}
    (hslots : listener.accepting.slots = 0) (hundecided : listener.accepting.undecided = 0)
    (hslots' : accepting.slots = 0) (hundecided' : accepting.undecided = 0) :
    ({ listener with accepting := accepting } : SecureListener).Slotted where
  workers := by
    have hworkers := h.workers
    rw [hslots] at hworkers
    rw [hslots']
    exact hworkers
  live := h.live
  claimed before hbefore := by
    obtain rfl : accepting = .claimed before := hbefore
    cases hslots'
  accepted := by
    have haccepted := h.accepted
    rw [hundecided] at haccepted
    rw [hundecided']
    exact haccepted
  errors := h.errors

theorem Slotted.dropped (h : listener.Slotted) {failure : Option IoError}
    (hc : listener.connections[i]? = some c) (hpc : c.pc = .leaving failure) :
    ({ listener.setConnection i { c with pc := .ended failure } with
      workers := listener.workers - 1 } : SecureListener).Slotted := by
  have hworkers := h.workers
  have hend := live_end hc hpc
  have hlive := h.live
  have hnoted : (listener.setConnection i { c with pc := .ended failure }).noted =
      listener.noted := by
    apply noted_set hc
    cases failure <;> simp [SecureConnection.noted, ConnectionPc.noted, hpc]
  refine ⟨?_, ?_, ?_, ?_, h.errors.trans (by rw [← hnoted]; rfl)⟩
  · change listener.workers - 1 =
      (listener.setConnection i { c with pc := .ended failure }).live + listener.accepting.slots
    omega
  · change (listener.setConnection i { c with pc := .ended failure }).live ≤ defaultMaxWorkers
    omega
  · intro before hbefore
    obtain ⟨hle, hmost⟩ := h.claimed before hbefore
    refine ⟨?_, hmost⟩
    change (listener.setConnection i { c with pc := .ended failure }).live ≤ before
    omega
  · dsimp only [setConnection]
    rw [List.length_set]
    exact h.accepted

theorem Slotted.spawned (h : listener.Slotted) {before : Nat}
    (hpc : listener.accepting = .claimed before) (hfree : before < defaultMaxWorkers) :
    ({ listener with
      accepting := .top
      connections := listener.connections ++ [.accepted] } : SecureListener).Slotted := by
  have hworkers := h.workers
  have haccepted := h.accepted
  rw [hpc] at hworkers haccepted
  have hroom := (h.claimed before hpc).1
  have hlive : crowdWeight SecureConnection.slots (listener.connections ++ [.accepted]) =
      listener.live + 1 := crowdWeight_concat _ _ _
  have hnoted : crowdWeight SecureConnection.noted (listener.connections ++ [.accepted]) =
      listener.noted := crowdWeight_concat _ _ _
  refine ⟨?_, ?_, by simp, ?_, h.errors.trans (by rw [← hnoted]; rfl)⟩
  · change listener.workers = crowdWeight SecureConnection.slots _ + 0
    rw [hlive, hworkers]
    rfl
  · change crowdWeight SecureConnection.slots (listener.connections ++ _) ≤ defaultMaxWorkers
    omega
  · dsimp only [AcceptPc.undecided] at haccepted ⊢
    rw [List.length_append, List.length_singleton]
    omega

end SecureListener

theorem ListenerStep.slotted (h : listener.Slotted) (hstep : ListenerStep server listener listener') :
    listener'.Slotted := by
  have hworkers := h.workers
  have haccepted := h.accepted
  have herrors := h.errors
  cases hstep with
  | world hl hworld => exact h.moved rfl rfl rfl rfl rfl rfl rfl h.errors
  | connection hc hconnection =>
    refine h.moved (SecureListener.live_set hc hconnection.slots) List.length_set rfl rfl rfl rfl rfl
      ?_
    exact herrors.trans (by rw [← SecureListener.noted_set hc hconnection.noted]; rfl)
  | @note i c error hc hpc =>
    have hnoted : (listener.setConnection i { c with pc := .leaving (some error) }).noted =
        listener.noted + (countsAsProtocolError error).toNat := by
      apply crowdWeight_gain hc
      simp [SecureConnection.noted, ConnectionPc.noted, hpc]
    refine h.moved (SecureListener.live_set hc ?_) List.length_set rfl rfl rfl rfl rfl ?_
    · simp [SecureConnection.slots, ConnectionPc.slots, hpc]
    · change listener.protocolErrors + _ = listener.refused +
        (listener.setConnection i { c with pc := .leaving (some error) }).noted +
        listener.acceptErrors
      omega
  | @noteTls i c hc hpc =>
    have hnoted : (listener.setConnection i { c with pc := .leaving none }).noted =
        listener.noted := by
      apply SecureListener.noted_set hc
      simp [SecureConnection.noted, ConnectionPc.noted, hpc]
    refine h.moved (SecureListener.live_set hc ?_) List.length_set rfl rfl rfl rfl rfl ?_
    · simp [SecureConnection.slots, ConnectionPc.slots, hpc]
    · exact herrors.trans (by rw [← hnoted]; rfl)
  | drop hc hpc => exact h.dropped hc hpc
  | askStop => exact h.moved rfl rfl rfl rfl rfl rfl rfl h.errors
  | listen hpc hstop | stopped hpc hstop | nobody hpc =>
    exact h.turn (by rw [hpc]; rfl) (by rw [hpc]; rfl) rfl rfl
  | broken hpc =>
    rw [hpc] at hworkers haccepted
    refine ⟨hworkers, h.live, by simp, haccepted, ?_⟩
    change listener.protocolErrors + 1 = listener.refused + listener.noted +
      (listener.acceptErrors + 1)
    omega
  | accept hpc =>
    rw [hpc] at hworkers haccepted
    refine ⟨hworkers, h.live, by simp, ?_, herrors⟩
    change listener.acceptedConnections + 1 = _
    rw [haccepted]
    rfl
  | claim hpc =>
    rw [hpc] at hworkers haccepted
    refine ⟨congrArg (· + 1) hworkers, h.live, fun before hbefore => ?_, haccepted, herrors⟩
    cases hbefore
    rw [hworkers]
    exact ⟨Nat.le_refl _, h.live⟩
  | release hpc hfull =>
    rw [hpc] at hworkers haccepted
    refine ⟨?_, h.live, by simp, haccepted, herrors⟩
    change listener.workers - 1 = _
    rw [hworkers]
    rfl
  | refuse hpc =>
    rw [hpc] at hworkers haccepted
    refine ⟨hworkers, h.live, by simp, ?_, ?_⟩
    · dsimp only [AcceptPc.undecided] at haccepted ⊢
      omega
    · change listener.protocolErrors + 1 = listener.refused + 1 + listener.noted +
        listener.acceptErrors
      omega
  | spawn hpc hfree => exact h.spawned hpc hfree
  | unspawned hpc hfree =>
    rw [hpc] at hworkers haccepted
    refine ⟨?_, h.live, by simp, ?_, herrors⟩
    · change listener.workers - 1 = _
      rw [hworkers]
      rfl
    · dsimp only [AcceptPc.undecided] at haccepted ⊢
      omega

theorem slotted_of_run
    (h : Relation.ReflTransGen (ListenerStep server) (.start now trusted) listener) :
    listener.Slotted := by
  induction h with
  | refl =>
    refine ⟨rfl, Nat.zero_le _, ?_, rfl, rfl⟩
    intro before hbefore
    cases hbefore
  | tail _ last ih => exact last.slotted ih

structure SecureListener.Closing (workers threads : Nat) (listener : SecureListener) : Prop where
  stopped : listener.accepting = .stopped
  workers : listener.workers ≤ workers
  threads : listener.connections.length = threads

theorem ListenerStep.closing {workers threads : Nat} (h : listener.Closing workers threads)
    (hstep : ListenerStep server listener listener') : listener'.Closing workers threads := by
  have hstopped := h.stopped
  cases hstep with
  | world | askStop => exact ⟨hstopped, h.workers, h.threads⟩
  | connection hc | note hc | noteTls hc =>
    exact ⟨hstopped, h.workers, List.length_set.trans h.threads⟩
  | drop hc =>
    exact ⟨hstopped, Nat.le_trans (Nat.sub_le _ _) h.workers, List.length_set.trans h.threads⟩
  | listen hpc | stopped hpc | nobody hpc | broken hpc | accept hpc | claim hpc | release hpc
  | refuse hpc | spawn hpc | unspawned hpc =>
    rw [hstopped] at hpc
    cases hpc

theorem closing_of_run {workers threads : Nat} (hclosing : listener.Closing workers threads)
    (h : Relation.ReflTransGen (ListenerStep server) listener listener') :
    listener'.Closing workers threads := by
  induction h with
  | refl => exact hclosing
  | tail _ last ih => exact last.closing ih

theorem ended_of_live (hlive : listener.live = 0) (hc : c ∈ listener.connections) :
    ∃ failure, c.pc = .ended failure := by
  have hslots := crowdWeight_eq_zero.mp hlive c hc
  cases hpc : c.pc with
  | ended failure => exact ⟨failure, rfl⟩
  | _ => simp [SecureConnection.slots, ConnectionPc.slots, hpc] at hslots

theorem listener_slots
    (h : Relation.ReflTransGen (ListenerStep server) (.start now trusted) listener) :
    listener.Slotted ∧ ∀ later, Relation.ReflTransGen (ListenerStep server) listener later →
      listener.accepting = .stopped →
      later.connections.length = listener.connections.length ∧ later.workers ≤ listener.workers ∧
        (later.workers = 0 → ∀ c ∈ later.connections, ∃ failure, c.pc = .ended failure) := by
  refine ⟨slotted_of_run h, fun later hlater hstopped => ?_⟩
  have hclosing := closing_of_run ⟨hstopped, Nat.le_refl _, rfl⟩ hlater
  refine ⟨hclosing.threads, hclosing.workers, fun hnone c hc => ended_of_live ?_ hc⟩
  have hworkers := (slotted_of_run (h.trans hlater)).workers
  omega

theorem listener_slots_solo : ∃ later : SecureListener,
    soloWaiting.live = 1 ∧ later.connections.length = 1 ∧ later.workers = 0 ∧
      ∀ c ∈ later.connections, ∃ failure, c.pc = .ended failure := by
  have hstopped := (solo_waiting.tail .askStop).tail (.stopped rfl rfl)
  have hended := ((Relation.ReflTransGen.refl.tail (.connection (i := 0) rfl (.finish rfl rfl))).tail
    (.drop (i := 0) rfl rfl) : Relation.ReflTransGen (ListenerStep soloServer)
      { soloWaiting with stop := true, accepting := .stopped } _)
  obtain ⟨hlength, -, hnone⟩ := (listener_slots hstopped).2 _ hended rfl
  exact ⟨_, rfl, hlength, rfl, hnone rfl⟩

end ClipFerry.Server
