import ClipFerry.Server.ConnectionLaw

namespace ClipFerry.Server

open Protocol Client Foundation Transition Checked

variable {server : ServerState} {w w' : World} {c c' : SecureConnection} {l : Label}
  {peer : CertificateFingerprint} {frame : Frame} {opcode : Opcode} {payload : List UInt8}
  {k check : Nat} {request : Request} {pc : Pc} {now : Nat}
  {trusted : CertificateFingerprint → Bool} {connections : List SecureConnection}
  {checkOf : Nat → Nat}

def Request.isConnect : Request → Bool
  | .connect _ => true
  | _ => false

def Request.ActsFor (peer : CertificateFingerprint) (request : Request) : Prop :=
  request.peer = peer ∧ request.isConnect = false

theorem beginRequest_peer (h : beginRequest peer payload = .ok request) : request.ActsFor peer := by
  rw [beginRequest] at h
  split at h
  · cases h
  · simp only [bind_eq_ok] at h
    obtain ⟨offerId, -, fileId, -, nonce, -, h⟩ := h
    split at h
    · cases h
    · cases h
      exact ⟨rfl, rfl⟩

theorem readRequest_peer (h : readRequest peer payload = .ok request) : request.ActsFor peer := by
  rw [readRequest] at h
  split at h
  · cases h
  · simp only [bind_eq_ok] at h
    obtain ⟨credentials, -, offset, -, requested, -, h⟩ := h
    cases h
    exact ⟨rfl, rfl⟩

theorem controlRequest_peer (h : controlRequest peer opcode payload = .ok request) :
    request.ActsFor peer := by
  rw [controlRequest] at h
  split at h
  · cases h
  · simp only [bind_eq_ok] at h
    obtain ⟨credentials, -, sequence, -, h⟩ := h
    cases h
    exact ⟨rfl, rfl⟩

theorem statusRequest_peer (h : statusRequest peer payload = .ok request) :
    request.ActsFor peer := by
  rw [statusRequest] at h
  split at h
  · cases h
  · simp only [bind_eq_ok] at h
    obtain ⟨credentials, -, h⟩ := h
    cases h
    exact ⟨rfl, rfl⟩

theorem ofRequest_call {result : WireResult Request}
    (h : Dispatch.ofRequest result = .call request) : result = .ok request := by
  cases result with
  | ok found =>
    cases h
    rfl
  | error status => cases h

theorem dispatchRequest_peer {checkedAt readAt : Nat}
    (h : dispatchRequest server checkedAt readAt peer opcode payload = .call request) :
    request.ActsFor peer := by
  cases opcode with
  | getOffer | hello => cases h
  | beginTransfer => exact beginRequest_peer (ofRequest_call h)
  | readRange => exact readRequest_peer (ofRequest_call h)
  | pause | resume | cancel | complete => exact controlRequest_peer (ofRequest_call h)
  | status => exact statusRequest_peer (ofRequest_call h)

structure FrameCall (server : ServerState) (w : World) (c : SecureConnection)
    (peer : CertificateFingerprint) (check k : Nat) (request : Request) : Prop where
  greeted : ∃ hello, c.hello = some hello ∧ ValidHello hello
  admitted : Admitted w peer check
  before : check < k
  read : ∃ frame opcode, (frame, check) ∈ c.requests ∧
    Opcode.tryFrom frame.opcode = .ok opcode ∧ ∀ checkedAt readAt,
      dispatchRequest server checkedAt readAt peer opcode frame.payload = .call request

structure Owns (server : ServerState) (w : World) (check k : Nat) (request : Request)
    (c : SecureConnection) : Prop where
  peer : c.peer = some request.peer
  made : request.isConnect = true ∨ FrameCall server w c request.peer check k request

def World.Asked (w : World) (k : Nat) (request : Request) : Prop := ∃ pc, At k request pc w

structure CallBook (server : ServerState) (w : World) (connections : List SecureConnection)
    (checkOf : Nat → Nat) : Prop where
  owned : ∀ k request, w.Asked k request → ∃ c ∈ connections, Owns server w (checkOf k) k request c
  once : ∀ j k request request', w.Asked j request → w.Asked k request' →
    request.isConnect = false → request'.isConnect = false → checkOf j = checkOf k → j = k
  fresh : ∀ (i : Nat) (c : SecureConnection) frame check, connections[i]? = some c →
    c.pc = .checking frame check → check < w.calls.length ∧
      ∀ k request, w.Asked k request → request.isConnect = false → checkOf k ≠ check
  apart : ∀ (i j : Nat) (c c' : SecureConnection) frame frame' check, connections[i]? = some c →
    connections[j]? = some c' → c.pc = .checking frame check → c'.pc = .checking frame' check → i = j

theorem Step.asked_cases (h : Step server w l w') (hasked : w'.Asked k request) :
    w.Asked k request ∨ (k = w.calls.length ∧ l = .invoke request) := by
  obtain ⟨pc, hat⟩ := hasked
  rcases h.call_cases hat with ⟨hsame, -⟩ | ⟨hnone, invoked, rfl, hcall⟩ |
    ⟨before, us, next, -, hbefore, -, hafter⟩
  · exact .inl ⟨pc, hsame⟩
  · obtain ⟨rfl, -⟩ := Call.mk.inj hcall
    refine .inr ⟨?_, rfl⟩
    cases h with
    | invoke =>
      rcases Position.concat_cases hat with hold | ⟨rfl, -⟩
      · rw [hnone] at hold
        cases hold
      · rfl
  · cases before with
    | mk asked before =>
      cases hafter
      exact .inl ⟨before, hbefore⟩

theorem World.Asked.lt (h : w.Asked k request) : k < w.calls.length := by
  obtain ⟨pc, hat⟩ := h
  exact (List.getElem?_eq_some_iff.mp hat).1

structure Grown (c c' : SecureConnection) : Prop where
  peer : ∀ peer, c.peer = some peer → c'.peer = some peer
  hello : ∀ hello, c.hello = some hello → c'.hello = some hello
  requests : c.requests ⊆ c'.requests

theorem Grown.refl (c : SecureConnection) : Grown c c :=
  ⟨fun _ h => h, fun _ h => h, fun _ h => h⟩

theorem FrameCall.grown (hgrown : Grown c c') (h : FrameCall server w c peer check k request) :
    FrameCall server w c' peer check k request := by
  obtain ⟨⟨hello, hhello, hvalid⟩, hadmitted, hbefore, frame, opcode, hread, hknown, hcall⟩ := h
  exact ⟨⟨hello, hgrown.hello hello hhello, hvalid⟩, hadmitted, hbefore, frame, opcode,
    hgrown.requests hread, hknown, hcall⟩

theorem Owns.grown (hgrown : Grown c c') (h : Owns server w check k request c) :
    Owns server w check k request c' :=
  ⟨hgrown.peer _ h.peer, h.made.imp_right (FrameCall.grown hgrown)⟩

theorem Owns.step (hstep : Step server w l w') (h : Owns server w check k request c) :
    Owns server w' check k request c := by
  refine ⟨h.peer, h.made.imp_right fun hmade => ?_⟩
  exact ⟨hmade.greeted, hstep.done hmade.admitted, hmade.before, hmade.read⟩

theorem ConnectionStep.grown (hstage : Stage server w c c.pc)
    (h : ConnectionStep server w c w' c') : Grown c c' := by
  cases h with
  | authenticate hpc peer =>
    rw [hpc] at hstage
    have hnew : ∀ found, c.peer = some found → some peer = some found := by
      intro found hfound
      cases hstage.1.symm.trans hfound
    exact ⟨hnew, fun _ h => h, fun _ h => h⟩
  | @hello _ hello rest hpc hread hvalid =>
    rw [hpc] at hstage
    have hnew : ∀ found, c.hello = some found → some hello = some found := by
      intro found hfound
      cases hstage.1.hello.symm.trans hfound
    exact ⟨fun _ h => h, hnew, fun _ h => h⟩
  | read hpc hpeer hread hinvoke =>
    exact ⟨fun _ h => h, fun _ h => h, List.subset_append_left _ _⟩
  | arrive | refuse | check | admitted | denied | badHello | greet | ungreeted | revoked | unknown
  | dispatch | reply | respond | write | unwritten | unwritable | unread | finish =>
    exact ⟨fun _ h => h, fun _ h => h, fun _ h => h⟩

theorem set_grown {i : Nat} (hc : connections[i]? = some c) (hgrown : Grown c c')
    {found : SecureConnection} (hfound : found ∈ connections) :
    ∃ kept ∈ connections.set i c', Grown found kept := by
  obtain ⟨j, hj⟩ := List.mem_iff_getElem?.mp hfound
  by_cases hij : i = j
  · subst hij
    obtain rfl := Option.some.inj (hc.symm.trans hj)
    exact ⟨c', List.mem_set (List.getElem?_eq_some_iff.mp hc).1 c', hgrown⟩
  · refine ⟨found, List.mem_of_getElem? (i := j) ?_, .refl found⟩
    rwa [List.getElem?_set_ne hij]

namespace CallBook

theorem checkOf_lt (h : CallBook server w connections checkOf) (hasked : w.Asked k request)
    (hframe : request.isConnect = false) : checkOf k < k := by
  obtain ⟨c, -, howns⟩ := h.owned k request hasked
  rcases howns.made with hconnect | hmade
  · rw [hframe] at hconnect
    cases hconnect
  · exact hmade.before

theorem world (h : CallBook server w connections checkOf) (hstep : Step server w l w')
    (hl : ∀ request, l ≠ .invoke request) : CallBook server w' connections checkOf := by
  have hback : ∀ {k request}, w'.Asked k request → w.Asked k request := by
    intro k request hasked
    rcases hstep.asked_cases hasked with hold | ⟨-, hnew⟩
    · exact hold
    · exact absurd hnew (hl request)
  have hlength : w'.calls.length = w.calls.length := by
    cases hstep with
    | clock | trust | cleanup => rfl
    | invoke request => exact absurd rfl (hl request)
    | turn => exact List.length_set
  constructor
  · intro k request hasked
    obtain ⟨c, hc, howns⟩ := h.owned k request (hback hasked)
    exact ⟨c, hc, howns.step hstep⟩
  · exact fun j k request request' hj hk => h.once j k request request' (hback hj) (hback hk)
  · intro i c frame check hc hpc
    obtain ⟨hlt, hfresh⟩ := h.fresh i c frame check hc hpc
    exact ⟨hlength ▸ hlt, fun k request hasked => hfresh k request (hback hasked)⟩
  · exact h.apart

theorem quiet {i : Nat} (h : CallBook server w connections checkOf) (hc : connections[i]? = some c)
    (hgrown : Grown c c')
    (hpc : ∀ frame check, c'.pc = .checking frame check → c.pc = .checking frame check) :
    CallBook server w (connections.set i c') checkOf := by
  have hback : ∀ {j : Nat} {found : SecureConnection} {frame check},
      (connections.set i c')[j]? = some found → found.pc = .checking frame check →
      ∃ before : SecureConnection, connections[j]? = some before ∧
        before.pc = .checking frame check := by
    intro j found frame check hfound hchecking
    rcases Position.set_cases hfound with ⟨rfl, rfl⟩ | ⟨-, hold⟩
    · exact ⟨c, hc, hpc frame check hchecking⟩
    · exact ⟨found, hold, hchecking⟩
  constructor
  · intro k request hasked
    obtain ⟨found, hfound, howns⟩ := h.owned k request hasked
    obtain ⟨kept, hkept, hmore⟩ := set_grown hc hgrown hfound
    exact ⟨kept, hkept, howns.grown hmore⟩
  · exact h.once
  · intro j found frame check hfound hchecking
    obtain ⟨before, hbefore, hat⟩ := hback hfound hchecking
    exact h.fresh j before frame check hbefore hat
  · intro j m found other frame frame' check hfound hother hat hat'
    obtain ⟨before, hbefore, hpc⟩ := hback hfound hat
    obtain ⟨before', hbefore', hpc'⟩ := hback hother hat'
    exact h.apart j m before before' frame frame' check hbefore hbefore' hpc hpc'

theorem spawn (h : CallBook server w connections checkOf) :
    CallBook server w (connections ++ [.accepted]) checkOf := by
  have hback : ∀ {j : Nat} {found : SecureConnection} {frame check},
      (connections ++ [.accepted])[j]? = some found → found.pc = .checking frame check →
      connections[j]? = some found := by
    intro j found frame check hfound hchecking
    rcases Position.concat_cases hfound with hold | ⟨-, rfl⟩
    · exact hold
    · cases hchecking
  constructor
  · intro k request hasked
    obtain ⟨found, hfound, howns⟩ := h.owned k request hasked
    exact ⟨found, List.mem_append_left _ hfound, howns⟩
  · exact h.once
  · intro j found frame check hfound hchecking
    exact h.fresh j found frame check (hback hfound hchecking) hchecking
  · intro j m found other frame frame' check hfound hother hat hat'
    exact h.apart j m found other frame frame' check (hback hfound hat) (hback hother hat') hat hat'

theorem invoke {i : Nat} (h : CallBook server w connections checkOf) (check : Nat)
    (hinvoke : Step server w (.invoke request) w') (hc : connections[i]? = some c)
    (hgrown : Grown c c') (howns : Owns server w' check w.calls.length request c')
    (hchecked : request.isConnect = true ∨ ∃ frame, c.pc = .checking frame check)
    (hnext : ∀ frame check, c'.pc = .checking frame check →
      request.isConnect = true ∧ check = w.calls.length) :
    CallBook server w' (connections.set i c') (Function.update checkOf w.calls.length check) := by
  have hlength : w'.calls.length = w.calls.length + 1 := by
    cases hinvoke
    exact List.length_append
  have hupdate : ∀ {k request}, w.Asked k request →
      Function.update checkOf w.calls.length check k = checkOf k :=
    fun hasked => Function.update_of_ne (Nat.ne_of_lt hasked.lt) _ _
  have hcases : ∀ {k asked}, w'.Asked k asked →
      w.Asked k asked ∨ (k = w.calls.length ∧ asked = request) := by
    intro k asked hasked
    rcases hinvoke.asked_cases hasked with hold | ⟨hk, hnew⟩
    · exact .inl hold
    · exact .inr ⟨hk, (Label.invoke.inj hnew).symm⟩
  -- the check that the new call was made after is that of no call before it
  have hunused : ∀ {k asked}, w.Asked k asked → asked.isConnect = false →
      request.isConnect = false → checkOf k ≠ check := by
    intro k asked hasked hframe hnew
    rcases hchecked with hconnect | ⟨frame, hpc⟩
    · rw [hnew] at hconnect
      cases hconnect
    · exact (h.fresh i c frame check hc hpc).2 k asked hasked hframe
  constructor
  · intro k asked hasked
    rcases hcases hasked with hold | ⟨rfl, rfl⟩
    · obtain ⟨found, hfound, hfoundOwns⟩ := h.owned k asked hold
      obtain ⟨kept, hkept, hmore⟩ := set_grown hc hgrown hfound
      rw [hupdate hold]
      exact ⟨kept, hkept, (hfoundOwns.step hinvoke).grown hmore⟩
    · rw [Function.update_self]
      exact ⟨c', List.mem_set (List.getElem?_eq_some_iff.mp hc).1 c', howns⟩
  · intro j k asked asked' hj hk hframe hframe' hsame
    rcases hcases hj with hoj | ⟨rfl, rfl⟩ <;> rcases hcases hk with hok | ⟨rfl, rfl⟩
    · rw [hupdate hoj, hupdate hok] at hsame
      exact h.once j k asked asked' hoj hok hframe hframe' hsame
    · rw [hupdate hoj, Function.update_self] at hsame
      exact absurd hsame (hunused hoj hframe hframe')
    · rw [hupdate hok, Function.update_self] at hsame
      exact absurd hsame.symm (hunused hok hframe' hframe)
    · rfl
  · intro j found frame check' hfound hpc
    rw [hlength]
    rcases Position.set_cases hfound with ⟨rfl, rfl⟩ | ⟨hij, hold⟩
    · obtain ⟨hconnect, rfl⟩ := hnext frame check' hpc
      refine ⟨Nat.lt_succ_self _, fun k asked hasked hframe => ?_⟩
      rcases hcases hasked with hold | ⟨rfl, rfl⟩
      · rw [hupdate hold]
        have hlt := h.checkOf_lt hold hframe
        exact Nat.ne_of_lt (Nat.lt_trans hlt hold.lt)
      · rw [hconnect] at hframe
        cases hframe
    · obtain ⟨hlt, hfresh⟩ := h.fresh j found frame check' hold hpc
      refine ⟨Nat.lt_succ_of_lt hlt, fun k asked hasked hframe => ?_⟩
      rcases hcases hasked with hasked | ⟨rfl, rfl⟩
      · rw [hupdate hasked]
        exact hfresh k asked hasked hframe
      · rw [Function.update_self]
        rintro rfl
        rcases hchecked with hconnect | ⟨frame', hpc'⟩
        · rw [hframe] at hconnect
          cases hconnect
        · exact hij (h.apart j i found c frame frame' check hold hc hpc hpc')
  · intro j m found other frame frame' check' hfound hother hpc hpc'
    rcases Position.set_cases hfound with ⟨rfl, rfl⟩ | ⟨-, hold⟩ <;>
      rcases Position.set_cases hother with ⟨rfl, rfl⟩ | ⟨-, hold'⟩
    · rfl
    · obtain ⟨-, rfl⟩ := hnext frame check' hpc
      exact absurd (h.fresh m other frame' _ hold' hpc').1 (Nat.lt_irrefl _)
    · obtain ⟨-, rfl⟩ := hnext frame' check' hpc'
      exact absurd (h.fresh j found frame _ hold hpc).1 (Nat.lt_irrefl _)
    · exact h.apart j m found other frame frame' check' hold hold' hpc hpc'

end CallBook

theorem ConnectionStep.callBook {i : Nat} (h : CallBook server w connections checkOf)
    (hc : connections[i]? = some c) (hstage : Stage server w c c.pc)
    (hstep : ConnectionStep server w c w' c') :
    ∃ checkOf', CallBook server w' (connections.set i c') checkOf' := by
  have hgrown := hstep.grown hstage
  cases hstep with
  | arrive bytes => exact ⟨checkOf, h.quiet hc hgrown fun _ _ hpc => hpc⟩
  | check hpc hpeer hinvoke =>
    exact ⟨_, h.invoke 0 hinvoke hc hgrown ⟨hpeer, .inl rfl⟩ (.inl rfl) fun _ _ h => by cases h⟩
  | read hpc hpeer hread hinvoke =>
    refine ⟨_, h.invoke 0 hinvoke hc hgrown ⟨hpeer, .inl rfl⟩ (.inl rfl) fun frame check h => ?_⟩
    cases h
    exact ⟨rfl, rfl⟩
  | @dispatch _ _ check checkedAt readAt peer frame opcode request hpc hpeer hallowed hopcode hcall
      hinvoke =>
    obtain ⟨rfl, hframe⟩ := dispatchRequest_peer hcall
    rw [hpc] at hstage
    obtain ⟨answered, hrequests, hconversed⟩ := Awaited.earlier hstage
    have hgreeted : ∃ hello, c.hello = some hello ∧ ValidHello hello := by
      obtain ⟨-, -, hhello, hvalid, -, -⟩ := hconversed
      exact ⟨_, hhello, hvalid⟩
    have hread : (frame, check) ∈ c.requests := by
      rw [hrequests]
      exact List.mem_append_right _ (List.mem_singleton_self _)
    have hbefore : check < w.calls.length := (h.fresh i c frame check hc hpc).1
    have hmade : FrameCall server w' c request.peer check w.calls.length request :=
      ⟨hgreeted, hinvoke.done hallowed, hbefore, frame, opcode, hread, hopcode,
        dispatchRequest_call hcall⟩
    refine ⟨_, h.invoke check hinvoke hc hgrown ⟨hpeer, .inr (hmade.grown hgrown)⟩
      (.inr ⟨frame, hpc⟩) ?_⟩
    intro frame' check' h
    cases h
  | authenticate | refuse | admitted | denied | hello | badHello | greet | ungreeted | revoked
  | unknown | reply | respond | write | unwritten | unwritable | unread | finish =>
    exact ⟨checkOf, h.quiet hc hgrown (by simp)⟩

theorem ListenerStep.callBook {listener listener' : SecureListener}
    (hstaged : listener.Staged server now trusted)
    (h : CallBook server listener.world listener.connections checkOf)
    (hstep : ListenerStep server listener listener') :
    ∃ checkOf', CallBook server listener'.world listener'.connections checkOf' := by
  have hmove : ∀ {i : Nat} {c : SecureConnection} {pc : ConnectionPc},
      listener.connections[i]? = some c → (∀ frame check, pc ≠ .checking frame check) →
      CallBook server listener.world (listener.connections.set i { c with pc := pc }) checkOf :=
    fun hc hpc => h.quiet hc ⟨fun _ h => h, fun _ h => h, fun _ h => h⟩ fun frame check hat =>
      absurd hat (hpc frame check)
  cases hstep with
  | world hl hworld => exact ⟨checkOf, h.world hworld hl⟩
  | connection hc hconnection =>
    exact hconnection.callBook h hc (hstaged.stage _ (List.mem_of_getElem? hc))
  | note hc hpc | noteTls hc hpc | drop hc hpc => exact ⟨checkOf, hmove hc (by simp)⟩
  | spawn hpc hfree => exact ⟨checkOf, h.spawn⟩
  | askStop | listen | stopped | nobody | broken | accept | claim | release | refuse
  | unspawned => exact ⟨checkOf, h⟩

theorem calls_owned {listener : SecureListener}
    (h : Relation.ReflTransGen (ListenerStep server) (.start now trusted) listener) :
    ∃ checkOf : Nat → Nat,
      (∀ k request, listener.world.Asked k request →
        ∃ c ∈ listener.connections, Owns server listener.world (checkOf k) k request c) ∧
      ∀ j k request request', listener.world.Asked j request → listener.world.Asked k request' →
        request.isConnect = false → request'.isConnect = false → checkOf j = checkOf k → j = k := by
  have hbook : ∃ checkOf, CallBook server listener.world listener.connections checkOf := by
    induction h with
    | refl =>
      have hnone : ∀ {k request}, ¬(World.start now trusted).Asked k request := by
        rintro k request ⟨pc, hat⟩
        cases hat
      refine ⟨id, ⟨fun k request hasked => absurd hasked hnone,
        fun j k request request' hasked => absurd hasked hnone, ?_, ?_⟩⟩
      · intro i c frame check hc
        cases hc
      · intro i j c c' frame frame' check hc
        cases hc
    | tail hrun last ih =>
      obtain ⟨checkOf, hbook⟩ := ih
      exact last.callBook (staged_of_run hrun) hbook
  obtain ⟨checkOf, hbook⟩ := hbook
  exact ⟨checkOf, hbook.owned, hbook.once⟩

def soloBeginFrame : Frame :=
  ⟨Opcode.beginTransfer.code, 2, beginPayload (repeatedId 0) (repeatedId 1) (repeatedSecret 5)⟩

theorem calls_owned_solo : ∃ (listener : SecureListener) (check : Nat),
    listener.world.Asked 2 soloBegin ∧
    ∃ c ∈ listener.connections, FrameCall soloServer listener.world c soloPeer check 2 soloBegin := by
  obtain ⟨bytes, hwrite⟩ := writeFrame_fits soloBeginFrame (by decide)
  have harrived := solo_waiting.tail (.connection (i := 0) rfl (.arrive bytes))
  have hread := harrived.tail (.connection (i := 0) rfl
    (.read rfl rfl (readFrame_writeFrame hwrite) (.invoke (.connect soloPeer))))
  have hchecked := hread.tail (.world (fun _ h => by cases h)
    (.turn (k := 1) rfl (.authorize rfl)))
  have hasked := hchecked.tail (.connection (i := 0) rfl
    (@ConnectionStep.dispatch _ _ _ _ 1 0 0 soloPeer soloBeginFrame .beginTransfer soloBegin rfl rfl
      rfl rfl rfl (.invoke soloBegin)))
  obtain ⟨checkOf, howned, -⟩ := calls_owned hasked
  obtain ⟨c, hc, -, hconnect | hmade⟩ := howned 2 soloBegin ⟨_, rfl⟩
  · cases hconnect
  · refine ⟨_, _, ?_, c, hc, hmade⟩
    exact ⟨.authorize, rfl⟩

end ClipFerry.Server
