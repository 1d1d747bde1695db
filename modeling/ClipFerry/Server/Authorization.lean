import ClipFerry.Server.Capacity
import ClipFerry.Server.CallTrace

namespace ClipFerry.Server

open Protocol Foundation Transition

variable {server : ServerState} {start w w' : World} {l : Label} {ls : List Label} {i k : Nat}
  {request : Request} {credentials : TransferCredentials} {pc next : Pc} {view : View}
  {free : Prop} {us : List Update}
  {u : Update}

def Pc.session : Pc → Option Nat
  | .apply i | .gate i | .waiting i | .recheck i | .fetch i | .finish i _ _ => some i
  | _ => none

def Pc.closing : Pc → Bool
  | .revoke | .cancelling _ | .done _ => true
  | _ => false

def Update.target : Update → Option Nat
  | .control i _ _ | .cancel i | .serve i _ _ => some i
  | .deny | .replay | .beginRead | .prune _ | .create _ _ => none

def Untouched (w w' : World) (j : Nat) : Prop := w'.shared.sessions[j]? = w.shared.sessions[j]?

structure Revoked (server : ServerState) (start : World) (k : Nat) (request : Request)
    (ls : List Label) (w w' : World) (j : Nat) : Prop where
  failed : Past (Step server) start (fun _ w => FailedCheck server k request w) ls w
  cancelled : ∃ session, w.shared.sessions[j]? = some session ∧
    session.authorizedPeer = request.peer ∧
    w'.shared.sessions[j]? = some { session with inner := session.inner.cancel }

inductive Used (server : ServerState) (view : View) (credentials : TransferCredentials)
    (session : TransferSession) : Request → TransferInner → Prop
  | control {peer sequence opcode} :
      Used server view credentials session (.control peer credentials sequence opcode)
        (session.inner.accept sequence opcode)
  | read {peer offset requested read} (hallowed : server.peerIsAllowed view peer = true)
      (hlive : view.now < session.expiresAt) (hstate : session.inner.state ≠ .cancelled) :
      Used server view credentials session (.readRange peer credentials offset requested)
        (session.inner.serve offset read)

structure UsedOwn (server : ServerState) (start : World) (k : Nat) (request : Request)
    (credentials : TransferCredentials) (ls : List Label) (pc : Pc) (w w' : World) (j : Nat) :
    Prop where
  current : pc.session = some j
  granted : Granted server start k request credentials j ls w
  used : ∃ session inner, w.shared.sessions[j]? = some session ∧
    Used server w.toView credentials session request inner ∧
    w'.shared.sessions[j]? = some { session with inner := inner }

theorem Pc.reading_session (h : pc.reading i) : pc.session = some i := by
  cases pc with
  | gate j | waiting j | finish j => exact congrArg some h
  | authorize | revoke | cancelling | sample | admission | counting | lookup | apply | recheck
  | fetch | done => exact h.elim

theorem Granted.found (h : Granted server start k request credentials i ls w) :
    ∃ session, w.shared.sessions[i]? = some session ∧ session.authorizedPeer = request.peer := by
  obtain ⟨before, u, after, -, -, hafter, -, ⟨granted, hgranted⟩, -⟩ := h
  exact ⟨_, session_of_run hafter hgranted.found, hgranted.peer⟩

theorem Traced.granted (h : Traced server start ls w k request credentials pc)
    (hi : pc.session = some i) : Granted server start k request credentials i ls w := by
  cases pc with
  | apply | gate | waiting | recheck | fetch =>
    obtain rfl := Option.some.inj hi
    exact h
  | finish =>
    obtain rfl := Option.some.inj hi
    exact h.1
  | authorize | revoke | cancelling | sample | admission | counting | lookup | done => cases hi

theorem Traced.answered {answer : Answer}
    (h : Traced server start ls w k request credentials (.done (.ok answer))) :
    (∃ i, Granted server start k request credentials i ls w) ∧ Answered server request answer := h

theorem Update.onInner_eq {u : Update} {j : Nat} (h : u.target ≠ some j) (inner : TransferInner) :
    u.onInner j inner = inner := by
  cases u with
  | control i | cancel i | serve i => exact if_neg fun hi => h (congrArg some hi)
  | deny | replay | beginRead | prune | create => rfl

theorem Step.untouched (h : Step server w l w') {j : Nat}
    (hkeep : ∀ u ∈ l.updates, u.keepsTables = true)
    (hother : ∀ u ∈ l.updates, u.target ≠ some j) : Untouched w w' j := by
  rw [Untouched]
  cases hsession : w.shared.sessions[j]? with
  | some session => rw [h.session hsession, innerAfter_eq fun u hu => Update.onInner_eq (hother u hu)]
  | none =>
    have hlength := List.getElem?_eq_none_iff.mp hsession
    rw [h.shared_eq]
    exact List.getElem?_eq_none (by rwa [Shared.length_foldl _ hkeep])

theorem Step.kept (h : Step server w l w') (hkeep : ∀ u ∈ l.updates, u.keepsTables = true) :
    w'.shared.transfers = w.shared.transfers ∧ w'.shared.beginNonces = w.shared.beginNonces ∧
      w'.shared.sessions.length = w.shared.sessions.length := by
  rw [h.shared_eq]
  have htables := foldl_keepsTables w.shared hkeep
  exact ⟨htables.1, htables.2, Shared.length_foldl _ hkeep⟩

theorem Step.untouched_of_none (h : Step server w (.turn k us) w')
    (hnone : ∀ u ∈ us, u.keepsTables = true ∧ u.target = none) (j : Nat) : Untouched w w' j :=
  h.untouched (fun u hu => (hnone u hu).1) fun u hu => by
    rw [(hnone u hu).2]
    exact fun heq => nomatch heq

theorem Step.only_touches (h : Step server w (.turn k [u]) w') (hkeep : u.keepsTables = true)
    (hi : u.target = some i) {P : Nat → Prop} (hp : P i) (j : Nat) : Untouched w w' j ∨ P j := by
  by_cases hj : i = j
  · exact .inr (hj ▸ hp)
  · refine .inl (h.untouched ?_ ?_)
    · intro v hv
      rwa [List.mem_singleton.mp hv]
    · intro v hv
      rw [List.mem_singleton.mp hv, hi]
      exact fun heq => hj (Option.some.inj heq)

theorem revoked_of_cancel (h : Step server w (.turn k [.cancel i]) w')
    (hfailed : Past (Step server) start (fun _ w => FailedCheck server k request w) ls w)
    {session : TransferSession} (hsession : w.shared.sessions[i]? = some session)
    (hpeer : session.authorizedPeer = request.peer) :
    Revoked server start k request ls w w' i := by
  refine ⟨hfailed, session, hsession, hpeer, ?_⟩
  rw [h.session hsession]
  exact congrArg _ (congrArg _ (if_pos rfl))

theorem turn_touches (hrun : Run (Step server) start ls w)
    (hcall : At k request pc w) (hcredentials : request.credentials = some credentials)
    (ht : Traced server start ls w k request credentials pc) (h : Step server w (.turn k us) w') :
    (∀ u ∈ us, u.keepsTables = true) ∧ ∀ j, Untouched w w' j ∨
      Revoked server start k request ls w w' j ∨
      UsedOwn server start k request credentials ls pc w w' j := by
  obtain ⟨next, hturn, -⟩ := h.turn_cases hcall
  cases hturn.effect with
  | none => exact ⟨by simp, fun j => .inl (h.untouched_of_none (by simp) j)⟩
  | deny | replay | beginRead =>
    exact ⟨by simp [Update.keepsTables], fun j => .inl (h.untouched_of_none
      (by simp [Update.keepsTables, Update.target]) j)⟩
  | prune hfree hpc | pruneReplay hfree hpc =>
    subst hpc
    exact ht.elim
  | create hrequest =>
    subst hrequest
    cases hcredentials
  | control hrequest hpc hsession hnew =>
    subst hrequest hpc
    obtain rfl := Option.some.inj hcredentials
    have hsession' := h.session hsession
    rw [Label.updates, innerAfter, List.foldl_cons, List.foldl_nil, Update.onInner, if_pos rfl]
      at hsession'
    exact ⟨by simp [Update.keepsTables], h.only_touches rfl rfl
      (.inr ⟨rfl, ht, _, _, hsession, .control, hsession'⟩)⟩
  | revoke hpc hi =>
    subst hpc
    obtain ⟨hfailed, hpeers⟩ := ht
    obtain ⟨session, hsession, hpeer⟩ := hpeers _ hi
    exact ⟨by simp [Update.keepsTables], h.only_touches rfl rfl
      (.inl (revoked_of_cancel h hfailed hsession hpeer))⟩
  | refuse hpc hdenied hnext =>
    obtain ⟨session, hsession, hpeer⟩ := (ht.granted (Pc.reading_session hpc)).found
    have hfailed := Past.here hrun (P := fun _ w => FailedCheck server k request w)
      ⟨⟨_, hcall⟩, hdenied⟩
    exact ⟨by simp [Update.keepsTables], h.only_touches rfl rfl
      (.inl (revoked_of_cancel h hfailed hsession hpeer))⟩
  | serve hrequest hpc hsession hallowed hlive hstate hnext =>
    subst hrequest hpc
    obtain rfl := Option.some.inj hcredentials
    have hsession' := h.session hsession
    rw [Label.updates, innerAfter, List.foldl_cons, List.foldl_nil, Update.onInner, if_pos rfl]
      at hsession'
    exact ⟨by simp [Update.keepsTables], h.only_touches rfl rfl
      (.inr ⟨rfl, ht.1, _, _, hsession, .read hallowed hlive hstate, hsession'⟩)⟩

theorem gate_session {peer : CertificateFingerprint} {session : TransferSession}
    (h : server.readRangeGate view peer session i = (us, next)) :
    next.session = some i ∨ next.closing = true := by
  rcases readRangeGate_cases h with ⟨-, -, rfl⟩ | ⟨-, _, rfl⟩ | ⟨-, rfl, -⟩ | ⟨-, rfl, -⟩
  · exact .inr rfl
  · exact .inr rfl
  · exact .inl rfl
  · exact .inl rfl

theorem Turn.session (h : Turn server view free request pc us next)
    (hpc : pc.session = some i ∨ pc.closing = true) :
    next.session = some i ∨ next.closing = true := by
  cases h with
  | authorize | sample | admission | count | create | lookup =>
    rcases hpc with hpc | hpc <;> cases hpc
  | revoke | cancelNext | revoked => exact .inr rfl
  | control hsession h =>
    rcases control_cases h with ⟨-, -, -, rfl⟩ | ⟨-, -, -, rfl⟩ | ⟨-, -, rfl | ⟨-, rfl⟩⟩ <;>
      exact .inr rfl
  | status => exact .inr rfl
  | gate hsession h =>
    obtain hpc | hpc := hpc
    · obtain rfl := Option.some.inj hpc
      exact gate_session h
    · cases hpc
  | wake timedOut hsession h =>
    obtain hpc | hpc := hpc
    · obtain rfl := Option.some.inj hpc
      rcases readRangeWake_cases h with ⟨-, -, rfl⟩ | h
      · exact .inr rfl
      · exact gate_session h
    · cases hpc
  | recheck h =>
    obtain hpc | hpc := hpc
    · rcases ensurePeerAllowed_cases h with ⟨-, -, rfl⟩ | ⟨-, -, rfl⟩
      · exact .inr rfl
      · exact .inl hpc
    · cases hpc
  | fetch attempt hsession h =>
    obtain hpc | hpc := hpc
    · obtain ⟨-, ⟨_, rfl⟩ | ⟨_, _, _, _, -, -, -, rfl⟩⟩ := readRangeFetch_cases h
      · exact .inr rfl
      · exact .inl hpc
    · cases hpc
  | finish hsession h =>
    rcases readRangeFinish_cases h with ⟨-, -, rfl⟩ | ⟨-, _, rfl⟩ | ⟨-, -, -, -, rfl⟩ <;>
      exact .inr rfl

theorem session_fixed (h : Run (Step server) w ls w') (hcall : At k request pc w)
    (hi : pc.session = some i) :
    ∃ next, At k request next w' ∧ (next.session = some i ∨ next.closing = true) := by
  refine h.invariant (I := fun w => ∃ next, At k request next w ∧
    (next.session = some i ∨ next.closing = true)) ?_ ⟨pc, hcall, .inl hi⟩
  rintro v l v' ⟨next, hnext, hsession⟩ hstep
  by_cases hown : ∃ us, l = .turn k us
  · obtain ⟨us, rfl⟩ := hown
    obtain ⟨after, hturn, hafter⟩ := hstep.turn_cases hnext
    exact ⟨after, hafter, hturn.session hsession⟩
  · exact ⟨next, hstep.call_kept hnext fun us hl => hown ⟨us, hl⟩, hsession⟩

theorem session_unique (h : Run (Step server) w ls w') (hcall : At k request pc w)
    (hi : pc.session = some i) {j : Nat} (hnext : At k request next w')
    (hj : next.session = some j) : j = i := by
  obtain ⟨after, hafter, hsession⟩ := session_fixed h hcall hi
  rw [At] at hnext hafter
  rw [hafter] at hnext
  cases hnext
  obtain hsession | hclosing := hsession
  · exact Option.some.inj (hj.symm.trans hsession)
  · cases next with
    | revoke | cancelling | done => cases hj
    | authorize | sample | admission | counting | lookup | apply | gate | waiting | recheck
    | fetch | finish => cases hclosing

theorem authorization_isolates {now : Nat} {trusted : CertificateFingerprint → Bool}
    (hrun : Run (Step server) (World.start now trusted) ls w) (hcall : At k request pc w)
    (hcredentials : request.credentials = some credentials) :
    (∀ answer, pc = .done (.ok answer) →
      (∃ i, Granted server (World.start now trusted) k request credentials i ls w) ∧
        Answered server request answer) ∧
    (∀ us w', Step server w (.turn k us) w' →
      w'.shared.transfers = w.shared.transfers ∧ w'.shared.beginNonces = w.shared.beginNonces ∧
      w'.shared.sessions.length = w.shared.sessions.length ∧
      ∀ j, Untouched w w' j ∨
        Revoked server (World.start now trusted) k request ls w w' j ∨
        UsedOwn server (World.start now trusted) k request credentials ls pc w w' j) ∧
    (¬Past (Step server) (World.start now trusted)
        (fun _ w => FailedCheck server k request w) ls w →
      ∀ us w', Step server w (.turn k us) w' → ∀ j, Untouched w w' j ∨
        UsedOwn server (World.start now trusted) k request credentials ls pc w w' j) ∧
    (∀ ls' w' next i j, Run (Step server) w ls' w' → At k request next w' →
      pc.session = some i → next.session = some j → j = i) := by
  have htraced := traced_of_run hrun hcall hcredentials
  refine ⟨?_, ?_, ?_, ?_⟩
  · rintro answer rfl
    exact htraced.answered
  · intro us w' hstep
    obtain ⟨hkeep, htouches⟩ := turn_touches hrun hcall hcredentials htraced hstep
    obtain ⟨htransfers, hnonces, hlength⟩ := hstep.kept hkeep
    exact ⟨htransfers, hnonces, hlength, htouches⟩
  · intro hpassed us w' hstep j
    obtain ⟨-, htouches⟩ := turn_touches hrun hcall hcredentials htraced hstep
    rcases htouches j with hsame | hrevoked | hused
    · exact .inl hsame
    · exact (hpassed hrevoked.failed).elim
    · exact .inr hused
  · intro ls' w' next i j hrun' hnext hi hj
    exact session_unique hrun' hcall hi hnext hj

def soloFirstRead : Request := .readRange soloPeer (soloSession.credentials 0) 0 5

def soloFirstReadLabels : List Label :=
  soloBeginLabels ++ [.invoke soloFirstRead, .turn 1 [], .turn 1 [.beginRead], .turn 1 [],
    .turn 1 [], .turn 1 [], .turn 1 [.serve 0 0 5]]

theorem soloFirstRead_run : ∃ w status, Run (Step soloServer) soloStart soloFirstReadLabels w ∧
    At 1 soloFirstRead (.done (.ok (.range status [1, 2, 3, 4, 5]))) w :=
  ⟨_, _, soloBegin_run
    |>.snoc (.invoke soloFirstRead)
    |>.snoc (.turn (k := 1) rfl (.authorize rfl))
    |>.snoc (.turn (k := 1) rfl (.lookup (World.serverLockFree_of_all rfl) rfl rfl))
    |>.snoc (.turn (k := 1) rfl (.gate rfl rfl))
    |>.snoc (.turn (k := 1) rfl (.recheck rfl))
    |>.snoc (.turn (k := 1) rfl (.fetch 0 rfl rfl))
    |>.snoc (.turn (k := 1) rfl (.finish rfl rfl)), rfl⟩

theorem authorization_isolates_read : ∃ w status,
    At 1 soloFirstRead (.done (.ok (.range status [1, 2, 3, 4, 5]))) w ∧
    (∃ i, Granted soloServer soloStart 1 soloFirstRead (soloSession.credentials 0) i
      soloFirstReadLabels w) ∧
    Answered soloServer soloFirstRead (.range status [1, 2, 3, 4, 5]) := by
  obtain ⟨w, status, hrun, hdone⟩ := soloFirstRead_run
  obtain ⟨hgranted, -, -, -⟩ := authorization_isolates hrun hdone rfl
  exact ⟨w, status, hdone, hgranted _ rfl⟩

end ClipFerry.Server
