import ClipFerry.Server.ServerLock

namespace ClipFerry.Server

open Protocol Foundation Transition

variable {server : ServerState} {start w w' : World} {l : Label} {ls : List Label} {i k : Nat}
  {request : Request} {credentials : TransferCredentials}

structure Entitled (view : View) (peer : CertificateFingerprint)
    (credentials : TransferCredentials) (i : Nat) (session : TransferSession) : Prop where
  listed : view.shared.transfers.get credentials.transferId = some i
  found : view.shared.sessions[i]? = some session
  live : view.now < session.expiresAt
  peer : session.authorizedPeer = peer
  offerId : session.offerId = credentials.offerId
  fileId : session.fileId = credentials.fileId
  capability : session.capability = credentials.capability
  serverNonce : session.serverNonce = credentials.serverNonce

def At (k : Nat) (request : Request) (pc : Pc) (w : World) : Prop :=
  w.calls[k]? = some ⟨request, pc⟩

def PassedCheck (server : ServerState) (k : Nat) (request : Request) (w : World) : Prop :=
  At k request .authorize w ∧ server.peerIsAllowed w.toView request.peer = true

def FailedCheck (server : ServerState) (k : Nat) (request : Request) (w : World) : Prop :=
  (∃ pc, At k request pc w) ∧ server.peerIsAllowed w.toView request.peer = false

def Granted (server : ServerState) (start : World) (k : Nat) (request : Request)
    (credentials : TransferCredentials) (i : Nat) : List Label → World → Prop :=
  Past (Step server) start fun ls w =>
    At k request .lookup w ∧ (∃ session, Entitled w.toView request.peer credentials i session) ∧
      Past (Step server) start (fun _ w => PassedCheck server k request w) ls w

structure FromSource (server : ServerState) (fileId : ProtocolId) (offset requested read : Nat)
    (bytes : List UInt8) (source : ReadAtSource) (entry : OfferManifestEntry) : Prop where
  registered : server.offered.source fileId = some source
  described : server.offered.manifestEntry fileId = some entry
  outcome : ∃ attempt buffer, source.readAt attempt offset
    (min (entry.descriptor.size.toNat - offset) requested) = .ok (read, buffer) ∧
      bytes = buffer.val.take read

def ReadBy (server : ServerState) (request : Request) (read : Nat) (bytes : List UInt8) : Prop :=
  ∃ peer credentials offset requested source entry,
    request = .readRange peer credentials offset requested ∧
      FromSource server credentials.fileId offset requested read bytes source entry

def Answered (server : ServerState) (request : Request) : Answer → Prop
  | .range status bytes =>
    (status.state = .paused ∧ bytes = []) ∨ ∃ read, ReadBy server request read bytes
  | _ => True

def PeerSessions (shared : Shared) (peer : CertificateFingerprint) (todo : List Nat) : Prop :=
  ∀ i ∈ todo, ∃ session, shared.sessions[i]? = some session ∧ session.authorizedPeer = peer

def Traced (server : ServerState) (start : World) (ls : List Label) (w : World) (k : Nat)
    (request : Request) (credentials : TransferCredentials) : Pc → Prop
  | .lookup => Past (Step server) start (fun _ w => PassedCheck server k request w) ls w
  | .apply i | .gate i | .waiting i | .recheck i | .fetch i =>
    Granted server start k request credentials i ls w
  | .finish i read bytes =>
    Granted server start k request credentials i ls w ∧ ReadBy server request read bytes
  | .revoke => Past (Step server) start (fun _ w => FailedCheck server k request w) ls w
  | .cancelling todo =>
    Past (Step server) start (fun _ w => FailedCheck server k request w) ls w ∧
      PeerSessions w.shared request.peer todo
  | .done (.ok answer) =>
    (∃ i, Granted server start k request credentials i ls w) ∧ Answered server request answer
  | .done (.error _) | .authorize => True
  | .sample | .admission _ | .counting _ _ _ => False

theorem Entitled.matches {view : View} {peer : CertificateFingerprint} {session : TransferSession}
    (hi : view.shared.transfers.get credentials.transferId = some i)
    (hsession : view.shared.sessions[i]? = some session) (hlive : view.now < session.expiresAt)
    (h : session.matchesCredentials peer credentials = true) :
    Entitled view peer credentials i session := by
  simp only [TransferSession.matchesCredentials, Bool.and_eq_true, decide_eq_true_eq] at h
  obtain ⟨⟨⟨⟨hpeer, hoffer⟩, hfile⟩, hcapability⟩, hnonce⟩ := h
  exact ⟨hi, hsession, hlive, hpeer, hoffer, hfile, hcapability, hnonce⟩

theorem Granted.session (h : Granted server start k request credentials i ls w)
    {session : TransferSession} (hsession : w.shared.sessions[i]? = some session) :
    session.authorizedPeer = request.peer ∧ session.fileId = credentials.fileId := by
  obtain ⟨before, u, after, -, -, hafter, -, ⟨granted, hgranted⟩, -⟩ := h
  rw [session_of_run hafter hgranted.found] at hsession
  obtain rfl := Option.some.inj hsession
  exact ⟨hgranted.peer, hgranted.fileId⟩

theorem peerTransfers_sessions (shared : Shared) (peer : CertificateFingerprint) :
    PeerSessions shared peer (ServerState.peerTransfers shared peer) := by
  intro i hi
  obtain ⟨-, hpeer⟩ := List.mem_filter.mp hi
  cases hsession : shared.sessions[i]? with
  | none =>
    rw [hsession] at hpeer
    cases hpeer
  | some session =>
    rw [hsession] at hpeer
    exact ⟨session, rfl, of_decide_eq_true hpeer⟩

theorem PeerSessions.step (h : Step server w l w') {peer : CertificateFingerprint}
    {todo : List Nat} (hpeer : PeerSessions w.shared peer todo) :
    PeerSessions w'.shared peer todo := by
  intro i hi
  obtain ⟨session, hsession, heq⟩ := hpeer i hi
  exact ⟨_, h.session hsession, heq⟩

theorem Traced.extend {pc : Pc} (h : Traced server start ls w k request credentials pc)
    (hstep : Step server w l w') : Traced server start (ls ++ [l]) w' k request credentials pc := by
  have hsingle := Run.single hstep
  cases pc with
  | lookup | apply | gate | waiting | recheck | fetch | revoke => exact Past.extend h hsingle
  | finish i read bytes => exact ⟨Past.extend h.1 hsingle, h.2⟩
  | cancelling todo => exact ⟨Past.extend h.1 hsingle, h.2.step hstep⟩
  | done result =>
    cases result with
    | error status => trivial
    | ok answer =>
      obtain ⟨⟨i, hgranted⟩, hanswer⟩ := h
      exact ⟨⟨i, Past.extend hgranted hsingle⟩, hanswer⟩
  | authorize => trivial
  | sample | admission | counting => exact h

theorem traced_authorized (hcredentials : request.credentials = some credentials)
    (h : Past (Step server) start (fun _ w => PassedCheck server k request w) ls w) :
    Traced server start ls w k request credentials request.authorized := by
  cases request with
  | connect | beginTransfer => cases hcredentials
  | control | status | readRange => exact h

theorem traced_authenticated {us : List Update} {next : Pc}
    (h : Granted server start k request credentials i ls w)
    (hnext : request.authenticated i = (us, next)) :
    Traced server start ls w k request credentials next := by
  rcases authenticated_cases hnext with ⟨-, rfl, -⟩ | ⟨-, rfl⟩ <;> exact h

theorem traced_gate {peer : CertificateFingerprint} {session : TransferSession}
    {us : List Update} {next : Pc} {view : View}
    (h : Granted server start k request credentials i ls w)
    (hnext : server.readRangeGate view peer session i = (us, next)) :
    Traced server start ls w k request credentials next := by
  rcases readRangeGate_cases hnext with ⟨-, -, rfl⟩ | ⟨-, _, rfl⟩ | ⟨-, rfl, -⟩ | ⟨-, rfl, -⟩
  · trivial
  · trivial
  · exact h
  · exact h

theorem Turn.traced (hrun : Run (Step server) start ls w) {pc next : Pc} {us : List Update}
    (hcall : At k request pc w) (hcredentials : request.credentials = some credentials)
    (ht : Traced server start ls w k request credentials pc)
    (h : Turn server w.toView w.ServerLockFree request pc us next) :
    Traced server start ls w k request credentials next := by
  cases h with
  | authorize h =>
    rcases ensurePeerAllowed_cases h with ⟨hdenied, -, rfl⟩ | ⟨hallowed, -, rfl⟩
    · exact .here hrun ⟨⟨_, hcall⟩, hdenied⟩
    · exact traced_authorized hcredentials (.here hrun ⟨hcall, hallowed⟩)
  | revoke hfree => exact ⟨ht, peerTransfers_sessions _ _⟩
  | cancelNext hi => exact ⟨ht.1, fun j hj => ht.2 j (List.mem_of_mem_erase hj)⟩
  | revoked => trivial
  | sample | admission | count | create => exact ht.elim
  | lookup hfree hsame h =>
    rw [hcredentials] at hsame
    obtain rfl := Option.some.inj hsame
    rcases authenticatedSession_cases h with ⟨-, _, rfl, -⟩ | ⟨i, session, hi, hsession, hlive,
      hmatches, hnext⟩
    · trivial
    · have hentitled := Entitled.matches hi hsession hlive hmatches
      exact traced_authenticated (.here hrun ⟨hcall, ⟨session, hentitled⟩, ht⟩) hnext
  | control hsession h =>
    rcases control_cases h with ⟨-, -, -, rfl⟩ | ⟨-, -, -, rfl⟩ | ⟨-, -, rfl | ⟨-, rfl⟩⟩
    · exact ⟨⟨_, ht⟩, trivial⟩
    · trivial
    · exact ⟨⟨_, ht⟩, trivial⟩
    · trivial
  | status hsession => exact ⟨⟨_, ht⟩, trivial⟩
  | gate hsession h => exact traced_gate ht h
  | wake timedOut hsession h =>
    rcases readRangeWake_cases h with ⟨-, hpaused, rfl⟩ | h
    · exact ⟨⟨_, ht⟩, .inl ⟨hpaused, rfl⟩⟩
    · exact traced_gate ht h
  | recheck h =>
    rcases ensurePeerAllowed_cases h with ⟨hdenied, -, rfl⟩ | ⟨-, -, rfl⟩
    · exact .here hrun ⟨⟨_, hcall⟩, hdenied⟩
    · exact ht
  | fetch attempt hsession h =>
    obtain ⟨-, ⟨_, rfl⟩ | ⟨source, entry, read, buffer, hsource, hentry, hread, rfl⟩⟩ :=
      readRangeFetch_cases h
    · trivial
    · have hfile := (Granted.session ht hsession).2
      obtain rfl := Option.some.inj hcredentials
      refine ⟨ht, _, _, _, _, source, entry, rfl, ?_⟩
      rw [hfile] at hsource hentry
      exact ⟨hsource, hentry, attempt, buffer, hread, rfl⟩
  | finish hsession h =>
    rcases readRangeFinish_cases h with ⟨-, -, rfl⟩ | ⟨-, _, rfl⟩ | ⟨-, -, -, -, rfl⟩
    · trivial
    · trivial
    · exact ⟨⟨_, ht.1⟩, .inr ⟨_, ht.2⟩⟩

theorem traced_entry (hcredentials : request.credentials = some credentials) :
    Traced server start ls w k request credentials request.entry := by
  cases request with
  | connect | beginTransfer => cases hcredentials
  | control | status => trivial
  | readRange peer credentials offset requested =>
    rw [Request.entry]
    split <;> trivial

theorem traced_of_run {now : Nat} {trusted : CertificateFingerprint → Bool}
    (h : Run (Step server) (World.start now trusted) ls w) {pc : Pc}
    (hcall : At k request pc w) (hcredentials : request.credentials = some credentials) :
    Traced server (World.start now trusted) ls w k request credentials pc := by
  revert pc
  refine h.traced (I := fun ls w => ∀ {pc}, At k request pc w →
    Traced server (World.start now trusted) ls w k request credentials pc) ?_ ?_
  · intro pc hcall
    cases hcall
  · intro l t a u hrun ih hstep pc hcall
    rcases hstep.call_cases hcall with ⟨hsame, -⟩ | ⟨-, request', -, heq⟩ |
      ⟨before, us, next, rfl, hbefore, hturn, heq⟩
    · exact (ih hsame).extend hstep
    · cases heq
      exact traced_entry hcredentials
    · obtain ⟨request', pc'⟩ := before
      cases heq
      exact (Turn.traced hrun hbefore hcredentials (ih hbefore) hturn).extend hstep

def Request.Suits : Request → Answer → Prop
  | .connect _, .connected | .beginTransfer _ _ _ _, .began _ | .control _ _ _ _, .status _
  | .status _ _, .status _ | .readRange _ _ _ _, .range _ _ => True
  | _, _ => False

theorem Turn.suits {view : View} {free : Prop} {pc : Pc} {us : List Update} {answer : Answer}
    (h : Turn server view free request pc us (.done (.ok answer))) : request.Suits answer := by
  generalize hnext : Pc.done (.ok answer) = next at h
  cases h with
  | authorize h =>
    rcases ensurePeerAllowed_cases h with ⟨-, -, rfl⟩ | ⟨-, -, rfl⟩
    · cases hnext
    · cases request <;> cases hnext
      trivial
  | revoke | cancelNext | revoked | count => cases hnext
  | sample h =>
    rcases beginSample_cases h with ⟨-, rfl⟩ | ⟨-, rfl⟩ | ⟨-, rfl, -⟩ <;> cases hnext
  | admission hfree h =>
    rcases beginAdmit_cases h with ⟨_, -, ⟨_, -, -, rfl⟩ | ⟨-, -, rfl⟩⟩ | ⟨-, -, rfl⟩ <;>
      cases hnext
    trivial
  | create drawn h =>
    rcases beginCreate_cases h with ⟨-, _, rfl⟩ | ⟨_, _, _, _, -, -, -, -, -, -, rfl⟩ <;>
      cases hnext
    trivial
  | lookup hfree hcredentials h =>
    rcases authenticatedSession_cases h with ⟨-, _, rfl, -⟩ | ⟨i, session, -, -, -, -, h⟩
    · cases hnext
    · rcases authenticated_cases h with ⟨-, rfl, -⟩ | ⟨-, rfl⟩ <;> cases hnext
  | control hsession h =>
    rcases control_cases h with ⟨-, -, -, rfl⟩ | ⟨-, -, -, rfl⟩ | ⟨-, -, rfl | ⟨-, rfl⟩⟩ <;>
      cases hnext <;> trivial
  | status hsession =>
    cases hnext
    trivial
  | gate hsession h =>
    rcases readRangeGate_cases h with ⟨-, -, rfl⟩ | ⟨-, _, rfl⟩ | ⟨-, rfl, -⟩ | ⟨-, rfl, -⟩ <;>
      cases hnext
  | wake timedOut hsession h =>
    rcases readRangeWake_cases h with ⟨-, -, rfl⟩ | h
    · cases hnext
      trivial
    · rcases readRangeGate_cases h with ⟨-, -, rfl⟩ | ⟨-, _, rfl⟩ | ⟨-, rfl, -⟩ | ⟨-, rfl, -⟩ <;>
        cases hnext
  | recheck h =>
    rcases ensurePeerAllowed_cases h with ⟨-, -, rfl⟩ | ⟨-, -, rfl⟩ <;> cases hnext
  | fetch attempt hsession h =>
    obtain ⟨-, ⟨_, rfl⟩ | ⟨_, _, _, _, -, -, -, rfl⟩⟩ := readRangeFetch_cases h <;> cases hnext
  | finish hsession h =>
    rcases readRangeFinish_cases h with ⟨-, -, rfl⟩ | ⟨-, _, rfl⟩ | ⟨-, -, -, -, rfl⟩ <;>
      cases hnext
    trivial

theorem answered_cases {s t : World} {l : Label} {answer : Answer} (hstep : Step server s l t)
    (hdone : At k request (.done (.ok answer)) t) : At k request (.done (.ok answer)) s ∨
      ∃ pc us, Turn server s.toView s.ServerLockFree request pc us (.done (.ok answer)) := by
  rcases hstep.call_cases hdone with ⟨hsame, -⟩ | ⟨-, request', -, heq⟩ |
    ⟨before, us, next, -, -, hturn, heq⟩
  · exact .inl hsame
  · obtain ⟨rfl, hentry⟩ := Call.mk.inj heq
    cases request with
    | readRange peer credentials offset requested =>
      rw [Request.entry] at hentry
      split at hentry <;> cases hentry
    | connect | beginTransfer | control | status => cases hentry
  · obtain ⟨request', pc⟩ := before
    cases heq
    exact .inr ⟨pc, us, hturn⟩

theorem suits_of_run {now : Nat} {trusted : CertificateFingerprint → Bool}
    (h : Run (Step server) (World.start now trusted) ls w) {answer : Answer}
    (hdone : At k request (.done (.ok answer)) w) : request.Suits answer := by
  revert hdone
  refine h.invariant (I := fun w => At k request (.done (.ok answer)) w → request.Suits answer)
    ?_ fun hdone => by cases hdone
  intro s a t ih hstep hdone
  rcases answered_cases hstep hdone with hsame | ⟨pc, us, hturn⟩
  · exact ih hsame
  · exact hturn.suits

end ClipFerry.Server
