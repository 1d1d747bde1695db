import ClipFerry.Server.World

namespace ClipFerry.Server

open Protocol Foundation Transition

variable {server : ServerState} {view : View} {free : Prop} {request : Request} {pc next : Pc}
  {us : List Update}

def Pc.reading (i : Nat) : Pc → Prop
  | .gate j | .waiting j | .finish j _ _ => j = i
  | _ => False

inductive Effect (server : ServerState) (view : View) (free : Prop) (request : Request)
    (pc next : Pc) : List Update → Prop
  | none : Effect server view free request pc next []
  | deny : Effect server view free request pc next [.deny]
  | replay : Effect server view free request pc next [.replay]
  | beginRead : Effect server view free request pc next [.beginRead]
  | prune {now : Nat} (hfree : free) (hpc : pc = .admission now) :
      Effect server view free request pc next [.prune now]
  | pruneReplay {now : Nat} (hfree : free) (hpc : pc = .admission now) :
      Effect server view free request pc next [.prune now, .replay]
  | create {peer : CertificateFingerprint} {offerId fileId transferId : ProtocolId}
      {nonce capability serverNonce : Secret} {now active expiresAt : Nat}
      (hrequest : request = .beginTransfer peer offerId fileId nonce)
      (hpc : pc = .counting now [] active) (hactive : active < maxActiveTransfers)
      (htransfers : view.shared.transfers.len < maxBeginNonces)
      (hnonces : view.shared.beginNonces.len < maxBeginNonces)
      (hexpires : checkedAddInstant now server.transferTtl = some expiresAt)
      (hnext : next = .done (.ok (.began (TransferSession.credentials
        ⟨peer, offerId, fileId, transferId, capability, serverNonce, expiresAt, .fresh⟩
        view.now)))) :
      Effect server view free request pc next [.create nonce
        ⟨peer, offerId, fileId, transferId, capability, serverNonce, expiresAt, .fresh⟩]
  | control {peer : CertificateFingerprint} {credentials : TransferCredentials}
      {sequence i : Nat} {opcode : Opcode} {session : TransferSession}
      (hrequest : request = .control peer credentials sequence opcode) (hpc : pc = .apply i)
      (hsession : view.shared.sessions[i]? = some session)
      (hnew : session.inner.lastControlSequence < sequence) :
      Effect server view free request pc next [.control i sequence opcode]
  | revoke {todo : List Nat} {i : Nat} (hpc : pc = .cancelling todo) (hi : i ∈ todo) :
      Effect server view free request pc next [.cancel i]
  | refuse {i : Nat} (hpc : pc.reading i)
      (hdenied : server.peerIsAllowed view request.peer = false)
      (hnext : next = .done (.error .denied)) :
      Effect server view free request pc next [.cancel i]
  | serve {peer : CertificateFingerprint} {credentials : TransferCredentials}
      {offset requested i read : Nat} {bytes : List UInt8} {session : TransferSession}
      (hrequest : request = .readRange peer credentials offset requested)
      (hpc : pc = .finish i read bytes) (hsession : view.shared.sessions[i]? = some session)
      (hallowed : server.peerIsAllowed view peer = true)
      (hlive : view.now < session.expiresAt) (hstate : session.inner.state ≠ .cancelled)
      (hnext : next = .done (.ok (.range (session.inner.serve offset read).status bytes))) :
      Effect server view free request pc next [.serve i offset read]

theorem ensurePeerAllowed_cases {peer : CertificateFingerprint} {allowed : Pc}
    (h : server.ensurePeerAllowed view peer allowed = (us, next)) :
    (server.peerIsAllowed view peer = false ∧ us = [.deny] ∧ next = .revoke) ∨
    (server.peerIsAllowed view peer = true ∧ us = [] ∧ next = allowed) := by
  rw [ServerState.ensurePeerAllowed] at h
  split at h
  · rename_i hdenied
    cases h
    exact .inl ⟨hdenied, rfl, rfl⟩
  · rename_i hallowed
    cases h
    exact .inr ⟨by simpa using hallowed, rfl, rfl⟩

theorem beginSample_cases {offerId fileId : ProtocolId}
    (h : server.beginSample view offerId fileId = (us, next)) :
    (us = [] ∧ next = .done (.error .expired)) ∨ (us = [.deny] ∧ next = .done (.error .denied)) ∨
    (us = [] ∧ next = .admission view.now ∧ offerId = server.offered.storedManifest.offerId) := by
  rw [ServerState.beginSample] at h
  split at h
  · cases h
    exact .inl ⟨rfl, rfl⟩
  · rename_i hoffer
    split at h
    · cases h
      exact .inr (.inl ⟨rfl, rfl⟩)
    · cases h
      exact .inr (.inr ⟨rfl, rfl, not_not.mp (not_or.mp hoffer).1⟩)

theorem beginAdmit_cases {peer : CertificateFingerprint} {offerId fileId : ProtocolId}
    {nonce : Secret} {now : Nat}
    (h : ServerState.beginAdmit view peer offerId fileId nonce now = (us, next)) :
    (∃ record, (view.shared.prune now).beginNonces.get nonce = some record ∧
      ((∃ session, ServerState.recordedSession (view.shared.prune now) peer offerId fileId record =
            some session ∧ us = [.prune now] ∧
          next = .done (.ok (.began (session.credentials view.now)))) ∨
        (ServerState.recordedSession (view.shared.prune now) peer offerId fileId record = none ∧
          us = [.prune now, .replay] ∧ next = .done (.error .replay)))) ∨
    ((view.shared.prune now).beginNonces.get nonce = none ∧ us = [.prune now] ∧
      next = .counting now (view.shared.prune now).transfers.values 0) := by
  rw [ServerState.beginAdmit] at h
  split at h
  · rename_i record hrecord
    split at h
    · rename_i session hsession
      cases h
      exact .inl ⟨record, hrecord, .inl ⟨session, hsession, rfl, rfl⟩⟩
    · rename_i hnone
      cases h
      exact .inl ⟨record, hrecord, .inr ⟨hnone, rfl, rfl⟩⟩
  · rename_i hnone
    cases h
    exact .inr ⟨hnone, rfl, rfl⟩

theorem authenticatedSession_cases {credentials : TransferCredentials}
    (h : ServerState.authenticatedSession view request credentials = (us, next)) :
    ((us = [] ∨ us = [.deny]) ∧ ∃ status, next = .done (.error status) ∧
      (status = .denied ∨ status = .expired)) ∨
    (∃ i session, view.shared.transfers.get credentials.transferId = some i ∧
      view.shared.sessions[i]? = some session ∧ view.now < session.expiresAt ∧
      session.matchesCredentials request.peer credentials = true ∧
      request.authenticated i = (us, next)) := by
  rw [ServerState.authenticatedSession] at h
  split at h
  · cases h
    exact .inl ⟨.inr rfl, _, rfl, .inl rfl⟩
  · rename_i i hi
    split at h
    · cases h
      exact .inl ⟨.inr rfl, _, rfl, .inl rfl⟩
    · rename_i session hsession
      split at h
      · cases h
        exact .inl ⟨.inl rfl, _, rfl, .inr rfl⟩
      · rename_i hlive
        split at h
        · cases h
          exact .inl ⟨.inr rfl, _, rfl, .inl rfl⟩
        · rename_i hmatches
          exact .inr ⟨i, session, hi, hsession, Nat.lt_of_not_le hlive, by simpa using hmatches, h⟩

theorem authenticated_cases {i : Nat} (h : request.authenticated i = (us, next)) :
    (us = [.beginRead] ∧ next = .gate i ∧ ∃ peer credentials offset requested,
      request = .readRange peer credentials offset requested) ∨ (us = [] ∧ next = .apply i) := by
  cases request with
  | readRange peer credentials offset requested =>
    cases h
    exact .inl ⟨rfl, rfl, _, _, _, _, rfl⟩
  | connect | beginTransfer | control | status =>
    cases h
    exact .inr ⟨rfl, rfl⟩

theorem control_cases {session : TransferSession} {i sequence : Nat} {opcode : Opcode}
    (h : ServerState.control session i sequence opcode = (us, next)) :
    (sequence = session.inner.lastControlSequence ∧
      session.inner.lastControlOpcode = some opcode ∧ us = [] ∧
      next = .done (.ok (.status session.inner.status))) ∨
    (sequence ≤ session.inner.lastControlSequence ∧ us = [.replay] ∧
      ¬(sequence = session.inner.lastControlSequence ∧
        session.inner.lastControlOpcode = some opcode) ∧ next = .done (.error .replay)) ∨
    (session.inner.lastControlSequence < sequence ∧ us = [.control i sequence opcode] ∧
      (next = .done (.ok (.status (session.inner.accept sequence opcode).status)) ∨
        (opcode.isControl = false ∧ next = .done (.error .invalid)))) := by
  unfold ServerState.control at h
  split at h
  · rename_i hsame
    cases h
    exact .inl ⟨hsame.1, hsame.2, rfl, rfl⟩
  · rename_i hother
    split at h
    · rename_i hle
      cases h
      exact .inr (.inl ⟨hle, rfl, hother, rfl⟩)
    · rename_i hlt
      refine .inr (.inr ⟨Nat.lt_of_not_le hlt, ?_⟩)
      cases opcode with
      | pause | resume | cancel | complete =>
        cases h
        exact ⟨rfl, .inl rfl⟩
      | hello | getOffer | beginTransfer | readRange | status =>
        cases h
        exact ⟨rfl, .inr ⟨rfl, rfl⟩⟩

theorem readRangeGate_cases {peer : CertificateFingerprint} {session : TransferSession} {i : Nat}
    (h : server.readRangeGate view peer session i = (us, next)) :
    (us = [.cancel i] ∧ server.peerIsAllowed view peer = false ∧
      next = .done (.error .denied)) ∨
    (us = [] ∧ ∃ status, next = .done (.error status)) ∨
    (us = [] ∧ next = .waiting i ∧ session.inner.state = .paused) ∨
    (us = [] ∧ next = .recheck i ∧ session.inner.state ≠ .paused ∧
      session.inner.state ≠ .cancelled) := by
  rw [ServerState.readRangeGate] at h
  split at h
  · rename_i hpaused
    split at h
    · rename_i hdenied
      cases h
      exact .inl ⟨rfl, hdenied, rfl⟩
    · split at h
      · cases h
        exact .inr (.inl ⟨rfl, _, rfl⟩)
      · cases h
        exact .inr (.inr (.inl ⟨rfl, rfl, hpaused⟩))
  · rename_i hpaused
    split at h
    · cases h
      exact .inr (.inl ⟨rfl, _, rfl⟩)
    · split at h
      · cases h
        exact .inr (.inl ⟨rfl, _, rfl⟩)
      · rename_i hcancelled
        cases h
        exact .inr (.inr (.inr ⟨rfl, rfl, hpaused, hcancelled⟩))

theorem readRangeWake_cases {peer : CertificateFingerprint} {session : TransferSession} {i : Nat}
    {timedOut : Bool} (h : server.readRangeWake view peer session i timedOut = (us, next)) :
    (us = [] ∧ session.inner.state = .paused ∧ next = .done (.ok (.range session.inner.status []))) ∨
    server.readRangeGate view peer session i = (us, next) := by
  rw [ServerState.readRangeWake] at h
  split at h
  · rename_i hpaused
    cases h
    exact .inl ⟨rfl, hpaused.2, by rw [TransferInner.status, hpaused.2]⟩
  · exact .inr h

theorem readRangeFetch_cases {fileId : ProtocolId} {i offset requested attempt : Nat}
    (h : server.readRangeFetch fileId i offset requested attempt = (us, next)) :
    us = [] ∧ ((∃ status, next = .done (.error status)) ∨
      ∃ source entry read buffer, server.offered.source fileId = some source ∧
        server.offered.manifestEntry fileId = some entry ∧
        source.readAt attempt offset (min (entry.descriptor.size.toNat - offset) requested) =
          .ok (read, buffer) ∧ next = .finish i read (buffer.val.take read)) := by
  rw [ServerState.readRangeFetch] at h
  split at h
  · rename_i source entry hsource hentry
    dsimp only at h
    split at h
    · cases h
      exact ⟨rfl, .inl ⟨_, rfl⟩⟩
    · rename_i read buffer hread
      cases h
      exact ⟨rfl, .inr ⟨source, entry, read, buffer, hsource, hentry, hread, rfl⟩⟩
  · cases h
    exact ⟨rfl, .inl ⟨_, rfl⟩⟩

theorem readRangeFinish_cases {peer : CertificateFingerprint} {session : TransferSession}
    {i offset read : Nat} {bytes : List UInt8}
    (h : server.readRangeFinish view peer session i offset read bytes = (us, next)) :
    (us = [.cancel i] ∧ server.peerIsAllowed view peer = false ∧
      next = .done (.error .denied)) ∨
    (us = [] ∧ ∃ status, next = .done (.error status)) ∨
    (us = [.serve i offset read] ∧ server.peerIsAllowed view peer = true ∧
      view.now < session.expiresAt ∧ session.inner.state ≠ .cancelled ∧
      next = .done (.ok (.range (session.inner.serve offset read).status bytes))) := by
  rw [ServerState.readRangeFinish] at h
  split at h
  · rename_i hdenied
    cases h
    exact .inl ⟨rfl, hdenied, rfl⟩
  · rename_i hallowed
    split at h
    · cases h
      exact .inr (.inl ⟨rfl, _, rfl⟩)
    · rename_i hlive
      split at h
      · cases h
        exact .inr (.inl ⟨rfl, _, rfl⟩)
      · rename_i hstate
        cases h
        exact .inr (.inr ⟨rfl, by simpa using hallowed, Nat.lt_of_not_le hlive, hstate, rfl⟩)

theorem beginCreate_cases {peer : CertificateFingerprint} {offerId fileId : ProtocolId}
    {nonce : Secret} {now active : Nat} {drawn : Option (ProtocolId × Secret × Secret)}
    (h : server.beginCreate view peer offerId fileId nonce now active drawn = (us, next)) :
    (us = [] ∧ ∃ status, next = .done (.error status)) ∨
    ∃ transferId capability serverNonce expiresAt,
      drawn = some (transferId, capability, serverNonce) ∧ active < maxActiveTransfers ∧
      view.shared.transfers.len < maxBeginNonces ∧
      view.shared.beginNonces.len < maxBeginNonces ∧
      checkedAddInstant now server.transferTtl = some expiresAt ∧
      us = [.create nonce
        ⟨peer, offerId, fileId, transferId, capability, serverNonce, expiresAt, .fresh⟩] ∧
      next = .done (.ok (.began (TransferSession.credentials
        ⟨peer, offerId, fileId, transferId, capability, serverNonce, expiresAt, .fresh⟩
        view.now))) := by
  unfold ServerState.beginCreate at h
  split at h
  · cases h
    exact .inl ⟨rfl, _, rfl⟩
  · rename_i hroom
    simp only [not_or, Nat.not_le] at hroom
    split at h
    · rename_i transferId capability serverNonce expiresAt hexpires
      cases h
      exact .inr ⟨transferId, capability, serverNonce, expiresAt, rfl, hroom.1, hroom.2.1,
        hroom.2.2, hexpires, rfl, rfl⟩
    · cases h
      exact .inl ⟨rfl, _, rfl⟩

theorem readRangeGate_effect {peer : CertificateFingerprint} {credentials : TransferCredentials}
    {offset requested i : Nat} {session : TransferSession} (hpc : pc.reading i)
    (h : server.readRangeGate view peer session i = (us, next)) :
    Effect server view free (.readRange peer credentials offset requested) pc next us := by
  rcases readRangeGate_cases h with ⟨rfl, hdenied, hnext⟩ | ⟨rfl, -⟩ | ⟨rfl, -⟩ | ⟨rfl, -⟩
  · exact .refuse hpc hdenied hnext
  · exact .none
  · exact .none
  · exact .none

theorem Turn.effect (h : Turn server view free request pc us next) :
    Effect server view free request pc next us := by
  cases h with
  | authorize h | recheck h =>
    rcases ensurePeerAllowed_cases h with ⟨-, rfl, -⟩ | ⟨-, rfl, -⟩
    · exact .deny
    · exact .none
  | revoke | revoked | count | status => exact .none
  | cancelNext hi => exact .revoke rfl hi
  | sample h =>
    rcases beginSample_cases h with ⟨rfl, -⟩ | ⟨rfl, -⟩ | ⟨rfl, -⟩
    · exact .none
    · exact .deny
    · exact .none
  | admission hfree h =>
    rcases beginAdmit_cases h with ⟨_, -, ⟨_, -, rfl, -⟩ | ⟨-, rfl, -⟩⟩ | ⟨-, rfl, -⟩
    · exact .prune hfree rfl
    · exact .pruneReplay hfree rfl
    · exact .prune hfree rfl
  | create drawn h =>
    rcases beginCreate_cases h with ⟨rfl, -⟩ |
      ⟨_, _, _, _, -, hactive, htransfers, hnonces, hexpires, rfl, hnext⟩
    · exact .none
    · exact .create rfl rfl hactive htransfers hnonces hexpires hnext
  | lookup _ _ h =>
    rcases authenticatedSession_cases h with ⟨rfl | rfl, -⟩ | ⟨i, session, -, -, -, -, h⟩
    · exact .none
    · exact .deny
    · rcases authenticated_cases h with ⟨rfl, -⟩ | ⟨rfl, -⟩
      · exact .beginRead
      · exact .none
  | control hsession h =>
    rcases control_cases h with ⟨-, -, rfl, -⟩ | ⟨-, rfl, -⟩ | ⟨hnew, rfl, -⟩
    · exact .none
    · exact .replay
    · exact .control rfl rfl hsession hnew
  | gate hsession h => exact readRangeGate_effect rfl h
  | wake timedOut hsession h =>
    rcases readRangeWake_cases h with ⟨rfl, -⟩ | h
    · exact .none
    · exact readRangeGate_effect rfl h
  | fetch attempt hsession h =>
    obtain ⟨rfl, -⟩ := readRangeFetch_cases h
    exact .none
  | finish hsession h =>
    rcases readRangeFinish_cases h with ⟨rfl, hdenied, hnext⟩ | ⟨rfl, -⟩ |
      ⟨rfl, hallowed, hlive, hstate, hnext⟩
    · exact .refuse rfl hdenied hnext
    · exact .none
    · exact .serve rfl rfl hsession hallowed hlive hstate hnext

end ClipFerry.Server
