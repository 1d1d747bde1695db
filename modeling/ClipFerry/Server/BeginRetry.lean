import ClipFerry.Server.NonceTable

namespace ClipFerry.Server

open Protocol Foundation Transition

variable {server : ServerState} {start w w' : World} {l : Label} {ls : List Label} {k : Nat}
  {nonce : Secret} {view : View} {free : Prop} {request : Request} {pc next : Pc}
  {us : List Update} {now : Nat}

def Pc.sampled : Pc → Option Nat
  | .admission now | .counting now _ _ => some now
  | _ => none

def Request.beginNonce : Request → Option Secret
  | .beginTransfer _ _ _ nonce => some nonce
  | _ => none

def creates (nonce : Secret) : Update → Bool
  | .create other _ => other = nonce
  | _ => false

/-! The identity that a retry must find again: everything but the remaining time to live. -/

def SameTransfer (credentials other : TransferCredentials) : Prop :=
  { credentials with expiresAtMillis := 0 } = { other with expiresAtMillis := 0 }

theorem Pc.sampled_of_plain (h : pc.plain = true) : pc.sampled = none := by
  cases pc <;> first | rfl | cases h

theorem Turn.sampled (h : Turn server view free request pc us next)
    (hnext : next.sampled = some now) : pc.sampled = some now ∨ now = view.now := by
  rcases h.plain_cases with hplain | rfl | ⟨-, -, -, rfl⟩ | ⟨_, _, -, -, -, rfl⟩ |
    ⟨-, _, _, _, _, _, -, rfl, -, -, rfl⟩ | ⟨_, _, _, _, -, rfl, -, rfl⟩
  · cases (Pc.sampled_of_plain hplain).symm.trans hnext
  · exact .inr (Option.some.inj hnext).symm
  · cases hnext
  · cases hnext
  · exact .inl hnext
  · exact .inl hnext

def SampledSince (since : Nat) (nonce : Secret) (w : World) : Prop :=
  ∀ (k : Nat) request pc now, w.calls[k]? = some ⟨request, pc⟩ → pc.sampled = some now →
    now ≤ w.now ∧ (request.beginNonce = some nonce → since ≤ now)

theorem SampledSince.step {since : Nat} (h : SampledSince since nonce w) (hsince : since ≤ w.now)
    (hstep : Step server w l w') : SampledSince since nonce w' := by
  intro k request pc now hcall hsampled
  rcases hstep.call_cases hcall with ⟨hsame, -⟩ | ⟨-, request', -, heq⟩ |
    ⟨before, us, next, rfl, hbefore, hturn, heq⟩
  · obtain ⟨hle, hnonce⟩ := h k request pc now hsame hsampled
    exact ⟨Nat.le_trans hle hstep.now_le, hnonce⟩
  · cases heq
    cases (Pc.sampled_of_plain request.entry_plain).symm.trans hsampled
  · obtain ⟨request', pc'⟩ := before
    cases heq
    rcases hturn.sampled hsampled with hold | rfl
    · obtain ⟨hle, hnonce⟩ := h k request' pc' now hbefore hold
      exact ⟨Nat.le_trans hle hstep.now_le, hnonce⟩
    · exact ⟨hstep.now_le, fun _ => hsince⟩

theorem Turn.began {peer : CertificateFingerprint} {offerId fileId : ProtocolId}
    {credentials : TransferCredentials}
    (h : Turn server view free (.beginTransfer peer offerId fileId nonce) pc us
      (.done (.ok (.began credentials)))) :
    (∃ now, pc = .admission now ∧ ServerState.beginAdmit view peer offerId fileId nonce now =
      (us, .done (.ok (.began credentials)))) ∨
    ∃ session, us = [.create nonce session] ∧ credentials = session.credentials view.now := by
  generalize hnext : Pc.done (.ok (.began credentials)) = next at h
  cases h with
  | authorize h =>
    subst hnext
    rcases ensurePeerAllowed_cases h with ⟨-, -, heq⟩ | ⟨-, -, heq⟩ <;> cases heq
  | revoke | cancelNext | revoked | count => cases hnext
  | sample h =>
    subst hnext
    rcases beginSample_cases h with ⟨-, heq⟩ | ⟨-, heq⟩ | ⟨-, heq, -⟩ <;> cases heq
  | admission hfree h =>
    subst hnext
    exact .inl ⟨_, rfl, h⟩
  | create drawn h =>
    subst hnext
    rcases beginCreate_cases h with ⟨-, _, heq⟩ | ⟨_, _, _, _, -, -, -, -, -, rfl, heq⟩
    · cases heq
    · cases heq
      exact .inr ⟨_, rfl, rfl⟩
  | lookup hfree hcredentials => cases hcredentials

def Begun (nonce : Secret) (w : World) (credentials : TransferCredentials) : Prop :=
  ∃ (k : Nat) (peer : CertificateFingerprint) (offerId fileId : ProtocolId), w.calls[k]? = some ⟨.beginTransfer peer offerId fileId nonce,
    .done (.ok (.began credentials))⟩

theorem begun_cases (hstep : Step server w l w') {credentials : TransferCredentials}
    (h : Begun nonce w' credentials) : Begun nonce w credentials ∨
      (∃ k peer offerId fileId now us, l = .turn k us ∧
        w.calls[k]? = some ⟨.beginTransfer peer offerId fileId nonce, .admission now⟩ ∧
        ServerState.beginAdmit w.toView peer offerId fileId nonce now =
          (us, .done (.ok (.began credentials)))) ∨
      ∃ k session, l = .turn k [.create nonce session] ∧
        credentials = session.credentials w.now := by
  obtain ⟨k, peer, offerId, fileId, hcall⟩ := h
  rcases hstep.call_cases hcall with ⟨hsame, -⟩ | ⟨-, request', -, heq⟩ |
    ⟨before, us, next, rfl, hbefore, hturn, heq⟩
  · exact .inl ⟨k, peer, offerId, fileId, hsame⟩
  · cases request' with
    | readRange | connect | control | status => cases heq
    | beginTransfer => cases heq
  · obtain ⟨request', pc'⟩ := before
    cases heq
    rcases hturn.began with ⟨now, rfl, hadmission⟩ | ⟨session, rfl, rfl⟩
    · exact .inr (.inl ⟨k, peer, offerId, fileId, now, us, rfl, hbefore, hadmission⟩)
    · exact .inr (.inr ⟨k, session, rfl, rfl⟩)

def createdCount (nonce : Secret) (ls : List Label) : Nat :=
  (ls.flatMap Label.updates).countP (creates nonce)

structure Unanswered (nonce : Secret) (ls : List Label) (w : World) : Prop where
  none : createdCount nonce ls = 0
  unrecorded : w.shared.beginNonces.get nonce = .none
  unbegun : ∀ credentials, ¬Begun nonce w credentials

structure Settled (nonce : Secret) (expires : Nat) (ls : List Label) (w : World)
    (created : TransferSession) : Prop where
  once : createdCount nonce ls = 1
  paired : Paired ls w.shared nonce created
  late : expires ≤ created.expiresAt
  same : ∀ credentials, Begun nonce w credentials →
    SameTransfer credentials (created.credentials 0)

theorem createdCount_snoc (nonce : Secret) (ls : List Label) (l : Label) :
    createdCount nonce (ls ++ [l]) = createdCount nonce ls + l.updates.countP (creates nonce) := by
  rw [createdCount, List.flatMap_append, List.flatMap_singleton, List.countP_append, createdCount]

theorem creates_cases (nonce : Secret) (hstep : Step server w l w') :
    (l.updates.countP (creates nonce) = 0 ∧ ∀ k session, l ≠ .turn k [.create nonce session]) ∨
    ∃ (k : Nat) (peer : CertificateFingerprint) (offerId fileId : ProtocolId)
      (session : TransferSession) (now active : Nat), l = .turn k [.create nonce session] ∧
      w.calls[k]? = some ⟨.beginTransfer peer offerId fileId nonce, .counting now [] active⟩ ∧
      checkedAddInstant now server.transferTtl = some session.expiresAt := by
  cases hstep with
  | clock | trust | invoke | cleanup => exact .inl ⟨rfl, by simp⟩
  | @turn k call us next hcall hturn =>
    obtain ⟨request, pc⟩ := call
    cases hturn.effect with
    | none | deny | replay | beginRead | prune | pruneReplay | control | revoke | refuse | serve =>
      exact .inl ⟨rfl, by simp⟩
    | @create peer offerId fileId transferId other capability serverNonce now active expiresAt
        hrequest hpc _ _ _ hexpires =>
      obtain rfl : request = .beginTransfer peer offerId fileId other := hrequest
      obtain rfl : pc = .counting now [] active := hpc
      by_cases hsame : other = nonce
      · subst hsame
        exact .inr ⟨k, peer, offerId, fileId, _, now, active, rfl, hcall, hexpires⟩
      · refine .inl ⟨?_, ?_⟩
        · simp [Label.updates, creates, hsame]
        · intro k session heq
          cases heq
          exact hsame rfl

theorem Step.prunes (hstep : Step server w l w') {since : Nat} (hs : SampledSince since nonce w)
    (h : Update.prune now ∈ l.updates) : now ≤ w.now := by
  cases hstep with
  | clock | trust | invoke => cases h
  | cleanup hle =>
    cases List.mem_singleton.mp h
    exact hle
  | @turn k call us next hcall hturn =>
    obtain ⟨request, pc⟩ := call
    cases hturn.effect with
    | none => cases h
    | deny | replay | beginRead | create | control | revoke | refuse | serve =>
      cases List.mem_singleton.mp h
    | prune hfree hpc =>
      cases List.mem_singleton.mp h
      exact (hs k request pc now hcall (congrArg Pc.sampled hpc)).1
    | pruneReplay hfree hpc =>
      simp only [Label.updates, List.mem_cons, List.not_mem_nil, or_false] at h
      rcases h with heq | heq <;> cases heq
      exact (hs k request pc now hcall (congrArg Pc.sampled hpc)).1

theorem Paired.step {created : TransferSession} (h : Paired ls w.shared nonce created)
    (hstep : Step server w l w') (hu : Unrecorded w) (hids : w'.shared.transferIds.Nodup)
    (hprunes : ∀ now, Update.prune now ∈ l.updates → now < created.expiresAt) :
    Paired (ls ++ [l]) w'.shared nonce created := by
  refine Paired.extend ?_ l
  cases hstep with
  | clock | trust | invoke => exact h
  | cleanup => exact h.prune (hprunes _ List.mem_cons_self)
  | @turn k call us next hcall hturn =>
    cases hturn.effect with
    | none | deny | replay | beginRead | control | revoke | refuse | serve =>
      exact h.foldl (by simp [Update.keepsTables])
    | prune => exact h.prune (hprunes _ List.mem_cons_self)
    | @pruneReplay now =>
      have hpruned := h.prune (hprunes now List.mem_cons_self)
      exact hpruned.run (u := .replay) rfl
    | create hrequest hpc =>
      have hnone := hu k call hcall _ _ _ hpc _ _ _ _ hrequest
      exact h.create hnone (Shared.fresh_transferId hids)

theorem unrecorded_kept (hstep : Step server w l w')
    (h : w.shared.beginNonces.get nonce = none)
    (hother : ∀ k session, l ≠ .turn k [.create nonce session]) :
    w'.shared.beginNonces.get nonce = none := by
  have hprune : ∀ now, (w.shared.prune now).beginNonces.get nonce = none := by
    intro now
    apply Option.eq_none_iff_forall_ne_some.mpr
    intro record hrecord
    have hold := (Table.get_retain.mp hrecord).1
    rw [h] at hold
    cases hold
  cases hstep with
  | clock | trust | invoke => exact h
  | cleanup => exact hprune _
  | @turn k call us next hcall hturn =>
    cases hturn.effect with
    | none | deny | replay | beginRead | control | revoke | refuse | serve => exact h
    | prune | pruneReplay => exact hprune _
    | @create _ _ _ _ other =>
      have hne : nonce ≠ other := by
        rintro rfl
        exact hother k _ rfl
      have hsame : ∀ session, (w.shared.create other session).beginNonces.get nonce = none := by
        intro session
        rw [Shared.create, Table.get_insert, if_neg hne, h]
      exact hsame _

theorem Unanswered.step {since : Nat} (h : Unanswered nonce ls w) (hstep : Step server w l w')
    (hs : SampledSince since nonce w) :
    Unanswered nonce (ls ++ [l]) w' ∨
      ∃ created, Settled nonce (since + server.transferTtl) (ls ++ [l]) w' created := by
  have hunbegun : (∀ k session, l ≠ .turn k [.create nonce session]) →
      ∀ credentials, ¬Begun nonce w' credentials := by
    intro hother credentials hbegun
    rcases begun_cases hstep hbegun with hold | ⟨k, peer, offerId, fileId, now, us, -, -, hadmission⟩ |
      ⟨k, session, heq, -⟩
    · exact h.unbegun credentials hold
    · rcases beginAdmit_cases hadmission with ⟨record, hrecord, -⟩ | ⟨-, -, heq⟩
      · have hold := (Table.get_retain.mp hrecord).1
        rw [h.unrecorded] at hold
        cases hold
      · cases heq
    · exact hother k session heq
  rcases creates_cases nonce hstep with ⟨hcount, hother⟩ |
    ⟨k, peer, offerId, fileId, session, now, active, rfl, hcall, hexpires⟩
  · refine .inl ⟨?_, unrecorded_kept hstep h.unrecorded hother, hunbegun hother⟩
    rw [createdCount_snoc, h.none, hcount]
  · refine .inr ⟨session, ?_, ?_, ?_, ?_⟩
    · rw [createdCount_snoc, h.none]
      simp [Label.updates, creates]
    · rw [hstep.shared_eq]
      exact .new ls w.shared k nonce session
    · have hsince := (hs k _ _ now hcall rfl).2 rfl
      have hsum := checkedAddInstant_eq hexpires
      omega
    · intro credentials hbegun
      rcases begun_cases hstep hbegun with hold | ⟨j, _, _, _, _, us, heq, -, hadmission⟩ |
        ⟨j, other, heq, rfl⟩
      · exact (h.unbegun credentials hold).elim
      · cases heq
        rcases beginAdmit_cases hadmission with ⟨_, -, ⟨_, -, heq, -⟩ | ⟨-, heq, -⟩⟩ | ⟨-, heq, -⟩ <;>
          cases heq
      · cases heq
        rfl

theorem Settled.step {expires since : Nat} {created : TransferSession}
    (h : Settled nonce expires ls w created) (hstep : Step server w l w')
    (hs : SampledSince since nonce w) (hu : Unrecorded w) (hids : w'.shared.transferIds.Nodup)
    (hlive : w.now < expires) : Settled nonce expires (ls ++ [l]) w' created := by
  have hprunes : ∀ now, Update.prune now ∈ l.updates → now < created.expiresAt := by
    intro now hmem
    exact Nat.lt_of_lt_of_le (Nat.lt_of_le_of_lt (hstep.prunes hs hmem) hlive) h.late
  rcases creates_cases nonce hstep with ⟨hcount, hother⟩ |
    ⟨k, peer, offerId, fileId, session, now, active, rfl, hcall, hexpires⟩
  · refine ⟨?_, h.paired.step hstep hu hids hprunes, h.late, ?_⟩
    · rw [createdCount_snoc, h.once, hcount]
    · intro credentials hbegun
      rcases begun_cases hstep hbegun with hold |
        ⟨k, peer, offerId, fileId, now, us, heq, hcall, hadmission⟩ | ⟨k, session, heq, -⟩
      · exact h.same credentials hold
      · have hnow := (hs k _ _ now hcall rfl).1
        have hpruned := h.paired.prune
          (Nat.lt_of_lt_of_le (Nat.lt_of_le_of_lt hnow hlive) h.late)
        rcases beginAdmit_recorded hpruned hadmission with ⟨-, -, -, -, heq⟩ | ⟨-, -, heq⟩
        · cases heq
          rfl
        · cases heq
      · exact (hother k session heq).elim
  · have hnone := hu k _ hcall now [] active rfl peer offerId fileId nonce rfl
    rw [h.paired.2.1] at hnone
    cases hnone

def Unseen (nonce : Secret) (w : World) : Prop :=
  w.shared.beginNonces.get nonce = none ∧ ∀ call ∈ w.calls, call.request.beginNonce ≠ some nonce

theorem sampled_of_run {trusted : CertificateFingerprint → Bool} (nonce : Secret)
    (h : Run (Step server) (World.start now trusted) ls w) : SampledSince 0 nonce w := by
  refine h.invariant (I := fun w => SampledSince 0 nonce w)
    (fun hs hstep => SampledSince.step hs (Nat.zero_le _) hstep) ?_
  intro k request pc sampled hcall
  cases hcall

theorem begin_retried {trusted : CertificateFingerprint → Bool} {ls₀ : List Label}
    {w₀ : World} (hrun₀ : Run (Step server) (World.start now trusted) ls₀ w₀)
    (hunseen : Unseen nonce w₀) (hrun : Run (Step server) w₀ ls w)
    (hids : w.shared.transferIds.Nodup) (hlimit : w.now < w₀.now + server.transferTtl) :
    Unanswered nonce ls w ∨
      ∃ created, Settled nonce (w₀.now + server.transferTtl) ls w created := by
  have hphase : SampledSince w₀.now nonce w ∧ w₀.now ≤ w.now ∧ (Unanswered nonce ls w ∨
      ∃ created, Settled nonce (w₀.now + server.transferTtl) ls w created) := by
    revert hids hlimit
    refine hrun.traced (I := fun ls w => w.shared.transferIds.Nodup →
      w.now < w₀.now + server.transferTtl → SampledSince w₀.now nonce w ∧ w₀.now ≤ w.now ∧
        (Unanswered nonce ls w ∨
          ∃ created, Settled nonce (w₀.now + server.transferTtl) ls w created)) ?_ ?_
    · intro _ _
      refine ⟨?_, Nat.le_refl _, .inl ⟨rfl, hunseen.1, ?_⟩⟩
      · intro k request pc sampled hcall hsampled
        refine ⟨(sampled_of_run nonce hrun₀ k request pc sampled hcall hsampled).1, ?_⟩
        intro hnonce
        exact (hunseen.2 _ (List.mem_of_getElem? hcall) hnonce).elim
      · rintro credentials ⟨k, peer, offerId, fileId, hcall⟩
        exact hunseen.2 _ (List.mem_of_getElem? hcall) rfl
    · intro ls t l u hprefix ih hstep hids hlimit
      have hbefore := Nat.lt_of_le_of_lt hstep.now_le hlimit
      have hids' := hstep.transferIds_nodup hids
      obtain ⟨hs, hsince, hphase⟩ := ih hids' hbefore
      refine ⟨hs.step hsince hstep, Nat.le_trans hsince hstep.now_le, ?_⟩
      rcases hphase with hun | ⟨created, hset⟩
      · exact hun.step hstep hs
      · obtain ⟨-, hu⟩ := nonceTable_of_run (hrun₀.append hprefix) hids'
        exact .inr ⟨created, hset.step hstep hs hu hids hbefore⟩
  exact hphase.2.2

end ClipFerry.Server
