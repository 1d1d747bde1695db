import ClipFerry.Server.Capacity
import Mathlib.Data.Set.Function

namespace ClipFerry.Server

open Protocol Foundation Transition

variable {server : ServerState} {w w' : World} {l : Label} {ls : List Label}

namespace Shared

variable {shared : Shared}

def transferIds (shared : Shared) : List ProtocolId := shared.sessions.map (·.transferId)

theorem map_modify {α β : Type} {g : α → β} {f : α → α} (h : ∀ a, g (f a) = g a) (l : List α)
    (i : Nat) : (l.modify i f).map g = l.map g := by
  induction l generalizing i with
  | nil => rw [List.modify_nil]
  | cons a l ih =>
    cases i with
    | zero => rw [List.modify_zero_cons, List.map_cons, List.map_cons, h]
    | succ i => rw [List.modify_succ_cons, List.map_cons, List.map_cons, ih]

theorem transferIds_modifyInner (shared : Shared) (i : Nat) (f : TransferInner → TransferInner) :
    (shared.modifyInner i f).transferIds = shared.transferIds :=
  map_modify (f := fun session : TransferSession => { session with inner := f session.inner })
    (fun _ => rfl) shared.sessions i

theorem transferIds_run {u : Update} (h : u.keepsTables = true) :
    (shared.run u).transferIds = shared.transferIds := by
  cases u with
  | create nonce session | prune now => cases h
  | control i sequence opcode => exact transferIds_modifyInner shared i (·.accept sequence opcode)
  | cancel i => exact transferIds_modifyInner shared i (·.cancel)
  | serve i offset read => exact transferIds_modifyInner shared i (·.serve offset read)
  | deny | replay | beginRead => rfl

theorem transferIds_extend (shared : Shared) (u : Update) :
    shared.transferIds <+: (shared.run u).transferIds := by
  cases u with
  | create nonce session => exact ⟨[session.transferId], by simp [transferIds, run, create]⟩
  | prune now => exact List.prefix_rfl
  | deny | replay | beginRead | control i sequence opcode | cancel i | serve i offset read =>
    rw [transferIds_run rfl]

theorem fresh_transferId {nonce : Secret} {session : TransferSession}
    (hids : (shared.create nonce session).transferIds.Nodup) :
    session.transferId ∉ shared.transferIds := by
  intro hmem
  simp only [create, transferIds, List.map_append, List.nodup_append] at hids
  exact hids.2.2 _ hmem _ (by simp) rfl

theorem transferIds_foldl (shared : Shared) (us : List Update) :
    shared.transferIds <+: (us.foldl run shared).transferIds := by
  induction us generalizing shared with
  | nil => exact List.prefix_rfl
  | cons u us ih => exact (transferIds_extend shared u).trans (ih (shared.run u))

end Shared

theorem Step.transferIds_nodup (h : Step server w l w') (hids : w'.shared.transferIds.Nodup) :
    w.shared.transferIds.Nodup := by
  rw [h.shared_eq] at hids
  exact hids.sublist (Shared.transferIds_foldl w.shared l.updates).sublist

def Created (ls : List Label) (nonce : Secret) (session : TransferSession) : Prop :=
  ∃ k, Label.turn k [.create nonce session] ∈ ls

def Paired (ls : List Label) (shared : Shared) (nonce : Secret) (created : TransferSession) :
    Prop :=
  Created ls nonce created ∧ shared.beginNonces.get nonce = some created.record ∧
    ∃ i inner, shared.transfers.get created.transferId = some i ∧
      shared.sessions[i]? = some { created with inner := inner }

structure NonceTable (ls : List Label) (shared : Shared) : Prop where
  recorded : ∀ nonce record, shared.beginNonces.get nonce = some record →
    ∃ created, Paired ls shared nonce created ∧ record = created.record
  begun : ∀ id i, shared.transfers.get id = some i →
    ∃ nonce created, Paired ls shared nonce created ∧ created.transferId = id
  injective : ∀ nonce nonce' record record', shared.beginNonces.get nonce = some record →
    shared.beginNonces.get nonce' = some record' → record.transferId = record'.transferId →
      nonce = nonce'

namespace Paired

variable {shared : Shared} {nonce : Secret} {created : TransferSession}

theorem extend (h : Paired ls shared nonce created) (l : Label) :
    Paired (ls ++ [l]) shared nonce created := by
  obtain ⟨⟨k, hk⟩, hrest⟩ := h
  exact ⟨⟨k, List.mem_append_left _ hk⟩, hrest⟩

theorem run {u : Update} (h : Paired ls shared nonce created) (hu : u.keepsTables = true) :
    Paired ls (shared.run u) nonce created := by
  obtain ⟨hcreated, hrecord, i, inner, htransfer, hsession⟩ := h
  obtain ⟨htransfers, hnonces⟩ := shared.run_tables hu
  exact ⟨hcreated, hnonces ▸ hrecord, i, _, htransfers ▸ htransfer, Shared.run_session hsession u⟩

theorem prune {now : Nat} (h : Paired ls shared nonce created) (hlive : now < created.expiresAt) :
    Paired ls (shared.prune now) nonce created := by
  obtain ⟨hcreated, hrecord, i, inner, htransfer, hsession⟩ := h
  have hkept : shared.expiresAfter now i = true := by
    rw [Shared.expiresAfter, hsession]
    exact decide_eq_true hlive
  exact ⟨hcreated, Table.get_retain.mpr ⟨hrecord, decide_eq_true hlive⟩, i, inner,
    Table.get_retain.mpr ⟨htransfer, hkept⟩, hsession⟩

theorem of_prune {now : Nat} (h : Paired ls shared nonce created) {record : BeginTransferRecord}
    (hrecord : (shared.prune now).beginNonces.get nonce = some record) :
    Paired ls (shared.prune now) nonce created := by
  obtain ⟨hold, hlive⟩ := Table.get_retain.mp hrecord
  rw [h.2.1] at hold
  obtain rfl := Option.some.inj hold
  exact h.prune (of_decide_eq_true hlive)

theorem foldl {us : List Update} (h : Paired ls shared nonce created)
    (hus : ∀ u ∈ us, u.keepsTables = true) :
    Paired ls (us.foldl Shared.run shared) nonce created := by
  induction us generalizing shared with
  | nil => exact h
  | cons u us ih =>
    exact ih (h.run (hus u List.mem_cons_self)) fun v hv => hus v (List.mem_cons_of_mem _ hv)

theorem new (ls : List Label) (shared : Shared) (k : Nat) (nonce : Secret)
    (session : TransferSession) :
    Paired (ls ++ [.turn k [.create nonce session]]) (shared.create nonce session) nonce
      session := by
  refine ⟨⟨k, by simp⟩, ?_, shared.sessions.length, .fresh, ?_, ?_⟩
  · rw [Shared.create, Table.get_insert, if_pos rfl]
  · rw [Shared.create, Table.get_insert, if_pos rfl]
  · rw [Shared.create, List.getElem?_append_right (Nat.le_refl _)]
    simp

theorem create {session : TransferSession} {other : Secret}
    (h : Paired ls shared nonce created) (hnone : shared.beginNonces.get other = none)
    (hfresh : session.transferId ∉ shared.transferIds) :
    Paired ls (shared.create other session) nonce created := by
  obtain ⟨hcreated, hrecord, i, inner, htransfer, hsession⟩ := h
  have hnonce : nonce ≠ other := fun heq => by
    rw [heq, hnone] at hrecord
    cases hrecord
  have hid : created.transferId ≠ session.transferId := fun heq =>
    hfresh (heq ▸ List.mem_map.mpr ⟨_, List.mem_of_getElem? hsession, rfl⟩)
  refine ⟨hcreated, ?_, i, inner, ?_, ?_⟩
  · rw [Shared.create, Table.get_insert, if_neg hnonce, hrecord]
  · rw [Shared.create, Table.get_insert, if_neg hid, htransfer]
  · rw [Shared.create, List.getElem?_append_left (List.getElem?_eq_some_iff.mp hsession).1,
      hsession]

end Paired

namespace NonceTable

variable {shared : Shared}

theorem extend (h : NonceTable ls shared) (l : Label) : NonceTable (ls ++ [l]) shared where
  recorded nonce record hget := by
    obtain ⟨created, hpaired, heq⟩ := h.recorded nonce record hget
    exact ⟨created, hpaired.extend l, heq⟩
  begun id i hget := by
    obtain ⟨nonce, created, hpaired, heq⟩ := h.begun id i hget
    exact ⟨nonce, created, hpaired.extend l, heq⟩
  injective := h.injective

theorem run {u : Update} (h : NonceTable ls shared) (hu : u.keepsTables = true) :
    NonceTable ls (shared.run u) := by
  obtain ⟨htransfers, hnonces⟩ := shared.run_tables hu
  refine ⟨?_, ?_, ?_⟩
  · intro nonce record hget
    obtain ⟨created, hpaired, heq⟩ := h.recorded nonce record (hnonces ▸ hget)
    exact ⟨created, hpaired.run hu, heq⟩
  · intro id i hget
    obtain ⟨nonce, created, hpaired, heq⟩ := h.begun id i (htransfers ▸ hget)
    exact ⟨nonce, created, hpaired.run hu, heq⟩
  · rw [hnonces]
    exact h.injective

theorem foldl {us : List Update} (h : NonceTable ls shared)
    (hus : ∀ u ∈ us, u.keepsTables = true) : NonceTable ls (us.foldl Shared.run shared) := by
  induction us generalizing shared with
  | nil => exact h
  | cons u us ih =>
    exact ih (h.run (hus u List.mem_cons_self)) fun v hv => hus v (List.mem_cons_of_mem _ hv)

theorem prune (h : NonceTable ls shared) (now : Nat) : NonceTable ls (shared.prune now) where
  recorded nonce record hget := by
    obtain ⟨created, hpaired, heq⟩ := h.recorded nonce record (Table.get_retain.mp hget).1
    exact ⟨created, hpaired.of_prune hget, heq⟩
  begun id i hget := by
    obtain ⟨hold, hlive⟩ := Table.get_retain.mp hget
    obtain ⟨nonce, created, hpaired, rfl⟩ := h.begun id i hold
    obtain ⟨j, inner, htransfer, hsession⟩ := hpaired.2.2
    rw [hold] at htransfer
    obtain rfl := Option.some.inj htransfer
    rw [Shared.expiresAfter, hsession] at hlive
    exact ⟨nonce, created, hpaired.prune (of_decide_eq_true hlive), rfl⟩
  injective nonce nonce' record record' hget hget' :=
    h.injective nonce nonce' record record' (Table.get_retain.mp hget).1
      (Table.get_retain.mp hget').1

theorem create {k : Nat} {nonce : Secret} {session : TransferSession} (h : NonceTable ls shared)
    (hnone : shared.beginNonces.get nonce = none)
    (hfresh : session.transferId ∉ shared.transferIds) :
    NonceTable (ls ++ [.turn k [.create nonce session]]) (shared.create nonce session) := by
  have hnew : Paired (ls ++ [.turn k [.create nonce session]]) (shared.create nonce session)
      nonce session := .new ls shared k nonce session
  have hold : ∀ other created, Paired ls shared other created →
      Paired (ls ++ [.turn k [.create nonce session]]) (shared.create nonce session)
        other created := fun other created hpaired => (hpaired.create hnone hfresh).extend _
  have hids : ∀ other record, shared.beginNonces.get other = some record →
      record.transferId ≠ session.transferId := by
    intro other record hget heq
    obtain ⟨created, ⟨-, -, i, inner, -, hsession⟩, rfl⟩ := h.recorded other record hget
    exact hfresh (heq ▸ List.mem_map.mpr ⟨_, List.mem_of_getElem? hsession, rfl⟩)
  refine ⟨?_, ?_, ?_⟩
  · intro other record hget
    rw [Shared.create, Table.get_insert] at hget
    split at hget
    · rename_i heq
      obtain rfl := Option.some.inj hget
      exact ⟨session, heq ▸ hnew, rfl⟩
    · obtain ⟨created, hpaired, heq⟩ := h.recorded other record hget
      exact ⟨created, hold other created hpaired, heq⟩
  · intro id i hget
    rw [Shared.create, Table.get_insert] at hget
    split at hget
    · rename_i heq
      exact ⟨nonce, session, hnew, heq.symm⟩
    · obtain ⟨other, created, hpaired, heq⟩ := h.begun id i hget
      exact ⟨other, created, hold other created hpaired, heq⟩
  · intro one two record record' hone htwo hid
    rw [Shared.create, Table.get_insert] at hone htwo
    split at hone <;> split at htwo
    · rename_i h₁ h₂
      rw [h₁, h₂]
    · obtain rfl := Option.some.inj hone
      exact absurd hid.symm (hids two record' htwo)
    · obtain rfl := Option.some.inj htwo
      exact absurd hid (hids one record hone)
    · exact h.injective one two record record' hone htwo hid

end NonceTable

theorem beginNonces_while_locked (h : Admission w) (hstep : Step server w l w') {k : Nat}
    (hk : w.HoldsLock k) (hother : ∀ us, l ≠ .turn k us) :
    w'.shared.beginNonces = w.shared.beginNonces := by
  rw [hstep.shared_eq]
  exact (foldl_keepsTables _ (hstep.keepsTables h.exclusive hk hother)).2

def Unrecorded (w : World) : Prop := ∀ (k : Nat) (call : Call), w.calls[k]? = some call →
  ∀ now todo active, call.pc = .counting now todo active → ∀ peer offerId fileId nonce,
    call.request = .beginTransfer peer offerId fileId nonce →
      w.shared.beginNonces.get nonce = none

theorem Step.unrecorded (hstep : Step server w l w') (h : Admission w) (hu : Unrecorded w) :
    Unrecorded w' := by
  intro k call hcall now todo active hpc peer offerId fileId nonce hrequest
  have hlock : call.pc.holdsServerLock = true := by rw [hpc]; rfl
  rcases hstep.call_cases hcall with ⟨hsame, hother⟩ | ⟨-, request, -, rfl⟩ |
    ⟨before, us, next, rfl, hbefore, hturn, rfl⟩
  · rw [beginNonces_while_locked h hstep ⟨call, hsame, hlock⟩ hother]
    exact hu k call hsame now todo active hpc peer offerId fileId nonce hrequest
  · rw [Pc.free_of_plain request.entry_plain] at hlock
    cases hlock
  · obtain rfl : next = .counting now todo active := hpc
    have hrequest : before.request = .beginTransfer peer offerId fileId nonce := hrequest
    rw [hstep.shared_eq]
    rcases hturn.lock_cases hlock with ⟨-, -, -, hnext⟩ | ⟨_, _, -, -, -, hnext⟩ |
      ⟨-, _, _, _, _, _, hbegin, -, rfl, hnone, hnext⟩ | ⟨_, _, _, i, hi, hcounting, rfl, hnext⟩
    · cases hnext
    · cases hnext
    · rw [hrequest] at hbegin
      cases hbegin
      exact hnone
    · exact hu k before hbefore _ _ _ hcounting peer offerId fileId nonce hrequest

theorem NonceTable.step (h : NonceTable ls w.shared) (hstep : Step server w l w')
    (hu : Unrecorded w) (hids : w'.shared.transferIds.Nodup) :
    NonceTable (ls ++ [l]) w'.shared := by
  cases hstep with
  | clock | trust | invoke => exact h.extend _
  | cleanup => exact (h.prune _).extend _
  | @turn k call us next hcall hturn =>
    cases hturn.effect with
    | none | deny | replay | beginRead | control | revoke | refuse | serve =>
      exact (h.foldl (by simp [Update.keepsTables])).extend _
    | prune => exact (h.prune _).extend _
    | @pruneReplay now =>
      have hreplay : ∀ u ∈ [Update.replay], u.keepsTables = true := by simp [Update.keepsTables]
      exact ((h.prune now).foldl hreplay).extend _
    | create hrequest hpc =>
      have hnone := hu k call hcall _ _ _ hpc _ _ _ _ hrequest
      exact h.create hnone (Shared.fresh_transferId hids)

theorem nonceTable_of_run {now : Nat} {trusted : CertificateFingerprint → Bool}
    (h : Run (Step server) (World.start now trusted) ls w) (hids : w.shared.transferIds.Nodup) :
    NonceTable ls w.shared ∧ Unrecorded w := by
  revert hids
  refine h.traced (I := fun ls w => w.shared.transferIds.Nodup →
    NonceTable ls w.shared ∧ Unrecorded w) ?_ ?_
  · intro _
    refine ⟨⟨?_, ?_, ?_⟩, ?_⟩
    · intro nonce record hget
      cases hget
    · intro id i hget
      cases hget
    · intro nonce nonce' record record' hget
      cases hget
    · intro k call hcall
      cases hcall
  · intro l s a t hrun ih hstep hids
    obtain ⟨htable, hu⟩ := ih (hstep.transferIds_nodup hids)
    exact ⟨htable.step hstep hu hids, hstep.unrecorded (admission_of_run hrun) hu⟩

theorem NonceTable.bijOn {shared : Shared} (h : NonceTable ls shared) :
    Set.BijOn (fun entry : Secret × BeginTransferRecord => entry.2.transferId)
      {entry | shared.beginNonces.get entry.1 = some entry.2}
      {id | ∃ i, shared.transfers.get id = some i} := by
  refine ⟨?_, ?_, ?_⟩
  · rintro ⟨nonce, record⟩ hget
    obtain ⟨created, ⟨-, -, i, inner, htransfer, -⟩, heq⟩ := h.recorded nonce record hget
    exact ⟨i, heq ▸ htransfer⟩
  · rintro ⟨nonce, record⟩ hget ⟨nonce', record'⟩ hget' hid
    obtain rfl := h.injective nonce nonce' record record' hget hget' hid
    have hget : shared.beginNonces.get nonce = some record := hget
    have hget' : shared.beginNonces.get nonce = some record' := hget'
    rw [hget] at hget'
    obtain rfl := Option.some.inj hget'
    rfl
  · rintro id ⟨i, hget⟩
    obtain ⟨nonce, created, ⟨-, hrecord, -⟩, heq⟩ := h.begun id i hget
    exact ⟨(nonce, created.record), hrecord, heq⟩

theorem Paired.recordedSession {shared : Shared} {nonce : Secret} {created : TransferSession}
    (h : Paired ls shared nonce created) (peer : CertificateFingerprint)
    (offerId fileId : ProtocolId) :
    ∃ inner, ServerState.recordedSession shared peer offerId fileId created.record =
      if created.authorizedPeer = peer ∧ created.offerId = offerId ∧ created.fileId = fileId then
        some { created with inner := inner } else none := by
  obtain ⟨-, -, i, inner, htransfer, hsession⟩ := h
  have hfound : (shared.transfers.get created.record.transferId).bind (shared.sessions[·]?) =
      some { created with inner := inner } := by
    rw [TransferSession.record, htransfer, Option.bind_some, hsession]
  exact ⟨inner, by rw [ServerState.recordedSession, hfound]; rfl⟩

theorem beginAdmit_recorded {view : View} {us : List Update} {next : Pc}
    {peer : CertificateFingerprint} {offerId fileId : ProtocolId} {nonce : Secret} {begun : Nat}
    {created : TransferSession} (hpaired : Paired ls (view.shared.prune begun) nonce created)
    (h : ServerState.beginAdmit view peer offerId fileId nonce begun = (us, next)) :
    (created.authorizedPeer = peer ∧ created.offerId = offerId ∧ created.fileId = fileId ∧
      us = [.prune begun] ∧ next = .done (.ok (.began (created.credentials view.now)))) ∨
    (¬(created.authorizedPeer = peer ∧ created.offerId = offerId ∧ created.fileId = fileId) ∧
      us = [.prune begun, .replay] ∧ next = .done (.error .replay)) := by
  obtain ⟨inner, hsession⟩ := hpaired.recordedSession peer offerId fileId
  rcases beginAdmit_cases h with ⟨record, hrecord, hcases⟩ | ⟨hnone, -⟩
  · rw [hpaired.2.1] at hrecord
    obtain rfl := Option.some.inj hrecord
    rw [hsession] at hcases
    split at hcases
    · rename_i hmatch
      rcases hcases with ⟨session, hsome, rfl, rfl⟩ | ⟨hnone, -⟩
      · obtain rfl := Option.some.inj hsome
        exact .inl ⟨hmatch.1, hmatch.2.1, hmatch.2.2, rfl, rfl⟩
      · cases hnone
    · rename_i hmatch
      rcases hcases with ⟨session, hsome, -⟩ | ⟨-, rfl, rfl⟩
      · cases hsome
      · exact .inr ⟨hmatch, rfl, rfl⟩
  · rw [hpaired.2.1] at hnone
    cases hnone

theorem nonce_table_bijection {now : Nat} {trusted : CertificateFingerprint → Bool}
    (h : Run (Step server) (World.start now trusted) ls w)
    (hids : (w.shared.sessions.map (·.transferId)).Nodup) :
    Set.BijOn (fun entry : Secret × BeginTransferRecord => entry.2.transferId)
      {entry | w.shared.beginNonces.get entry.1 = some entry.2}
      {id | ∃ i, w.shared.transfers.get id = some i} ∧
    (∀ nonce record, w.shared.beginNonces.get nonce = some record →
      ∃ i session, w.shared.transfers.get record.transferId = some i ∧
        w.shared.sessions[i]? = some session ∧ session.authorizedPeer = record.authorizedPeer ∧
        session.offerId = record.offerId ∧ session.fileId = record.fileId ∧
        session.expiresAt = record.expiresAt) ∧
    (∀ k peer offerId fileId nonce begun record us w',
      w.calls[k]? = some ⟨.beginTransfer peer offerId fileId nonce, .admission begun⟩ →
      (w.shared.prune begun).beginNonces.get nonce = some record →
      Step server w (.turn k us) w' →
        w'.shared.sessions = w.shared.sessions ∧
        w'.shared.transfers = (w.shared.prune begun).transfers ∧
        w'.shared.beginNonces = (w.shared.prune begun).beginNonces ∧
        ∃ created, Created ls nonce created ∧ created.record = record ∧
          w'.calls[k]? = some ⟨.beginTransfer peer offerId fileId nonce, .done
            (if record.authorizedPeer = peer ∧ record.offerId = offerId ∧ record.fileId = fileId
              then .ok (.began (created.credentials w.now)) else .error .replay)⟩) := by
  obtain ⟨htable, -⟩ := nonceTable_of_run h hids
  refine ⟨htable.bijOn, ?_, ?_⟩
  · intro nonce record hget
    obtain ⟨created, ⟨-, -, i, inner, htransfer, hsession⟩, rfl⟩ :=
      htable.recorded nonce record hget
    exact ⟨i, _, htransfer, hsession, rfl, rfl, rfl, rfl⟩
  · intro k peer offerId fileId nonce begun record us w' hcall hget hstep
    obtain ⟨created, hpaired, rfl⟩ := (htable.prune begun).recorded nonce record hget
    obtain ⟨next, hturn, hdone⟩ := hstep.turn_cases hcall
    have hshared := hstep.shared_eq
    cases hturn with
    | admission hfree hadmission =>
      rcases beginAdmit_recorded hpaired hadmission with ⟨hpeer, hoffer, hfile, rfl, rfl⟩ |
        ⟨hmatch, rfl, rfl⟩
      · rw [hshared]
        refine ⟨rfl, rfl, rfl, created, hpaired.1, rfl, ?_⟩
        rw [if_pos ⟨hpeer, hoffer, hfile⟩]
        exact hdone
      · rw [hshared]
        refine ⟨rfl, rfl, rfl, created, hpaired.1, rfl, ?_⟩
        have hmatch : ¬(created.record.authorizedPeer = peer ∧ created.record.offerId = offerId ∧
          created.record.fileId = fileId) := hmatch
        rw [if_neg hmatch]
        exact hdone

def soloRetryLabels : List Label :=
  soloBeginLabels ++ [.invoke soloBegin, .turn 1 [], .turn 1 []]

theorem soloRetry_run : ∃ w, Run (Step soloServer) soloStart soloRetryLabels w ∧ w.now = 0 ∧
    (w.shared.sessions.map (·.transferId)).Nodup ∧ w.calls[1]? = some ⟨soloBegin, .admission 0⟩ ∧
    (w.shared.prune 0).beginNonces.get (repeatedSecret 5) = some soloSession.record ∧
    ∃ w', Step soloServer w (.turn 1 [.prune 0]) w' :=
  ⟨_, soloBegin_run
    |>.snoc (.invoke soloBegin)
    |>.snoc (.turn (k := 1) rfl (.authorize rfl))
    |>.snoc (.turn (k := 1) rfl (.sample rfl)), rfl, List.nodup_singleton _, rfl, rfl, _,
    .turn (k := 1) rfl (.admission (World.serverLockFree_of_all rfl) rfl)⟩

theorem nonce_table_bijection_retry : ∃ (w' : World) (created : TransferSession),
    Created soloRetryLabels (repeatedSecret 5) created ∧ created.record = soloSession.record ∧
    w'.calls[1]? = some ⟨soloBegin, .done (.ok (.began (created.credentials 0)))⟩ := by
  obtain ⟨w, hrun, hnow, hids, hcall, hget, w', hstep⟩ := soloRetry_run
  obtain ⟨-, -, hretry⟩ := nonce_table_bijection hrun hids
  obtain ⟨-, -, -, created, hcreated, hrecord, hdone⟩ :=
    hretry 1 soloPeer (repeatedId 0) (repeatedId 1) (repeatedSecret 5) 0 soloSession.record _ w'
      hcall hget hstep
  rw [if_pos ⟨rfl, rfl, rfl⟩, hnow] at hdone
  exact ⟨w', created, hcreated, hrecord, hdone⟩

end ClipFerry.Server
