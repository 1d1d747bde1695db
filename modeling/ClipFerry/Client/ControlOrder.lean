import ClipFerry.Client.Relay
import ClipFerry.Server.ControlLog

namespace ClipFerry.Client

open Protocol Server Transition

variable {κ : Type}

def Purpose.numbers : Purpose → List (Nat × Opcode)
  | .control sequence opcode => [(sequence, opcode)]
  | .read _ _ | .status => []

namespace SourcePc

def numbers : SourcePc κ → List (Nat × Opcode)
  | lockTransfer purpose | beginning purpose | checkCancelled purpose _ | checkPaused purpose _
  | allocatePause purpose _ => purpose.numbers
  | sendPause purpose _ sequence => (sequence, .pause) :: purpose.numbers
  | sendCancel _ _ sequence => [(sequence, .cancel)]
  | sendComplete _ sequence => [(sequence, .complete)]
  | controlling _ sequence opcode => [(sequence, opcode)]
  | _ => []

variable {pc pc' : SourcePc κ} {source source' : RemoteSource κ} {reply : Reply κ} {s : Nat}

theorem numbers_proceed (c : κ) (purpose : Purpose) :
    (proceed c purpose).numbers = purpose.numbers := by cases purpose <;> rfl

theorem numbers_fail (error : IoError) (purpose : Purpose) :
    (fail error purpose : SourcePc κ).numbers = [] := by cases purpose <;> rfl

theorem numbers_of_rpc {c : κ} {sequence : Nat} {opcode : Opcode}
    (h : pc.rpc s = some (.control c sequence opcode)) : (sequence, opcode) ∈ pc.numbers := by
  cases pc <;> cases h <;> exact List.mem_cons_self

inductive Allocates (pc : SourcePc κ) (source : RemoteSource κ) (pc' : SourcePc κ)
    (source' : RemoteSource κ) : Prop
  | keep (hnext : source'.nextControlSequence = source.nextControlSequence)
      (hnumbers : ∀ n ∈ pc'.numbers, n ∈ pc.numbers)
  | take (opcode : Opcode) (hnext : source'.nextControlSequence = source.nextControlSequence + 1)
      (hnumbers : ∀ n ∈ pc'.numbers,
        n = (source.nextControlSequence, opcode) ∨ n ∈ pc.numbers)

theorem Allocates.none (hnext : source'.nextControlSequence = source.nextControlSequence)
    (hnumbers : pc'.numbers = []) : Allocates pc source pc' source' :=
  .keep hnext fun n hn => by
    rw [hnumbers] at hn
    cases hn

theorem Allocates.same (hnext : source'.nextControlSequence = source.nextControlSequence)
    (hnumbers : pc'.numbers = pc.numbers) : Allocates pc source pc' source' :=
  .keep hnext fun _ hn => hnumbers ▸ hn

theorem Allocates.one (opcode : Opcode)
    (hnext : source'.nextControlSequence = source.nextControlSequence + 1)
    (hnumbers : pc'.numbers = (source.nextControlSequence, opcode) :: pc.numbers) :
    Allocates pc source pc' source' :=
  .take opcode hnext fun n hn => by
    rw [hnumbers] at hn
    exact List.mem_cons.mp hn

theorem advance_allocates {paused cancelled : Bool}
    (h : pc.advance paused cancelled source = some (source', pc')) :
    Allocates pc source pc' source' := by
  cases pc with
  | start task =>
    cases task with
    | readAt offset length | complete =>
      cases h
      refine .none rfl ?_
      split <;> rfl
    | sendControl opcode | status =>
      cases h
      exact .none rfl rfl
    | cancelLocalFirst =>
      simp only [advance] at h
      split at h
      · cases h
      · split at h <;> cases h <;> exact .none rfl rfl
  | gateCancelled offset length =>
    cases h
    refine .none rfl ?_
    split <;> rfl
  | gatePaused offset length =>
    simp only [advance] at h
    split at h <;> cases h <;> exact .none rfl rfl
  | allocate opcode =>
    cases h
    exact .one opcode rfl rfl
  | lockTransfer purpose =>
    simp only [advance] at h
    split at h
    · cases h
    · split at h <;> cases h
      · exact .same rfl (numbers_proceed _ _)
      · exact .same rfl rfl
  | checkCancelled purpose c =>
    cases h
    split
    · exact .none rfl rfl
    · exact .same rfl rfl
  | checkPaused purpose c =>
    cases h
    split
    · exact .same rfl rfl
    · exact .same rfl (numbers_proceed _ _)
  | allocateCancel purpose c =>
    cases h
    exact .one .cancel rfl rfl
  | allocatePause purpose c =>
    cases h
    exact .one .pause rfl rfl
  | allocateComplete c =>
    cases h
    exact .one .complete rfl rfl
  | allocateLocal c =>
    cases h
    exact .one .cancel rfl rfl
  | received c offset bytes =>
    simp only [advance] at h
    split at h
    · cases h
      exact .none rfl rfl
    · split at h <;> cases h <;> exact .none rfl rfl
  | napping c offset requested | unmarkComplete error | markComplete status =>
    cases h
    exact .none rfl rfl
  | beginning purpose | sendCancel purpose c sequence | sendPause purpose c sequence
  | reading c offset requested | sendComplete c sequence | controlling c sequence opcode
  | asking c | returned result | done result => cases h

theorem answer_allocates (h : pc.answer source reply = some (source', pc')) :
    Allocates pc source pc' source' := by
  unfold answer at h
  split at h <;> cases h
  · exact .same rfl rfl
  · exact .none rfl (numbers_fail _ _)
  · exact .none rfl (numbers_fail _ _)
  · exact .none rfl (numbers_fail _ _)
  · refine .keep rfl fun n hn => ?_
    rw [numbers_proceed] at hn
    exact List.mem_cons_of_mem _ hn
  · exact .none rfl (numbers_fail _ _)
  · refine .none rfl ?_
    split <;> rfl
  · exact .none rfl rfl
  · exact .none rfl rfl
  · exact .none rfl rfl
  · refine .none rfl ?_
    split <;> rfl
  · exact .none rfl rfl
  · exact .none rfl rfl
  · exact .none rfl rfl

end SourcePc

namespace ClientWorld

variable {client client' : ClientWorld κ} {t s r : Nat} {n : Nat × Opcode}

def next (client : ClientWorld κ) (s : Nat) : Nat :=
  (client.registry.sources[s]?.map (·.nextControlSequence)).getD 1

def Pending (client : ClientWorld κ) (s : Nat) (n : Nat × Opcode) : Prop :=
  ∃ t pc, client.At t s pc ∧ n ∈ pc.numbers

inductive Numbers (client client' : ClientWorld κ) : Prop
  | keep (hnext : ∀ s, client'.next s = client.next s)
      (hpending : ∀ {s n}, client'.Pending s n → client.Pending s n)
  | take (s : Nat) (opcode : Opcode) (hnext : client'.next s = client.next s + 1)
      (hother : ∀ r, r ≠ s → client'.next r = client.next r)
      (hpending : ∀ {r n}, client'.Pending r n →
        client.Pending r n ∨ (r = s ∧ n = (client.next s, opcode)))

theorem next_eq {source : RemoteSource κ} (h : client.registry.sources[s]? = some source) :
    client.next s = source.nextControlSequence := by rw [next, h]; rfl

theorem numbers_set {thread : Thread κ} {pc pc' : SourcePc κ} {source source' : RemoteSource κ}
    (hthread : client.threads[t]? = some thread) (hfocus : thread.focus = some (s, pc))
    (hsource : client.registry.sources[s]? = some source)
    (h : SourcePc.Allocates pc source pc' source') : client.Numbers
      ⟨client.registry.setSource s source', client.threads.set t (thread.setFocus pc')⟩ := by
  have hfocus' := Thread.focus_setFocus hfocus pc'
  have hset : ∀ r, (⟨client.registry.setSource s source', client.threads.set t
      (thread.setFocus pc')⟩ : ClientWorld κ).next r =
      if r = s then source'.nextControlSequence else client.next r := by
    intro r
    rw [next, getElem?_setSource hsource]
    split <;> rfl
  have hback : ∀ {r n}, (⟨client.registry.setSource s source', client.threads.set t
      (thread.setFocus pc')⟩ : ClientWorld κ).Pending r n →
      client.Pending r n ∨ (r = s ∧ n ∈ pc'.numbers) := by
    rintro r n ⟨u, q, hat, hn⟩
    rcases at_set hat with ⟨-, hnew⟩ | ⟨-, hold⟩
    · cases hfocus'.symm.trans hnew
      exact .inr ⟨rfl, hn⟩
    · exact .inl ⟨u, q, hold, hn⟩
  cases h with
  | keep hnext hnumbers =>
    refine .keep (fun r => ?_) fun hpending => ?_
    · rw [hset]
      split
      · rename_i hrs
        rw [hrs, hnext, next_eq hsource]
      · rfl
    · rcases hback hpending with hold | ⟨rfl, hn⟩
      · exact hold
      · exact ⟨t, pc, ⟨thread, hthread, hfocus⟩, hnumbers _ hn⟩
  | take opcode hnext hnumbers =>
    refine .take s opcode ?_ (fun r hrs => ?_) fun hpending => ?_
    · rw [hset, if_pos rfl, hnext, next_eq hsource]
    · rw [hset, if_neg hrs]
    · rcases hback hpending with hold | ⟨rfl, hn⟩
      · exact .inl hold
      · rcases hnumbers _ hn with rfl | hn
        · exact .inr ⟨rfl, by rw [next_eq hsource]⟩
        · exact .inl ⟨t, pc, ⟨thread, hthread, hfocus⟩, hn⟩

theorem numbers_step {l : ClientLabel κ} (h : ClientStep client l client') :
    client.Numbers client' := by
  cases h with
  | spawn hspawned =>
    refine .keep (fun _ => rfl) ?_
    rintro s n ⟨u, pc, hat, hn⟩
    rcases at_concat hat with hold | ⟨-, hfocus⟩
    · exact ⟨u, pc, hold, hn⟩
    · obtain ⟨task, rfl⟩ := hspawned.focus hfocus
      cases hn
  | remember connection manifest entry =>
    refine .keep (fun s => ?_) fun h => h
    rcases Nat.lt_trichotomy s client.registry.sources.length with hlt | rfl | hgt
    · simp [next, Registry.rememberSource, List.getElem?_append_left hlt]
    · simp [next, Registry.rememberSource, RemoteSource.new]
    · simp [next, Registry.rememberSource, List.getElem?_append_right (Nat.le_of_lt hgt),
        List.getElem?_eq_none (Nat.le_of_lt hgt), Nat.sub_ne_zero_of_lt hgt]
  | source hthread hfocus hsource h =>
    exact numbers_set hthread hfocus hsource (SourcePc.advance_allocates h)
  | group hthread hfree h =>
    obtain ⟨hsources, hlaunch⟩ := GroupPc.advance_launching h
    refine .keep (fun s => by rw [next, next, hsources]) ?_
    rintro s n ⟨u, pc, hat, hn⟩
    rcases at_set hat with ⟨-, hfocus⟩ | ⟨-, hold⟩
    · obtain ⟨task, rfl⟩ := hlaunch.focus hfocus
      cases hn
    · exact ⟨u, pc, hold, hn⟩
  | answer hthread hfocus hsource h =>
    exact numbers_set hthread hfocus hsource (SourcePc.answer_allocates h)

end ClientWorld

namespace Relay

variable {relay relay' : Relay} {label : RelayLabel} {copy : Copy} {us : List Update}
  {entries : List (Ticket × Nat)} {reply : Reply Nat} {t s i : Nat} {n : Nat × Opcode}
  {client : ClientWorld Nat} {session : TransferSession}

def Pending (relay : Relay) (s : Nat) (n : Nat × Opcode) : Prop :=
  relay.client.Pending s n ∨ ∃ copy ∈ relay.requests, ∃ i ticket,
    copy.rpc = .control i n.1 n.2 ∧ relay.begun[i]? = some (ticket, s)

structure Ordered (relay : Relay) : Prop where
  linked : relay.Linked
  positive (s : Nat) : 1 ≤ relay.client.next s
  numbered {s : Nat} {n : Nat × Opcode} : relay.Pending s n → 1 ≤ n.1 ∧ n.1 < relay.client.next s
  unique {s : Nat} {n m : Nat × Opcode} : relay.Pending s n → relay.Pending s m → n.1 = m.1 → n = m
  bounded {s i : Nat} {ticket : Ticket} {session : TransferSession} :
    relay.begun[i]? = some (ticket, s) → relay.shared.sessions[i]? = some session →
    session.inner.lastControlSequence < relay.client.next s
  fresh {s i : Nat} {ticket : Ticket} {session : TransferSession} {n : Nat × Opcode} :
    relay.begun[i]? = some (ticket, s) → relay.shared.sessions[i]? = some session →
    relay.Pending s n → session.inner.lastControlSequence < n.1 ∨ Latest session.inner n

/-! A new control is applied only when no earlier one of its source can still arrive. -/

def InOrder (relay : Relay) (label : RelayLabel) : Prop :=
  ∀ copy us, label = .deliver copy us → ∀ i sequence opcode ticket s session,
    copy.rpc = .control i sequence opcode → relay.begun[i]? = some (ticket, s) →
    relay.shared.sessions[i]? = some session → session.inner.lastControlSequence < sequence →
    ∀ n, relay.Pending s n → sequence ≤ n.1

def OrderedStep (relay : Relay) (label : RelayLabel) (relay' : Relay) : Prop :=
  Step relay label relay' ∧ relay.InOrder label

theorem innerAfter_latest (hmeets : relay.Meets copy us entries reply) (i : Nat)
    (inner : TransferInner) :
    ((innerAfter i us inner).lastControlSequence = inner.lastControlSequence ∧
      (innerAfter i us inner).lastControlOpcode = inner.lastControlOpcode) ∨
    ∃ sequence opcode session, copy.rpc = .control i sequence opcode ∧
      relay.shared.sessions[i]? = some session ∧ session.inner.lastControlSequence < sequence ∧
      Latest (innerAfter i us inner) (sequence, opcode) := by
  rcases hmeets.applies i with hsame | ⟨sequence, opcode, session, hrpc, hsession, hnew, rfl⟩
  · exact .inl (hsame inner).2
  · refine .inr ⟨sequence, opcode, session, hrpc, hsession, hnew, ?_⟩
    simp [innerAfter, Update.onInner, Latest, TransferInner.accept]

namespace Ordered

theorem start (now : Nat) : (Relay.start now).Ordered := by
  have hnone : ∀ {s n}, ¬(Relay.start now).Pending s n := by
    rintro s n (⟨t, pc, ⟨thread, hthread, -⟩, -⟩ | ⟨copy, hcopy, -⟩)
    · cases hthread
    · cases hcopy
  refine ⟨.start now, fun s => Nat.le_refl _, fun h => (hnone h).elim, fun h => (hnone h).elim,
    ?_, fun _ _ h => (hnone h).elim⟩
  intro s i ticket session hbegun
  cases hbegun

theorem calls (h : relay.Ordered) (hlinked : relay'.Linked)
    (hnumbers : relay.client.Numbers relay'.client) (hrequests : relay'.requests = relay.requests)
    (hbegun : relay'.begun = relay.begun) (hshared : relay'.shared = relay.shared) :
    relay'.Ordered := by
  have hback : ∀ {r n}, relay'.Pending r n → relay.Pending r n ∨ relay'.client.Pending r n := by
    rintro r n (hclient | ⟨copy, hcopy, i, ticket, hrpc, hticket⟩)
    · exact .inr hclient
    · exact .inl (.inr ⟨copy, hrequests ▸ hcopy, i, ticket, hrpc, hbegun ▸ hticket⟩)
  cases hnumbers with
  | keep hnext hpending =>
    have hold : ∀ {r n}, relay'.Pending r n → relay.Pending r n := fun hp =>
      (hback hp).elim id fun hclient => .inl (hpending hclient)
    refine ⟨hlinked, fun s => hnext s ▸ h.positive s, fun hp => hnext _ ▸ h.numbered (hold hp),
      fun hp hq => h.unique (hold hp) (hold hq), ?_, ?_⟩
    · intro s i ticket session hticket hsession
      rw [hnext]
      exact h.bounded (hbegun ▸ hticket) (hshared ▸ hsession)
    · intro s i ticket session n hticket hsession hp
      exact h.fresh (hbegun ▸ hticket) (hshared ▸ hsession) (hold hp)
  | take s opcode hnext hother hpending =>
    have hold : ∀ {r n}, relay'.Pending r n →
        relay.Pending r n ∨ (r = s ∧ n = (relay.client.next s, opcode)) := fun hp =>
      (hback hp).elim .inl fun hclient => (hpending hclient).imp_left .inl
    have hle : ∀ r, relay.client.next r ≤ relay'.client.next r := by
      intro r
      by_cases hrs : r = s
      · rw [hrs, hnext]
        exact Nat.le_succ _
      · rw [hother r hrs]
    refine ⟨hlinked, fun r => Nat.le_trans (h.positive r) (hle r), ?_, ?_, ?_, ?_⟩
    · intro r n hp
      rcases hold hp with hp | ⟨rfl, rfl⟩
      · obtain ⟨hone, hlt⟩ := h.numbered hp
        exact ⟨hone, Nat.lt_of_lt_of_le hlt (hle r)⟩
      · exact ⟨h.positive _, by rw [hnext]; exact Nat.lt_succ_self _⟩
    · intro r n m hp hq heq
      rcases hold hp with hp | ⟨rfl, rfl⟩
      · rcases hold hq with hq | ⟨rfl, rfl⟩
        · exact h.unique hp hq heq
        · exact absurd heq (Nat.ne_of_lt (h.numbered hp).2)
      · rcases hold hq with hq | ⟨-, rfl⟩
        · exact absurd heq.symm (Nat.ne_of_lt (h.numbered hq).2)
        · rfl
    · intro r i ticket session hticket hsession
      exact Nat.lt_of_lt_of_le (h.bounded (hbegun ▸ hticket) (hshared ▸ hsession)) (hle r)
    · intro r i ticket session n hticket hsession hp
      rcases hold hp with hp | ⟨rfl, rfl⟩
      · exact h.fresh (hbegun ▸ hticket) (hshared ▸ hsession) hp
      · exact .inl (h.bounded (hbegun ▸ hticket) (hshared ▸ hsession))

theorem fewer (h : relay.Ordered) (hlinked : relay'.Linked) (hclient : relay'.client = relay.client)
    (hpending : ∀ {r n}, relay'.Pending r n → relay.Pending r n)
    (hbegun : relay'.begun = relay.begun)
    (hshared : ∀ {i : Nat} {session : TransferSession},
      relay'.shared.sessions[i]? = some session → ∃ found,
        relay.shared.sessions[i]? = some found ∧
        session.inner.lastControlSequence = found.inner.lastControlSequence ∧
        session.inner.lastControlOpcode = found.inner.lastControlOpcode) : relay'.Ordered := by
  refine ⟨hlinked, fun s => hclient ▸ h.positive s, fun hp => hclient ▸ h.numbered (hpending hp),
    fun hp hq => h.unique (hpending hp) (hpending hq), ?_, ?_⟩
  · intro s i ticket session hticket hsession
    obtain ⟨found, hfound, hsequence, -⟩ := hshared hsession
    rw [hclient, hsequence]
    exact h.bounded (hbegun ▸ hticket) hfound
  · intro s i ticket session n hticket hsession hp
    obtain ⟨found, hfound, hsequence, hopcode⟩ := hshared hsession
    rw [Latest, hsequence, hopcode]
    exact h.fresh (hbegun ▸ hticket) hfound (hpending hp)

theorem send (h : relay.Ordered) {rpc : Rpc Nat} (hrpc : relay.rpc t = some rpc) :
    ({ relay with requests := relay.requests ++ [⟨relay.ticket t, rpc⟩] } : Relay).Ordered := by
  refine h.fewer (h.linked.send hrpc) rfl ?_ rfl fun {i session} hsession =>
    ⟨session, hsession, rfl, rfl⟩
  rintro r n (hclient | ⟨copy, hcopy, i, ticket, hcontrol, hticket⟩)
  · exact .inl hclient
  · rcases List.mem_append.mp hcopy with hold | hnew
    · exact .inr ⟨copy, hold, i, ticket, hcontrol, hticket⟩
    · cases List.mem_singleton.mp hnew
      obtain ⟨s, pc, hat, hpc⟩ := rpc_iff.mp hrpc
      rw [show rpc = .control i n.1 n.2 from hcontrol] at hpc
      obtain ⟨source, hsource, htransfer⟩ :=
        h.linked.consistent.carried hat (credentials_of_rpc hpc rfl)
      obtain ⟨ticket', hbegun⟩ := h.linked.owned hsource htransfer
      cases hbegun.symm.trans hticket
      exact .inl ⟨t, pc, hat, SourcePc.numbers_of_rpc hpc⟩

theorem lose (h : relay.Ordered) (k : Nat) :
    ({ relay with requests := relay.requests.eraseIdx k } : Relay).Ordered := by
  refine h.fewer (h.linked.lose k) rfl ?_ rfl fun {i session} hsession =>
    ⟨session, hsession, rfl, rfl⟩
  rintro r n (hclient | ⟨copy, hcopy, hrest⟩)
  · exact .inl hclient
  · exact .inr ⟨copy, List.mem_of_mem_eraseIdx hcopy, hrest⟩

theorem revoke (h : relay.Ordered) (i : Nat) (hlinked : Linked
    { relay with shared := relay.shared.run (.cancel i) }) :
    ({ relay with shared := relay.shared.run (.cancel i) } : Relay).Ordered := by
  refine h.fewer hlinked rfl id rfl fun {j session} hsession => ?_
  have hlt := (List.getElem?_eq_some_iff.mp hsession).1
  rw [Shared.length_run rfl] at hlt
  obtain ⟨found, hfound⟩ : ∃ found, relay.shared.sessions[j]? = some found :=
    ⟨_, List.getElem?_eq_getElem hlt⟩
  have hrun := Shared.run_session hfound (.cancel i)
  cases hrun.symm.trans hsession
  rcases onInner_latest j found.inner (.cancel i) with ⟨-, hsame⟩ | ⟨command, happlied, -⟩
  · exact ⟨found, hfound, hsame⟩
  · cases happlied

theorem deliver (h : relay.Ordered) {k : Nat} (hcopy : relay.requests[k]? = some copy)
    (hmeets : relay.Meets copy us entries reply) (horder : relay.InOrder (.deliver copy us)) :
    ({ relay with
      shared := us.foldl Shared.run relay.shared
      requests := relay.requests.eraseIdx k
      responses := relay.responses ++ [(copy, reply)]
      begun := relay.begun ++ entries } : Relay).Ordered := by
  have hpending : ∀ {r n}, Pending { relay with
      shared := us.foldl Shared.run relay.shared
      requests := relay.requests.eraseIdx k
      responses := relay.responses ++ [(copy, reply)]
      begun := relay.begun ++ entries } r n → relay.Pending r n := by
    rintro r n (hclient | ⟨other, hother, i, ticket, hcontrol, hticket⟩)
    · exact .inl hclient
    · have hmem := List.mem_of_mem_eraseIdx hother
      obtain ⟨s, source, hsource, htransfer⟩ := h.linked.carried hmem (by rw [hcontrol]; rfl)
      obtain ⟨ticket', hbegun⟩ := h.linked.owned hsource htransfer
      have hlt := (List.getElem?_eq_some_iff.mp hbegun).1
      exact .inr ⟨other, hmem, i, ticket, hcontrol, (List.getElem?_append_left hlt).symm.trans hticket⟩
  have hsessions : ∀ {i : Nat} {ticket : Ticket} {s : Nat} {session : TransferSession},
      (relay.begun ++ entries)[i]? = some (ticket, s) →
      (us.foldl Shared.run relay.shared).sessions[i]? = some session →
      session.inner.lastControlSequence = 0 ∨ (relay.begun[i]? = some (ticket, s) ∧
        ∃ found, relay.shared.sessions[i]? = some found ∧
          session.inner = innerAfter i us found.inner) := by
    intro i ticket s session hticket hsession
    cases hfound : relay.shared.sessions[i]? with
    | some found =>
      have hlt := (List.getElem?_eq_some_iff.mp hfound).1
      rw [← h.linked.sessions] at hlt
      cases (Shared.foldl_session hfound us).symm.trans hsession
      exact .inr ⟨(List.getElem?_append_left hlt).symm.trans hticket, found, rfl, rfl⟩
    | none =>
      left
      rw [hmeets.fresh hfound hsession]
      rfl
  refine ⟨h.linked.deliver hcopy hmeets, h.positive, fun hp => h.numbered (hpending hp),
    fun hp hq => h.unique (hpending hp) (hpending hq), ?_, ?_⟩
  · intro s i ticket session hticket hsession
    rcases hsessions hticket hsession with hzero | ⟨hbegun, found, hfound, hinner⟩
    · rw [hzero]
      exact h.positive s
    · rw [hinner]
      rcases innerAfter_latest hmeets i found.inner with ⟨hsame, -⟩ |
        ⟨sequence, opcode, other, hcontrol, -, -, hlatest⟩
      · rw [hsame]
        exact h.bounded hbegun hfound
      · rw [hlatest.1]
        exact (h.numbered (.inr ⟨copy, List.mem_of_getElem? hcopy, i, ticket, hcontrol, hbegun⟩)).2
  · intro s i ticket session n hticket hsession hp
    have hn := hpending hp
    rcases hsessions hticket hsession with hzero | ⟨hbegun, found, hfound, hinner⟩
    · rw [hzero]
      exact .inl (h.numbered hn).1
    · rw [hinner]
      rcases innerAfter_latest hmeets i found.inner with ⟨hsame, hopcode⟩ |
        ⟨sequence, opcode, other, hcontrol, hother, hnew, hlatest⟩
      · rw [Latest, hsame, hopcode]
        exact h.fresh hbegun hfound hn
      · have hle := horder copy us rfl i sequence opcode ticket s other hcontrol hbegun hother hnew
          n hn
        rw [hlatest.1]
        rcases Nat.lt_or_eq_of_le hle with hlt | heq
        · exact .inl hlt
        · have hsent : relay.Pending s (sequence, opcode) :=
            .inr ⟨copy, List.mem_of_getElem? hcopy, i, ticket, hcontrol, hbegun⟩
          rw [← h.unique hsent hn heq]
          exact .inr hlatest

theorem step (h : relay.Ordered) (hstep : OrderedStep relay label relay') : relay'.Ordered := by
  obtain ⟨hstep, horder⟩ := hstep
  have hlinked := h.linked.step hstep
  cases hstep with
  | client hl hclient | answer hresponse hticket hclient | giveUp error hclient =>
    exact h.calls hlinked (ClientWorld.numbers_step hclient) rfl rfl rfl
  | send hrpc => exact h.send hrpc
  | lose => exact h.lose _
  | deliver hcopy hmeets => exact h.deliver hcopy hmeets horder
  | revoke => exact h.revoke _ hlinked
  | clock => exact h.fewer hlinked rfl id rfl fun {i session} hsession =>
      ⟨session, hsession, rfl, rfl⟩

theorem no_replay (h : relay.Ordered) {k : Nat} (hcopy : relay.requests[k]? = some copy)
    (hmeets : relay.Meets copy us entries reply) : .replay ∉ us := by
  obtain ⟨ticket, rpc⟩ := copy
  have hcontrol : ∀ {i sequence opcode session us next}, rpc = .control i sequence opcode →
      relay.shared.sessions[i]? = some session →
      ServerState.control session i sequence opcode = (us, next) → .replay ∉ us := by
    intro i sequence opcode session us next hrpc hsession hserved
    subst hrpc
    obtain ⟨s, source, hsource, htransfer⟩ := h.linked.carried (List.mem_of_getElem? hcopy) rfl
    obtain ⟨ticket', hbegun⟩ := h.linked.owned hsource htransfer
    have hsent : relay.Pending s (sequence, opcode) :=
      .inr ⟨_, List.mem_of_getElem? hcopy, i, ticket', rfl, hbegun⟩
    have hfresh := h.fresh hbegun hsession hsent
    rcases control_cases hserved with ⟨-, -, rfl, -⟩ | ⟨hle, -, hother, -⟩ | ⟨-, rfl, -⟩
    · exact List.not_mem_nil
    · rcases hfresh with hlt | hlatest
      · exact absurd hlt (Nat.not_lt.mpr hle)
      · exact absurd ⟨hlatest.1.symm, hlatest.2⟩ hother
    · simp
  cases hmeets with
  | begun => simp
  | again | refused => exact List.not_mem_nil
  | session hrpc hlive hserves =>
    cases hserves with
    | begun | notBegun => cases hrpc
    | control hsession hserved | controlFailed hsession hserved => exact hcontrol rfl hsession hserved
    | status | paused | readFailed => exact List.not_mem_nil
    | range => simp

end Ordered

end Relay

open Relay in
theorem no_false_replay {now : Nat} {labels : List RelayLabel} {relay : Relay}
    (h : Run OrderedStep (.start now) labels relay) (copy : Copy) (us : List Update)
    (hserved : .deliver copy us ∈ labels) : .replay ∉ us := by
  obtain ⟨before, u, v, after, hbefore, hstep, -⟩ := h.split_at hserved
  have hordered := hbefore.invariant (fun hi hs => hi.step hs) (Ordered.start now)
  cases hstep.1 with
  | deliver hcopy hmeets => exact hordered.no_replay hcopy hmeets

namespace Relay

theorem OrderedStep.other {relay relay' : Relay} {label : RelayLabel} (h : Step relay label relay')
    (hother : ∀ copy us, label = .deliver copy us →
      ∀ i sequence opcode, copy.rpc ≠ .control i sequence opcode) : OrderedStep relay label relay' :=
  ⟨h, fun copy us hlabel i sequence opcode _ _ _ hrpc =>
    absurd hrpc (hother copy us hlabel i sequence opcode)⟩

theorem OrderedStep.quiet {relay relay' : Relay} {label : RelayLabel} (h : Step relay label relay')
    (hquiet : ∀ copy us, label ≠ .deliver copy us) : OrderedStep relay label relay' :=
  .other h fun copy us hlabel => absurd hlabel (hquiet copy us)

theorem no_false_replay_retried : ∃ (labels : List RelayLabel) (relay : Relay) (copy : Copy),
    Run OrderedStep (.start 0) labels relay ∧ copy.rpc = .control 0 1 .pause ∧
    .deliver copy [.control 0 1 .pause] ∈ labels ∧ .deliver copy [] ∈ labels ∧
    relay.answered.length = 2 ∧ ∀ us, .deliver copy us ∈ labels → Update.replay ∉ us := by
  have hbegun := (@Run.nil _ _ OrderedStep (.start 0))
    |>.snoc (.quiet (.rememberSolo (ClientWorld.registryFree_of_all rfl)) nofun)
    |>.snoc (.quiet (.spawnSolo (.sendControl .pause)) nofun)
    |>.snoc (.quiet (.client rfl (.source (t := 0) rfl rfl rfl rfl)) nofun)
    |>.snoc (.quiet (.client rfl (.source (t := 0) rfl rfl rfl rfl)) nofun)
    |>.snoc (.quiet (.client rfl (.source (t := 0) rfl rfl rfl rfl)) nofun)
    |>.snoc (.quiet (.send (t := 0) rfl) nofun)
    |>.snoc (.other (.deliver (k := 0) rfl
      (.begun rfl (fun i h => by cases h) (repeatedSecret 5) soloSession))
      (by rintro copy us heq i sequence opcode hrpc; cases heq; cases hrpc))
    |>.snoc (.quiet (.answer (t := 0) (List.mem_singleton_self _) rfl (.answer rfl rfl rfl rfl)) nofun)
    |>.snoc (.quiet (.client rfl (.source (t := 0) rfl rfl rfl rfl)) nofun)
    |>.snoc (.quiet (.client rfl (.source (t := 0) rfl rfl rfl rfl)) nofun)
  -- the first copy's answer is late, so the call sends the same control again
  have hsent := (hbegun.snoc (.quiet (.send (t := 0) rfl) nofun)).snoc
    (.quiet (.send (t := 0) rfl) nofun)
  have hordered := hsent.invariant (fun hi hs => hi.step hs) (Ordered.start 0)
  have hserved := hsent.snoc ⟨.deliver (k := 0) rfl (.session (i := 0) rfl
    (not_expired rfl (by decide)) (.control rfl rfl)), by
      rintro copy us heq i sequence opcode ticket s session hrpc - - - n hn
      cases heq
      cases hrpc
      exact (hordered.numbered hn).1⟩
  have hrun := (hserved.snoc ⟨.deliver (k := 0) rfl (.session (i := 0) rfl
    (not_expired rfl (by decide)) (.control rfl rfl)), by
      rintro copy us heq i sequence opcode ticket s session hrpc - hsession hlast n hn
      cases heq
      cases hrpc
      cases hsession
      exact absurd hlast (Nat.lt_irrefl 1)⟩).snoc
    (.quiet (.answer (t := 0) (List.mem_of_getElem? (i := 2) rfl) rfl (.answer rfl rfl rfl rfl)) nofun)
  exact ⟨_, _, _, hrun, rfl, List.mem_of_getElem? (i := 12) rfl, List.mem_of_getElem? (i := 13) rfl,
    rfl, fun us hus => no_false_replay hrun _ us hus⟩

/-! A pause is sent while the Complete of a read that met the end of the file waits to be sent. -/

theorem overtaken_complete_replayed : ∃ (labels : List RelayLabel) (relay : Relay)
    (copy : Copy) (us : List Update), Run Step (.start 0) (labels ++ [.deliver copy us]) relay ∧
      copy.rpc = .control 0 1 .complete ∧ .replay ∈ us ∧
      relay.rpc 0 = some (.control 0 1 .complete) := by
  have hread := (@Run.nil _ _ Step (.start 0))
    |>.snoc (.rememberSolo (ClientWorld.registryFree_of_all rfl))
    |>.snoc (.spawnSolo (.readAt 5 1))
    |>.snoc (.client rfl (.source (t := 0) rfl rfl rfl rfl))
    |>.snoc (.client rfl (.source (t := 0) rfl rfl rfl rfl))
    |>.snoc (.client rfl (.source (t := 0) rfl rfl rfl rfl))
    |>.snoc (.client rfl (.source (t := 0) rfl rfl rfl rfl))
    |>.snoc (.send (t := 0) rfl)
    |>.snoc (.deliver (k := 0) rfl (.begun rfl (fun i h => by cases h) (repeatedSecret 5) soloSession))
    |>.snoc (.answer (t := 0) (List.mem_singleton_self _) rfl (.answer rfl rfl rfl rfl))
    |>.snoc (.client rfl (.source (t := 0) rfl rfl rfl rfl))
    |>.snoc (.client rfl (.source (t := 0) rfl rfl rfl rfl))
    |>.snoc (.send (t := 0) rfl)
    |>.snoc (.deliver (k := 0) rfl (.session (i := 0) rfl (not_expired rfl (by decide))
      (.range [] rfl (by decide))))
    |>.snoc (.answer (t := 0) (List.mem_of_getElem? (i := 1) rfl) rfl (.answer rfl rfl rfl rfl))
    |>.snoc (.client rfl (.source (t := 0) rfl rfl rfl rfl))
    |>.snoc (.client rfl (.source (t := 0) rfl rfl rfl rfl))
  have hpause := hread
    |>.snoc (.spawnSolo (.sendControl .pause))
    |>.snoc (.client rfl (.source (t := 1) rfl rfl rfl rfl))
    |>.snoc (.client rfl (.source (t := 1) rfl rfl rfl rfl))
    |>.snoc (.client rfl (.source (t := 1) rfl rfl rfl rfl))
    |>.snoc (.send (t := 1) rfl)
    |>.snoc (.deliver (k := 0) rfl (.session (i := 0) rfl (not_expired rfl (by decide))
      (.control rfl rfl)))
    |>.snoc (.answer (t := 1) (List.mem_of_getElem? (i := 2) rfl) rfl (.answer rfl rfl rfl rfl))
    |>.snoc (.send (t := 0) rfl)
    |>.snoc (.deliver (k := 0) rfl (.session (i := 0) rfl (not_expired rfl (by decide))
      (.controlFailed rfl rfl)))
  exact ⟨_, _, _, _, hpause, rfl, List.mem_singleton_self _, rfl⟩

end Relay

end ClipFerry.Client
