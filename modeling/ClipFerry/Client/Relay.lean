import ClipFerry.Client.TransferGroup
import ClipFerry.Server.Effect

namespace ClipFerry.Client

open Protocol Server Transition VirtualTree

/-! The requests of one call in one of its waits: retries are copies with the same ticket. -/

structure Ticket where
  thread : Nat
  round : Nat
deriving DecidableEq

structure Copy where
  ticket : Ticket
  rpc : Rpc Nat

/-! Clients and a server that are joined by a network which delays, loses and reorders. A session
is named by its place in the table, and `begun` has the ticket and the source it was made for. -/

structure Relay where
  client : ClientWorld Nat
  shared : Shared
  now : Nat
  round : Nat → Nat
  requests : List Copy
  responses : List (Copy × Reply Nat)
  begun : List (Ticket × Nat)
  answered : List (Copy × Reply Nat)

inductive RelayLabel where
  | client (l : ClientLabel Nat)
  | send (t : Nat)
  | lose
  | deliver (copy : Copy) (us : List Update)
  | revoke (i : Nat)
  | clock

def RelayLabel.updates : RelayLabel → List Update
  | .deliver _ us => us
  | .revoke i => [.cancel i]
  | .client _ | .send _ | .lose | .clock => []

def Rpc.session {κ : Type} : Rpc κ → Option κ
  | .beginTransfer _ => none
  | .readRange c _ _ | .control c _ _ | .status c => some c

namespace Relay

def start (now : Nat) : Relay := ⟨.empty, .empty, now, fun _ => 0, [], [], [], []⟩

def rpc (relay : Relay) (t : Nat) : Option (Rpc Nat) := relay.client.threads[t]?.bind Thread.rpc

def ticket (relay : Relay) (t : Nat) : Ticket := ⟨t, relay.round t⟩

def Expired (relay : Relay) (i : Nat) : Prop :=
  ∀ session, relay.shared.sessions[i]? = some session → session.expiresAt ≤ relay.now

def Terminal (relay : Relay) (i : Nat) : Prop :=
  ∃ session, relay.shared.sessions[i]? = some session ∧ session.inner.state.active = false

def Over (relay : Relay) (i : Nat) : Prop :=
  ∃ session, relay.shared.sessions[i]? = some session ∧
    (session.inner.state.active = false ∨ session.expiresAt ≤ relay.now)

/-! How the server meets one copy of a request; a BeginTransfer that comes again finds its record
until the session has expired. -/

inductive Meets (relay : Relay) (copy : Copy) :
    List Update → List (Ticket × Nat) → Reply Nat → Prop
  | begun {source : Nat} (hrpc : copy.rpc = .beginTransfer source)
      (hfresh : ∀ i, relay.begun[i]? = some (copy.ticket, source) → relay.Expired i)
      (nonce : Secret) (session : TransferSession) :
      Meets relay copy [.create nonce session] [(copy.ticket, source)]
        (.began relay.shared.sessions.length)
  | again {source i : Nat} (hrpc : copy.rpc = .beginTransfer source)
      (hknown : relay.begun[i]? = some (copy.ticket, source)) : Meets relay copy [] [] (.began i)
  | refused (status : ResponseStatus) (hstatus : copy.rpc.session ≠ none → status ≠ .replay) :
      Meets relay copy [] [] (.failed (statusError status))
  | session {i : Nat} {us : List Update} {reply : Reply Nat} (hrpc : copy.rpc.session = some i)
      (hlive : ¬relay.Expired i) (h : Serves relay.shared copy.rpc us reply) :
      Meets relay copy us [] reply

inductive Step : Relay → RelayLabel → Relay → Prop
  | client {relay : Relay} {l : ClientLabel Nat} {client : ClientWorld Nat}
      (hl : l.answered = false) (h : ClientStep relay.client l client) :
      Step relay (.client l) { relay with client := client }
  | send {relay : Relay} {t : Nat} {rpc : Rpc Nat} (hrpc : relay.rpc t = some rpc) :
      Step relay (.send t) { relay with requests := relay.requests ++ [⟨relay.ticket t, rpc⟩] }
  | lose {relay : Relay} {k : Nat} :
      Step relay .lose { relay with requests := relay.requests.eraseIdx k }
  | deliver {relay : Relay} {k : Nat} {copy : Copy} {us : List Update}
      {entries : List (Ticket × Nat)} {reply : Reply Nat} (hcopy : relay.requests[k]? = some copy)
      (h : relay.Meets copy us entries reply) :
      Step relay (.deliver copy us)
        { relay with
          shared := us.foldl Shared.run relay.shared
          requests := relay.requests.eraseIdx k
          responses := relay.responses ++ [(copy, reply)]
          begun := relay.begun ++ entries }
  | revoke {relay : Relay} {i : Nat} :
      Step relay (.revoke i) { relay with shared := relay.shared.run (.cancel i) }
  | clock {relay : Relay} {now : Nat} (h : relay.now ≤ now) :
      Step relay .clock { relay with now := now }
  | answer {relay : Relay} {t : Nat} {copy : Copy} {reply : Reply Nat} {client : ClientWorld Nat}
      (hresponse : (copy, reply) ∈ relay.responses) (hticket : copy.ticket = relay.ticket t)
      (h : ClientStep relay.client (.answer t reply) client) :
      Step relay (.client (.answer t reply))
        { relay with
          client := client
          round := Function.update relay.round t (relay.round t + 1)
          answered := relay.answered ++ [(copy, reply)] }
  | giveUp {relay : Relay} {t : Nat} (error : IoError) {client : ClientWorld Nat}
      (h : ClientStep relay.client (.answer t (.failed error)) client) :
      Step relay (.client (.answer t (.failed error)))
        { relay with
          client := client
          round := Function.update relay.round t (relay.round t + 1) }

structure Linked (relay : Relay) : Prop where
  consistent : relay.client.Consistent
  sessions : relay.begun.length = relay.shared.sessions.length
  asked {copy : Copy} : copy ∈ relay.requests → copy.ticket.round ≤ relay.round copy.ticket.thread ∧
    (copy.ticket = relay.ticket copy.ticket.thread → relay.rpc copy.ticket.thread = some copy.rpc)
  responded {copy : Copy} {reply : Reply Nat} : (copy, reply) ∈ relay.responses →
    copy.ticket.round ≤ relay.round copy.ticket.thread ∧
    (copy.ticket = relay.ticket copy.ticket.thread → relay.rpc copy.ticket.thread = some copy.rpc)
  began {copy : Copy} {i : Nat} : (copy, .began i) ∈ relay.responses → ∃ s,
    copy.rpc = .beginTransfer s ∧ relay.begun[i]? = some (copy.ticket, s)
  owned {s i : Nat} {source : RemoteSource Nat} : relay.client.registry.sources[s]? = some source →
    source.transfer = some i → ∃ ticket, relay.begun[i]? = some (ticket, s)
  carried {copy : Copy} {i : Nat} : copy ∈ relay.requests → copy.rpc.session = some i →
    ∃ s, relay.client.Holds s fun source => source.transfer = some i

variable {relay relay' : Relay} {label : RelayLabel} {copy : Copy} {us : List Update}
  {entries : List (Ticket × Nat)} {reply : Reply Nat} {t s i : Nat} {pc : SourcePc Nat}
  {rpc : Rpc Nat} {client : ClientWorld Nat}

theorem Step.client_cases (h : Step relay label relay') :
    ((∀ l, label ≠ .client l) ∧ relay'.client = relay.client) ∨
    ∃ l, label = .client l ∧ ClientStep relay.client l relay'.client := by
  cases h with
  | client hl hclient => exact .inr ⟨_, rfl, hclient⟩
  | answer hresponse hticket hclient => exact .inr ⟨_, rfl, hclient⟩
  | giveUp error hclient => exact .inr ⟨_, rfl, hclient⟩
  | send | lose | deliver | revoke | clock =>
    refine .inl ⟨?_, rfl⟩
    intro l hl
    cases hl

theorem Step.threads_length (h : Step relay label relay') :
    relay.client.threads.length ≤ relay'.client.threads.length := by
  rcases h.client_cases with ⟨-, hsame⟩ | ⟨l, -, hclient⟩
  · rw [hsame]
  · exact hclient.threads_length

theorem rpc_iff : relay.rpc t = some rpc ↔ ∃ s pc, relay.client.At t s pc ∧
    pc.rpc s = some rpc := by
  constructor
  · intro h
    rw [Relay.rpc, Option.bind_eq_some_iff] at h
    obtain ⟨thread, hthread, h⟩ := h
    rw [Thread.rpc, Option.bind_eq_some_iff] at h
    obtain ⟨⟨s, pc⟩, hfocus, hrpc⟩ := h
    exact ⟨s, pc, ⟨thread, hthread, hfocus⟩, hrpc⟩
  · rintro ⟨s, pc, ⟨thread, hthread, hfocus⟩, hrpc⟩
    rw [Relay.rpc, hthread, Option.bind_some, Thread.rpc_eq hfocus, hrpc]

theorem rpc_of_at (hat : relay.client.At t s pc) : relay.rpc t = pc.rpc s := by
  obtain ⟨thread, hthread, hfocus⟩ := hat
  rw [Relay.rpc, hthread, Option.bind_some, Thread.rpc_eq hfocus]

theorem rpc_waiting {l : ClientLabel Nat} (h : ClientStep relay.client l client)
    (hother : ∀ reply, l ≠ .answer t reply) (hrpc : relay.rpc t = some rpc)
    (hclient : relay'.client = client) : relay'.rpc t = some rpc := by
  obtain ⟨s, pc, hat, hpc⟩ := rpc_iff.mp hrpc
  exact rpc_iff.mpr ⟨s, pc, hclient ▸ h.waiting hother hat (by rw [hpc]; nofun), hpc⟩

theorem credentials_of_rpc {c : Nat} (hrpc : pc.rpc s = some rpc) (hsession : rpc.session = some c) :
    pc.credentials = some c := by
  cases pc <;> cases hrpc <;> exact hsession

theorem begins_of_rpc (hbegins : pc.begins = true) (hrpc : pc.rpc s = some rpc) :
    rpc = .beginTransfer s := by
  cases pc with
  | beginning purpose =>
    cases hrpc
    rfl
  | _ => cases hbegins

theorem Meets.length (h : relay.Meets copy us entries reply) :
    (us.foldl Shared.run relay.shared).sessions.length =
      relay.shared.sessions.length + entries.length := by
  obtain ⟨ticket, rpc⟩ := copy
  cases h with
  | begun => simp [Shared.run, Shared.create]
  | again | refused => rfl
  | session hrpc hlive h =>
    cases h with
    | begun | notBegun => cases hrpc
    | @control _ _ _ _ us status hsession h | @controlFailed _ _ _ _ us status hsession h =>
      refine Shared.length_foldl _ fun u hu => ?_
      rcases control_cases h with ⟨-, -, rfl, -⟩ | ⟨-, rfl, -⟩ | ⟨-, rfl, -⟩
      · cases hu
      · rw [List.mem_singleton.mp hu]
        rfl
      · rw [List.mem_singleton.mp hu]
        rfl
    | status | paused | readFailed => rfl
    | @range i offset _ session bytes => exact @Shared.length_run relay.shared (.serve _ _ _) rfl

theorem Meets.began (h : relay.Meets copy us entries reply)
    (hlength : relay.begun.length = relay.shared.sessions.length) (hreply : reply = .began i) :
    ∃ s, copy.rpc = .beginTransfer s ∧
      (relay.begun ++ entries)[i]? = some (copy.ticket, s) := by
  obtain ⟨ticket, rpc⟩ := copy
  cases h with
  | @begun source hrpc =>
    cases hreply
    refine ⟨source, hrpc, ?_⟩
    rw [← hlength, List.getElem?_append_right (Nat.le_refl _), Nat.sub_self]
    rfl
  | @again source j hrpc hknown =>
    cases hreply
    exact ⟨source, hrpc, by rw [List.append_nil, hknown]⟩
  | refused => cases hreply
  | session hrpc hlive h =>
    cases h with
    | begun => cases hrpc
    | notBegun | control | controlFailed | status | paused | range | readFailed => cases hreply

theorem Meets.applies (h : relay.Meets copy us entries reply) (i : Nat) :
    (∀ inner, (innerAfter i us inner).state = inner.state ∧
      (innerAfter i us inner).lastControlSequence = inner.lastControlSequence ∧
      (innerAfter i us inner).lastControlOpcode = inner.lastControlOpcode) ∨
    ∃ sequence opcode session, copy.rpc = .control i sequence opcode ∧
      relay.shared.sessions[i]? = some session ∧ session.inner.lastControlSequence < sequence ∧
      us = [.control i sequence opcode] := by
  obtain ⟨ticket, rpc⟩ := copy
  have hcontrol : ∀ {j sequence opcode session us next}, rpc = .control j sequence opcode →
      relay.shared.sessions[j]? = some session →
      ServerState.control session j sequence opcode = (us, next) →
      (∀ inner, (innerAfter i us inner).state = inner.state ∧
        (innerAfter i us inner).lastControlSequence = inner.lastControlSequence ∧
        (innerAfter i us inner).lastControlOpcode = inner.lastControlOpcode) ∨
      ∃ sequence opcode session, rpc = .control i sequence opcode ∧
        relay.shared.sessions[i]? = some session ∧ session.inner.lastControlSequence < sequence ∧
        us = [.control i sequence opcode] := by
    intro j sequence opcode session us next hrpc hsession h
    rcases control_cases h with ⟨-, -, rfl, -⟩ | ⟨-, rfl, -⟩ | ⟨hnew, rfl, -⟩
    · exact .inl fun inner => ⟨rfl, rfl, rfl⟩
    · exact .inl fun inner => ⟨rfl, rfl, rfl⟩
    · by_cases hji : j = i
      · subst hji
        exact .inr ⟨sequence, opcode, session, hrpc, hsession, hnew, rfl⟩
      · exact .inl fun inner => by simp [innerAfter, Update.onInner, hji]
  cases h with
  | begun | again | refused => exact .inl fun inner => ⟨rfl, rfl, rfl⟩
  | session hrpc hlive h =>
    cases h with
    | begun | notBegun => cases hrpc
    | control hsession h | controlFailed hsession h => exact hcontrol rfl hsession h
    | status | paused | readFailed => exact .inl fun inner => ⟨rfl, rfl, rfl⟩
    | @range j offset requested session bytes =>
      refine .inl fun inner => ?_
      rw [innerAfter, List.foldl_cons, List.foldl_nil, Update.onInner]
      split <;> exact ⟨rfl, rfl, rfl⟩

theorem Meets.acknowledges {sequence : Nat} {opcode : Opcode} {status : TransferStatus}
    (h : relay.Meets copy us entries reply) (hrpc : copy.rpc = .control i sequence opcode)
    (hreply : reply = .status status) : ∃ session, relay.shared.sessions[i]? = some session ∧
      (innerAfter i us session.inner).lastControlSequence = sequence ∧
      (innerAfter i us session.inner).lastControlOpcode = some opcode := by
  obtain ⟨ticket, rpc⟩ := copy
  subst hreply
  cases h with
  | session hsession hlive h =>
    cases h with
    | @control j _ _ session us status hfound h =>
      cases hrpc
      refine ⟨session, hfound, ?_⟩
      rcases control_cases h with ⟨hsequence, hopcode, rfl, -⟩ | ⟨-, -, -, hnext⟩ | ⟨-, rfl, -⟩
      · exact ⟨hsequence.symm, hopcode⟩
      · cases hnext
      · simp [innerAfter, Update.onInner, TransferInner.accept]
    | status => cases hrpc

namespace Linked

theorem start (now : Nat) : (start now).Linked where
  consistent := .empty
  sessions := rfl
  asked h := by cases h
  responded h := by cases h
  began h := by cases h
  owned h := by cases h
  carried h := by cases h

theorem moves (h : relay.Linked) {l : ClientLabel Nat} (hl : l.answered = false)
    (hstep : ClientStep relay.client l client) : ({ relay with client := client } : Relay).Linked where
  consistent := h.consistent.step hstep
  sessions := h.sessions
  asked hcopy := by
    refine (h.asked hcopy).imp_right fun hasked hticket => rpc_waiting hstep ?_ (hasked hticket) rfl
    rintro reply rfl
    cases hl
  responded hcopy := by
    refine (h.responded hcopy).imp_right fun hasked hticket =>
      rpc_waiting hstep ?_ (hasked hticket) rfl
    rintro reply rfl
    cases hl
  began hcopy := h.began hcopy
  owned {s i source} hsource htransfer := by
    rcases hstep.transfer ⟨source, hsource, htransfer⟩ with ⟨found, hfound, hsame⟩ |
      ⟨t, pc, rfl, -⟩
    · exact h.owned hfound hsame
    · cases hl
  carried hcopy hsession := by
    obtain ⟨s, hholds⟩ := h.carried hcopy hsession
    exact ⟨s, h.consistent.holds_transfer hstep hholds⟩

theorem send (h : relay.Linked) (hrpc : relay.rpc t = some rpc) :
    ({ relay with requests := relay.requests ++ [⟨relay.ticket t, rpc⟩] } : Relay).Linked where
  consistent := h.consistent
  sessions := h.sessions
  asked hcopy := by
    rcases List.mem_append.mp hcopy with hold | hnew
    · exact h.asked hold
    · cases List.mem_singleton.mp hnew
      exact ⟨Nat.le_refl _, fun _ => hrpc⟩
  responded hcopy := h.responded hcopy
  began hcopy := h.began hcopy
  owned hsource htransfer := h.owned hsource htransfer
  carried hcopy hsession := by
    rcases List.mem_append.mp hcopy with hold | hnew
    · exact h.carried hold hsession
    · cases List.mem_singleton.mp hnew
      obtain ⟨s, pc, hat, hpc⟩ := rpc_iff.mp hrpc
      exact ⟨s, h.consistent.carried hat (credentials_of_rpc hpc hsession)⟩

theorem lose (h : relay.Linked) (k : Nat) :
    ({ relay with requests := relay.requests.eraseIdx k } : Relay).Linked where
  consistent := h.consistent
  sessions := h.sessions
  asked hcopy := h.asked (List.mem_of_mem_eraseIdx hcopy)
  responded hcopy := h.responded hcopy
  began hcopy := h.began hcopy
  owned hsource htransfer := h.owned hsource htransfer
  carried hcopy hsession := h.carried (List.mem_of_mem_eraseIdx hcopy) hsession

theorem deliver (h : relay.Linked) {k : Nat} (hcopy : relay.requests[k]? = some copy)
    (hmeets : relay.Meets copy us entries reply) :
    ({ relay with
      shared := us.foldl Shared.run relay.shared
      requests := relay.requests.eraseIdx k
      responses := relay.responses ++ [(copy, reply)]
      begun := relay.begun ++ entries } : Relay).Linked where
  consistent := h.consistent
  sessions := by
    rw [List.length_append, h.sessions]
    exact hmeets.length.symm
  asked hmem := h.asked (List.mem_of_mem_eraseIdx hmem)
  responded hmem := by
    rcases List.mem_append.mp hmem with hold | hnew
    · exact h.responded hold
    · cases List.mem_singleton.mp hnew
      exact h.asked (List.mem_of_getElem? hcopy)
  began hmem := by
    rcases List.mem_append.mp hmem with hold | hnew
    · obtain ⟨s, hrpc, hbegun⟩ := h.began hold
      exact ⟨s, hrpc, (List.getElem?_append_left (List.getElem?_eq_some_iff.mp hbegun).1).trans hbegun⟩
    · cases List.mem_singleton.mp hnew
      exact hmeets.began h.sessions rfl
  owned hsource htransfer := by
    obtain ⟨ticket, hbegun⟩ := h.owned hsource htransfer
    exact ⟨ticket, (List.getElem?_append_left (List.getElem?_eq_some_iff.mp hbegun).1).trans hbegun⟩
  carried hmem hsession := h.carried (List.mem_of_mem_eraseIdx hmem) hsession

theorem replied (h : relay.Linked) (hstep : ClientStep relay.client (.answer t reply) client)
    (hbegan : ∀ i, reply = .began i → ∃ copy, (copy, .began i) ∈ relay.responses ∧
      copy.ticket = relay.ticket t) {answered : List (Copy × Reply Nat)} :
    ({ relay with
      client := client
      round := Function.update relay.round t (relay.round t + 1)
      answered := answered } : Relay).Linked := by
  have hrounds : ∀ u, relay.round u ≤ Function.update relay.round t (relay.round t + 1) u := by
    intro u
    by_cases hut : u = t
    · rw [hut, Function.update_self]
      exact Nat.le_succ _
    · rw [Function.update_of_ne hut]
  have hasked : ∀ {copy : Copy}, (copy.ticket.round ≤ relay.round copy.ticket.thread ∧
      (copy.ticket = relay.ticket copy.ticket.thread →
        relay.rpc copy.ticket.thread = some copy.rpc)) →
      copy.ticket.round ≤ Function.update relay.round t (relay.round t + 1) copy.ticket.thread ∧
      (copy.ticket = ⟨copy.ticket.thread,
        Function.update relay.round t (relay.round t + 1) copy.ticket.thread⟩ →
        (client.threads[copy.ticket.thread]?.bind Thread.rpc) = some copy.rpc) := by
    intro copy hcopy
    refine ⟨Nat.le_trans hcopy.1 (hrounds _), fun hticket => ?_⟩
    have hround := congrArg Ticket.round hticket
    by_cases hut : copy.ticket.thread = t
    · rw [hut, Function.update_self] at hround
      have hle := hcopy.1
      rw [hut] at hle
      exact absurd (hround ▸ hle) (Nat.not_succ_le_self _)
    · rw [Function.update_of_ne hut] at hticket
      refine @rpc_waiting relay { relay with client := client } _ _ _ _ hstep ?_
        (hcopy.2 hticket) rfl
      rintro other heq
      cases heq
      exact hut rfl
  refine ⟨h.consistent.step hstep, h.sessions, fun hcopy => hasked (h.asked hcopy),
    fun hcopy => hasked (h.responded hcopy), fun hcopy => h.began hcopy, ?_, ?_⟩
  · intro s i source hsource htransfer
    rcases hstep.transfer ⟨source, hsource, htransfer⟩ with ⟨found, hfound, hsame⟩ |
      ⟨u, pc, heq, hat, hbegins⟩
    · exact h.owned hfound hsame
    · cases heq
      obtain ⟨copy, hresponse, hticket⟩ := hbegan i rfl
      obtain ⟨r, hrpc, hbegun⟩ := h.began hresponse
      have hthread : copy.ticket.thread = t := congrArg Ticket.thread hticket
      have hasks := (h.responded hresponse).2 (by rw [hthread]; exact hticket)
      rw [hthread, rpc_of_at hat, hrpc] at hasks
      cases begins_of_rpc hbegins hasks
      exact ⟨_, hbegun⟩
  · intro copy i hcopy hsession
    obtain ⟨s, hholds⟩ := h.carried hcopy hsession
    exact ⟨s, h.consistent.holds_transfer hstep hholds⟩

theorem step (h : relay.Linked) (hstep : Step relay label relay') : relay'.Linked := by
  cases hstep with
  | client hl hclient => exact h.moves hl hclient
  | send hrpc => exact h.send hrpc
  | lose => exact h.lose _
  | deliver hcopy hmeets => exact h.deliver hcopy hmeets
  | @revoke i =>
    have hlength : (relay.shared.run (.cancel i)).sessions.length = relay.shared.sessions.length :=
      Shared.length_run rfl
    exact ⟨h.consistent, h.sessions.trans hlength.symm, h.asked, h.responded, h.began, h.owned,
      h.carried⟩
  | clock => exact ⟨h.consistent, h.sessions, h.asked, h.responded, h.began, h.owned, h.carried⟩
  | answer hresponse hticket hclient =>
    refine h.replied hclient ?_
    rintro i rfl
    exact ⟨_, hresponse, hticket⟩
  | giveUp error hclient =>
    refine h.replied hclient ?_
    intro i hfailed
    cases hfailed

theorem holds_step (h : relay.Linked) (hstep : Step relay label relay')
    (hheld : relay.client.Holds s fun source => source.transfer = some i) :
    relay'.client.Holds s fun source => source.transfer = some i := by
  rcases hstep.client_cases with ⟨-, hsame⟩ | ⟨l, -, hclient⟩
  · rw [hsame]
    exact hheld
  · exact h.consistent.holds_transfer hclient hheld

end Linked

theorem Step.shared_eq (h : Step relay label relay') :
    relay'.shared = label.updates.foldl Shared.run relay.shared := by cases h <;> rfl

theorem Step.now_le (h : Step relay label relay') : relay.now ≤ relay'.now := by
  cases h with
  | clock hlater => exact hlater
  | client | send | lose | deliver | revoke | answer | giveUp => exact Nat.le_refl _

theorem Step.session (h : Step relay label relay') {session : TransferSession}
    (hsession : relay.shared.sessions[i]? = some session) :
    relay'.shared.sessions[i]? =
      some { session with inner := innerAfter i label.updates session.inner } := by
  rw [h.shared_eq]
  exact Shared.foldl_session hsession _

theorem Meets.fresh (h : relay.Meets copy us entries reply)
    (hnone : relay.shared.sessions[i]? = none) {session : TransferSession}
    (hsession : (us.foldl Shared.run relay.shared).sessions[i]? = some session) :
    session.inner = .fresh := by
  cases h with
  | begun hrpc hfresh nonce created =>
    exact @Shared.run_fresh relay.shared i session hnone (.create nonce created) hsession
  | again | refused => cases hnone.symm.trans hsession
  | session hrpc hlive hserves =>
    have hlength := (Meets.session hrpc hlive hserves).length
    have hlt := (List.getElem?_eq_some_iff.mp hsession).1
    rw [hlength] at hlt
    exact absurd hlt (Nat.not_lt.mpr (List.getElem?_eq_none_iff.mp hnone))

theorem Step.fresh (h : Step relay label relay') (hnone : relay.shared.sessions[i]? = none)
    {session : TransferSession} (hsession : relay'.shared.sessions[i]? = some session) :
    session.inner = .fresh := by
  cases h with
  | client | send | lose | clock | answer | giveUp => cases hnone.symm.trans hsession
  | @revoke j => exact @Shared.run_fresh relay.shared i session hnone (.cancel j) hsession
  | deliver hcopy hmeets => exact hmeets.fresh hnone hsession

theorem Step.created (h : Step relay label relay') (hlinked : relay.Linked)
    (hi : relay.shared.sessions.length ≤ i) (hi' : i < relay'.shared.sessions.length) :
    ∃ copy nonce session source, label = .deliver copy [.create nonce session] ∧
      copy ∈ relay.requests ∧ copy.rpc = .beginTransfer source ∧
      relay'.begun[i]? = some (copy.ticket, source) := by
  cases h with
  | client | send | lose | clock | answer | giveUp => exact absurd hi' (Nat.not_lt.mpr hi)
  | @revoke j =>
    rw [Shared.length_run rfl] at hi'
    exact absurd hi' (Nat.not_lt.mpr hi)
  | @deliver k copy us entries reply hcopy hmeets =>
    have hlength := hmeets.length
    cases hmeets with
    | @begun source hrpc hfresh nonce session =>
      simp only [List.length_singleton] at hlength
      simp only [hlength] at hi'
      obtain rfl : i = relay.begun.length := by rw [hlinked.sessions]; omega
      exact ⟨copy, nonce, session, source, rfl, List.mem_of_getElem? hcopy, hrpc,
        List.getElem?_concat_length⟩
    | again | refused | session =>
      simp only [List.length_nil, Nat.add_zero] at hlength
      simp only [hlength] at hi'
      exact absurd hi' (Nat.not_lt.mpr hi)

theorem Terminal.step (h : relay.Terminal i) (hstep : Step relay label relay') :
    relay'.Terminal i := by
  obtain ⟨session, hsession, hinactive⟩ := h
  exact ⟨_, hstep.session hsession, innerAfter_inactive hinactive⟩

theorem Terminal.over (h : relay.Terminal i) : relay.Over i := by
  obtain ⟨session, hsession, hinactive⟩ := h
  exact ⟨session, hsession, .inl hinactive⟩

theorem Over.step (h : relay.Over i) (hstep : Step relay label relay') : relay'.Over i := by
  obtain ⟨session, hsession, hover⟩ := h
  refine ⟨_, hstep.session hsession, hover.imp innerAfter_inactive fun hexpired => ?_⟩
  exact Nat.le_trans hexpired hstep.now_le

theorem not_expired {session : TransferSession} (hsession : relay.shared.sessions[i]? = some session)
    (hlive : relay.now < session.expiresAt) : ¬relay.Expired i :=
  fun h => absurd (h session hsession) (Nat.not_le.mpr hlive)

def soloManifest : OfferManifest := ⟨repeatedId 0, [⟨repeatedId 1, .basic ['a'] 5⟩], 0⟩

def soloSession : TransferSession :=
  ⟨⟨repeatedSecret 7⟩, repeatedId 0, repeatedId 1, repeatedId 2, repeatedSecret 3, repeatedSecret 4,
    1, .fresh⟩

def soloCall (task : SourceTask) : Thread Nat := .source 0 task (.start task)

theorem Step.spawnSolo {relay : Relay} (task : SourceTask) :
    Step relay (.client (.spawn (soloCall task))) { relay with
      client := { relay.client with threads := relay.client.threads ++ [soloCall task] } } :=
  .client rfl (.spawn rfl)

theorem Step.rememberSolo {relay : Relay} (hfree : relay.client.RegistryFree) :
    Step relay (.client .remember) { relay with
      client := { relay.client with
        registry := relay.client.registry.rememberSource
          (.new 0 soloManifest ⟨repeatedId 1, .basic ['a'] 5⟩) } } :=
  .client rfl (.remember 0 soloManifest ⟨repeatedId 1, .basic ['a'] 5⟩ hfree)

end Relay

end ClipFerry.Client
