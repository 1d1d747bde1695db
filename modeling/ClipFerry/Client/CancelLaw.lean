import ClipFerry.Client.EndingControl

namespace ClipFerry.Client

open Protocol Server Transition

def SourcePc.guards (c : Nat) : SourcePc Nat → Bool
  | .checkCancelled _ d | .allocateCancel _ d | .sendCancel _ d _ => c = d
  | _ => false

def SourcePc.cancels {κ : Type} : SourcePc κ → Bool
  | .start task => task = .cancelLocalFirst
  | .allocateLocal _ | .done _ => true
  | .controlling _ _ opcode => opcode = .cancel
  | _ => false

def SourcePc.succeeded {κ : Type} : SourcePc κ → Bool
  | .done (.ok _) => true
  | _ => false

namespace SourcePc

variable {κ : Type}

theorem guards_advance {pc pc' : SourcePc Nat} {source source' : RemoteSource Nat} {paused : Bool}
    {c : Nat} (hguards : pc.guards c = true)
    (h : pc.advance paused true source = some (source', pc')) : pc'.guards c = true := by
  cases pc with
  | checkCancelled | allocateCancel =>
    cases h
    exact hguards
  | sendCancel => cases h
  | _ => cases hguards

theorem guards_answer {pc pc' : SourcePc Nat} {source source' : RemoteSource Nat}
    {reply : Reply Nat} {c : Nat} (hguards : pc.guards c = true)
    (h : pc.answer source reply = some (source', pc')) :
    ∃ purpose sequence, pc = .sendCancel purpose c sequence ∧
      ((∃ status, reply = .status status) ∨ ∃ error, reply = .failed error) := by
  cases pc with
  | sendCancel purpose d sequence =>
    obtain rfl : c = d := by simpa [guards] using hguards
    cases reply with
    | status status => exact ⟨purpose, sequence, rfl, .inl ⟨status, rfl⟩⟩
    | failed error => exact ⟨purpose, sequence, rfl, .inr ⟨error, rfl⟩⟩
    | began | range => cases h
  | checkCancelled | allocateCancel => cases h
  | _ => cases hguards

theorem advance_cancels {pc pc' : SourcePc κ} {source source' : RemoteSource κ}
    {paused cancelled : Bool} (hcancels : pc.cancels = true)
    (h : pc.advance paused cancelled source = some (source', pc')) :
    pc'.cancels = true ∧ pc'.succeeded = false := by
  cases pc with
  | start task =>
    simp only [cancels, decide_eq_true_eq] at hcancels
    subst hcancels
    simp only [advance] at h
    split at h
    · cases h
    · split at h <;> cases h <;> exact ⟨rfl, rfl⟩
  | allocateLocal c =>
    cases h
    exact ⟨rfl, rfl⟩
  | controlling | done => cases h
  | _ => cases hcancels

theorem answer_cancels {pc pc' : SourcePc κ} {source source' : RemoteSource κ} {reply : Reply κ}
    (hcancels : pc.cancels = true) (h : pc.answer source reply = some (source', pc')) :
    pc'.cancels = true ∧ (pc'.succeeded = false ∨
      ∃ c sequence status, pc = .controlling c sequence .cancel ∧ reply = .status status) := by
  cases pc with
  | controlling c sequence opcode =>
    simp only [cancels, decide_eq_true_eq] at hcancels
    subst hcancels
    cases reply with
    | status status =>
      cases h
      exact ⟨rfl, .inr ⟨c, sequence, status, rfl, rfl⟩⟩
    | failed error =>
      cases h
      exact ⟨rfl, .inl rfl⟩
    | began | range => cases h
  | start | allocateLocal | done => cases reply <;> cases h
  | _ => cases hcancels

end SourcePc

namespace GroupPc

variable {κ : Type}

def cancels : GroupPc κ → Bool
  | .controlling _ _ pc _ _ => pc.cancels
  | .aggregating _ _ _ _ _ => false
  | _ => true

def flagged : GroupPc κ → Bool
  | .storing _ | .controlling _ _ _ _ _ | .aggregating _ _ _ _ _ | .done (.ok _) => true
  | .start | .scanning _ _ | .cancelFlag _ | .done (.error _) => false

def Owes (s : Nat) : GroupPc κ → Prop
  | .storing all => s ∈ all
  | .controlling _ current pc rest total =>
    total.remoteAcknowledged = false ∨ s ∈ rest ∨ (s = current ∧ pc.succeeded = false)
  | .done (.ok total) => total.remoteAcknowledged = false
  | _ => False

variable {registry registry' : Registry κ} {pc pc' : GroupPc κ} {s : Nat} {sub sub' : SourcePc κ}

theorem advance_cancelAll (hcancels : pc.cancels = true)
    (h : pc.advance registry .cancelAll = some (registry', pc')) : pc'.cancels = true ∧
    (pc'.flagged = false ∨ (pc.flagged = true ∧ ∀ s, pc.Owes s → pc'.Owes s) ∨
      ∃ all, pc = .cancelFlag all ∧ pc' = .storing all ∧ registry'.groupCancelled = true) := by
  cases pc with
  | start =>
    cases h
    exact ⟨rfl, .inl rfl⟩
  | scanning todo found =>
    cases todo with
    | nil => cases found <;> cases h <;> exact ⟨rfl, .inl rfl⟩
    | cons s todo =>
      simp only [advance] at h
      split at h
      · cases h
        exact ⟨rfl, .inl rfl⟩
      · split at h <;> cases h
        exact ⟨rfl, .inl rfl⟩
  | cancelFlag all =>
    cases h
    exact ⟨rfl, .inr (.inr ⟨all, rfl, rfl, rfl⟩)⟩
  | storing all =>
    cases h
    cases all with
    | nil => exact ⟨rfl, .inr (.inl ⟨rfl, fun s howes => by cases howes⟩)⟩
    | cons x rest =>
      refine ⟨rfl, .inr (.inl ⟨rfl, fun s howes => ?_⟩)⟩
      rcases List.mem_cons.mp howes with rfl | hrest
      · exact .inr (.inr ⟨rfl, rfl⟩)
      · exact .inr (.inl hrest)
  | controlling all current sub rest total =>
    cases sub with
    | done result =>
      cases result with
      | ok status =>
        cases h
        cases rest with
        | nil =>
          refine ⟨rfl, .inr (.inl ⟨rfl, fun s howes => ?_⟩)⟩
          rcases howes with hfailed | hrest | ⟨-, hnot⟩
          · exact hfailed
          · cases hrest
          · cases hnot
        | cons x rest =>
          refine ⟨rfl, .inr (.inl ⟨rfl, fun s howes => ?_⟩)⟩
          rcases howes with hfailed | hrest | ⟨-, hnot⟩
          · exact .inl hfailed
          · rcases List.mem_cons.mp hrest with rfl | hrest
            · exact .inr (.inr ⟨rfl, rfl⟩)
            · exact .inr (.inl hrest)
          · cases hnot
      | error error =>
        cases h
        cases rest with
        | nil => exact ⟨rfl, .inr (.inl ⟨rfl, fun _ _ => rfl⟩)⟩
        | cons x rest => exact ⟨rfl, .inr (.inl ⟨rfl, fun _ _ => .inl rfl⟩)⟩
    | _ => cases h
  | aggregating all current sub rest total => cases hcancels
  | done result => cases h

theorem setFocus_cancels (hcancels : pc.cancels = true)
    (hfocus : (Thread.group .cancelAll pc).focus = some (s, sub))
    (h : (Thread.group .cancelAll pc).setFocus sub' = .group .cancelAll pc') :
    ∃ all rest total, pc = .controlling all s sub rest total ∧
      pc' = .controlling all s sub' rest total := by
  rcases setFocus_cases hfocus h with hcontrolling | ⟨all, rest, total, rfl, rfl⟩
  · exact hcontrolling
  · cases hcancels

end GroupPc

def RelayLabel.quiet : RelayLabel → Bool
  | .client (.group _) | .client (.answer _ _) | .deliver _ _ => false
  | _ => true

namespace Relay

def Guarded (relay : Relay) (i : Nat) : Prop := ∃ t s pc, relay.client.At t s pc ∧ pc.guards i = true

def Awaited (relay : Relay) (i : Nat) : Prop :=
  ∃ t s, relay.begun[i]? = some (relay.ticket t, s) ∧ relay.rpc t = some (.beginTransfer s)

def Owed (relay : Relay) (i : Nat) (P : Nat → Prop) : Prop :=
  ∃ s, P s ∧ relay.client.Holds s fun source => source.transfer = some i

/-! No session is out of reach of cancel_all when it publishes its flag, or gets there later. -/

structure Reached (relay : Relay) (label : RelayLabel) : Prop where
  collected {t : Nat} {all : List Nat} : label = .client (.group t) →
    relay.client.threads[t]? = some (.group .cancelAll (.cancelFlag all)) →
    ∀ i < relay.shared.sessions.length,
      relay.Over i ∨ relay.Guarded i ∨ relay.Awaited i ∨ relay.Owed i (· ∈ all)
  created {copy : Copy} {nonce : Secret} {session : TransferSession} :
    relay.client.registry.groupCancelled = true → label = .deliver copy [.create nonce session] →
    copy.ticket = relay.ticket copy.ticket.thread
  answered {t i s : Nat} {reply : Reply Nat} : relay.client.registry.groupCancelled = true →
    label = .client (.answer t reply) → relay.begun[i]? = some (relay.ticket t, s) →
    reply = .began i ∨ relay.Over i
  cancelled {t s i sequence : Nat} {purpose : Purpose} {error : IoError} :
    label = .client (.answer t (.failed error)) →
    relay.client.At t s (.sendCancel purpose i sequence) → relay.Over i

def CancellingStep (relay : Relay) (label : RelayLabel) (relay' : Relay) : Prop :=
  Step relay label relay' ∧ relay.Reached label

def Quiescent (relay : Relay) : Prop :=
  relay.requests = [] ∧ ∀ thread ∈ relay.client.threads, thread.resting = true

structure Cancelling (relay : Relay) : Prop where
  linked : relay.Linked
  ending : relay.Ending .cancel
  flagged {t : Nat} {pc : GroupPc Nat} :
    relay.client.threads[t]? = some (.group .cancelAll pc) → pc.cancels = true ∧
    (pc.flagged = true → relay.client.registry.groupCancelled = true)
  covered {t i : Nat} {pc : GroupPc Nat} :
    relay.client.threads[t]? = some (.group .cancelAll pc) → pc.flagged = true →
    i < relay.shared.sessions.length →
    relay.Over i ∨ relay.Guarded i ∨ relay.Awaited i ∨ relay.Owed i (GroupPc.Owes · pc)

variable {relay relay' : Relay} {label : RelayLabel} {i t : Nat} {pc : GroupPc Nat}

theorem Cancelling.terminal (h : relay.Cancelling) {copy : Copy} {status : TransferStatus}
    {s sequence : Nat} {pc : SourcePc Nat} (hresponse : (copy, .status status) ∈ relay.responses)
    (hticket : copy.ticket = relay.ticket t) (hat : relay.client.At t s pc)
    (hrpc : pc.rpc s = some (.control i sequence .cancel)) : relay.Terminal i := by
  obtain ⟨ticket, rpc⟩ := copy
  obtain rfl : ticket = relay.ticket t := hticket
  have hasks := (h.linked.responded hresponse).2 rfl
  rw [show (relay.ticket t).thread = t from rfl, rpc_of_at hat, hrpc] at hasks
  cases hasks
  exact h.ending.acknowledged ⟨status, List.mem_append_left _ hresponse⟩

theorem guarded_step (h : relay.Cancelling) (hstep : CancellingStep relay label relay')
    (hcancelled : relay.client.registry.groupCancelled = true ∨ ∃ u, label = .client (.group u))
    (hguarded : relay.Guarded i) : relay'.Over i ∨ relay'.Guarded i := by
  obtain ⟨hstep, hreached⟩ := hstep
  obtain ⟨t, s, pc, hat, hguards⟩ := hguarded
  have hmoved : ∀ {l client}, label = .client l → relay'.client = client →
      ClientStep relay.client l client → (∀ reply, l ≠ .answer t reply) →
      relay'.Over i ∨ relay'.Guarded i := by
    intro l client hlabel hclient hclientStep hother
    subst hclient
    cases hclientStep.moved hat with
    | stays hat => exact .inr ⟨t, s, pc, hat, hguards⟩
    | finished hl hpc =>
      subst hpc
      cases hguards
    | source hl hsource hadvance hat' =>
      subst hl hlabel
      rcases hcancelled with hcancelled | ⟨u, heq⟩
      · rw [hcancelled] at hadvance
        exact .inr ⟨t, s, _, hat', SourcePc.guards_advance hguards hadvance⟩
      · cases heq
    | answer hl => exact absurd hl (hother _)
  have hanswered : ∀ {u reply client}, label = .client (.answer u reply) →
      relay'.client = client → ClientStep relay.client (.answer u reply) client →
      (∀ purpose sequence status, u = t → pc = .sendCancel purpose i sequence →
        reply = .status status → relay.Terminal i) → relay'.Over i ∨ relay'.Guarded i := by
    intro u reply client hlabel hclient hclientStep hterminal
    by_cases hut : u = t
    · subst hut
      subst hclient
      obtain ⟨source, source', pc', hsource, hanswer, hat'⟩ := hclientStep.answered hat
      obtain ⟨purpose, sequence, rfl, ⟨status, rfl⟩ | ⟨error, rfl⟩⟩ :=
        SourcePc.guards_answer hguards hanswer
      · exact .inl ((hterminal purpose sequence status rfl rfl rfl).over.step hstep)
      · exact .inl ((hreached.cancelled hlabel hat).step hstep)
    · refine hmoved hlabel hclient hclientStep ?_
      rintro other heq
      cases heq
      exact hut rfl
  cases hstep with
  | client hl hclient =>
    refine hmoved rfl rfl hclient ?_
    rintro reply rfl
    cases hl
  | answer hresponse hticket hclient =>
    refine hanswered rfl rfl hclient ?_
    rintro purpose sequence status rfl rfl rfl
    exact h.terminal hresponse hticket hat rfl
  | giveUp error hclient =>
    refine hanswered rfl rfl hclient ?_
    rintro purpose sequence status - - hreply
    cases hreply
  | send | lose | deliver | revoke | clock => exact .inr ⟨t, s, pc, hat, hguards⟩

theorem awaited_step (hstep : CancellingStep relay label relay')
    (hcancelled : relay.client.registry.groupCancelled = true ∨ ∃ u, label = .client (.group u))
    (hawaited : relay.Awaited i) : relay'.Over i ∨ relay'.Guarded i ∨ relay'.Awaited i := by
  obtain ⟨hstep, hreached⟩ := hstep
  obtain ⟨t, s, hbegun, hrpc⟩ := hawaited
  have hanswered : ∀ {u reply client}, label = .client (.answer u reply) →
      relay'.client = client → ClientStep relay.client (.answer u reply) client →
      relay'.begun = relay.begun →
      relay'.round = Function.update relay.round u (relay.round u + 1) →
      relay'.Over i ∨ relay'.Guarded i ∨ relay'.Awaited i := by
    intro u reply client hlabel hclient hclientStep hbegun' hround
    by_cases hut : u = t
    · subst hut
      subst hclient
      have hcancelled := hcancelled.resolve_right fun ⟨_, heq⟩ => by cases hlabel.symm.trans heq
      rcases hreached.answered hcancelled hlabel hbegun with rfl | hover
      · obtain ⟨r, pc, hat, hpc⟩ := rpc_iff.mp hrpc
        obtain ⟨source, source', pc', hsource, hanswer, hat'⟩ := hclientStep.answered hat
        cases pc with
        | beginning purpose =>
          cases hanswer
          exact .inr (.inl ⟨u, r, _, hat', by simp [SourcePc.guards]⟩)
        | _ => cases hpc
      · exact .inl (hover.step hstep)
    · refine .inr (.inr ⟨t, s, ?_, rpc_waiting hclientStep ?_ hrpc hclient⟩)
      · rw [hbegun', hbegun, Relay.ticket, Relay.ticket, hround,
          Function.update_of_ne (Ne.symm hut)]
      · rintro other heq
        cases heq
        exact hut rfl
  cases hstep with
  | client hl hclient =>
    refine .inr (.inr ⟨t, s, hbegun, rpc_waiting hclient ?_ hrpc rfl⟩)
    rintro reply rfl
    cases hl
  | answer hresponse hticket hclient => exact hanswered rfl rfl hclient rfl rfl
  | giveUp error hclient => exact hanswered rfl rfl hclient rfl rfl
  | send | lose | revoke | clock => exact .inr (.inr ⟨t, s, hbegun, hrpc⟩)
  | deliver =>
    have hlt := (List.getElem?_eq_some_iff.mp hbegun).1
    exact .inr (.inr ⟨t, s, (List.getElem?_append_left hlt).trans hbegun, hrpc⟩)

theorem Cancelling.pushed (h : relay.Cancelling) (hstep : CancellingStep relay label relay')
    (hcancelled : relay.client.registry.groupCancelled = true ∨ ∃ u, label = .client (.group u))
    {P Q : Nat → Prop} (howes : ∀ s, P s →
      (relay.client.Holds s fun source => source.transfer = some i) → Q s ∨ relay'.Over i)
    (hcovered : relay.Over i ∨ relay.Guarded i ∨ relay.Awaited i ∨ relay.Owed i P) :
    relay'.Over i ∨ relay'.Guarded i ∨ relay'.Awaited i ∨ relay'.Owed i Q := by
  rcases hcovered with hover | hguarded | hawaited | ⟨s, howed, hheld⟩
  · exact .inl (hover.step hstep.1)
  · rcases guarded_step h hstep hcancelled hguarded with hover | hguarded
    · exact .inl hover
    · exact .inr (.inl hguarded)
  · rcases awaited_step hstep hcancelled hawaited with hover | hguarded | hawaited
    · exact .inl hover
    · exact .inr (.inl hguarded)
    · exact .inr (.inr (.inl hawaited))
  · rcases howes s howed hheld with howed | hover
    · exact .inr (.inr (.inr ⟨s, howed, h.linked.holds_step hstep.1 hheld⟩))
    · exact .inl hover

namespace Cancelling

theorem start (now : Nat) : (Relay.start now).Cancelling where
  linked := .start now
  ending := .start now
  flagged h := by cases h
  covered h := by cases h

theorem flagged_step (h : relay.Cancelling) (hstep : Step relay label relay')
    (hthread : relay'.client.threads[t]? = some (.group .cancelAll pc)) : pc.cancels = true ∧
    (pc.flagged = true → relay'.client.registry.groupCancelled = true) := by
  rcases hstep.client_cases with ⟨-, hsame⟩ | ⟨l, -, hclient⟩
  · rw [hsame] at hthread ⊢
    exact h.flagged hthread
  · have hkept : ∀ {pc₀ : GroupPc Nat},
        relay.client.threads[t]? = some (.group .cancelAll pc₀) → pc₀.flagged = true →
        relay'.client.registry.groupCancelled = true :=
      fun hold hflagged => hclient.groupCancelled ((h.flagged hold).2 hflagged)
    cases hclient.grouped hthread with
    | stays hold => exact ⟨(h.flagged hold).1, hkept hold⟩
    | spawned hnew hpc =>
      subst hpc
      exact ⟨rfl, nofun⟩
    | group hl hold hadvance =>
      obtain ⟨hcancels, hmoves⟩ := GroupPc.advance_cancelAll (h.flagged hold).1 hadvance
      refine ⟨hcancels, fun hflagged => ?_⟩
      rcases hmoves with hnot | ⟨hbefore, -⟩ | ⟨all, -, -, hcancelled⟩
      · cases hnot.symm.trans hflagged
      · exact hkept hold hbefore
      · exact hcancelled
    | source hl hold hfocus hsource hadvance hpc' =>
      have hcancels := (h.flagged hold).1
      obtain ⟨all, rest, total, rfl, rfl⟩ := GroupPc.setFocus_cancels hcancels hfocus hpc'
      exact ⟨(SourcePc.advance_cancels hcancels hadvance).1, fun _ => hkept hold rfl⟩
    | answer hl hold hfocus hsource hanswer hpc' =>
      have hcancels := (h.flagged hold).1
      obtain ⟨all, rest, total, rfl, rfl⟩ := GroupPc.setFocus_cancels hcancels hfocus hpc'
      exact ⟨(SourcePc.answer_cancels hcancels hanswer).1, fun _ => hkept hold rfl⟩

theorem acknowledged (h : relay.Cancelling) (hstep : Step relay label relay') {s c sequence : Nat}
    {status : TransferStatus} (hlabel : label = .client (.answer t (.status status)))
    (hat : relay.client.At t s (.controlling c sequence .cancel))
    (hheld : relay.client.Holds s fun source => source.transfer = some i) : relay'.Over i := by
  obtain ⟨source, hsource, hi⟩ := hheld
  cases hi.symm.trans ((h.linked.consistent.carried hat rfl).elim hsource)
  have hterminal : relay.Terminal i := by
    cases hstep with
    | client hl =>
      cases hlabel
      cases hl
    | answer hresponse hticket =>
      cases hlabel
      exact h.terminal hresponse hticket hat rfl
    | giveUp | send | lose | deliver | revoke | clock => cases hlabel
  exact hterminal.over.step hstep

theorem covered_step (h : relay.Cancelling) (hstep : CancellingStep relay label relay')
    (hthread : relay'.client.threads[t]? = some (.group .cancelAll pc))
    (hflagged : pc.flagged = true) (hi : i < relay.shared.sessions.length) :
    relay'.Over i ∨ relay'.Guarded i ∨ relay'.Awaited i ∨ relay'.Owed i (GroupPc.Owes · pc) := by
  have hpushed : ∀ {pc₀ : GroupPc Nat}, relay.client.threads[t]? = some (.group .cancelAll pc₀) →
      pc₀.flagged = true → (∀ s, pc₀.Owes s →
        (relay.client.Holds s fun source => source.transfer = some i) →
        pc.Owes s ∨ relay'.Over i) →
      relay'.Over i ∨ relay'.Guarded i ∨ relay'.Awaited i ∨ relay'.Owed i (GroupPc.Owes · pc) :=
    fun hold hbefore howes =>
      h.pushed hstep (.inl ((h.flagged hold).2 hbefore)) howes (h.covered hold hbefore hi)
  rcases hstep.1.client_cases with ⟨-, hsame⟩ | ⟨l, rfl, hclient⟩
  · rw [hsame] at hthread
    exact hpushed hthread hflagged fun s howes _ => .inl howes
  · cases hclient.grouped hthread with
    | stays hold => exact hpushed hold hflagged fun s howes _ => .inl howes
    | spawned hnew hpc =>
      subst hpc
      cases hflagged
    | group hl hold hadvance =>
      rcases (GroupPc.advance_cancelAll (h.flagged hold).1 hadvance).2 with
        hnot | ⟨hbefore, howes⟩ | ⟨all, rfl, rfl, -⟩
      · cases hnot.symm.trans hflagged
      · exact hpushed hold hbefore fun s howed _ => .inl (howes s howed)
      · subst hl
        exact h.pushed hstep (.inr ⟨t, rfl⟩) (fun s hs _ => .inl hs)
          (hstep.2.collected rfl hold i hi)
    | source hl hold hfocus hsource hadvance hpc' =>
      have hcancels := (h.flagged hold).1
      obtain ⟨all, rest, total, rfl, rfl⟩ := GroupPc.setFocus_cancels hcancels hfocus hpc'
      refine hpushed hold rfl fun s howes _ => .inl ?_
      exact howes.imp_right fun hmore => hmore.imp_right fun hcurrent =>
        ⟨hcurrent.1, (SourcePc.advance_cancels hcancels hadvance).2⟩
    | answer hl hold hfocus hsource hanswer hpc' =>
      have hcancels := (h.flagged hold).1
      obtain ⟨all, rest, total, rfl, rfl⟩ := GroupPc.setFocus_cancels hcancels hfocus hpc'
      refine hpushed hold rfl fun s howes hheld => ?_
      rcases howes with hfailed | hrest | ⟨rfl, -⟩
      · exact .inl (.inl hfailed)
      · exact .inl (.inr (.inl hrest))
      · rcases (SourcePc.answer_cancels hcancels hanswer).2 with
          hnot | ⟨c, sequence, status, rfl, rfl⟩
        · exact .inl (.inr (.inr ⟨rfl, hnot⟩))
        · subst hl
          exact .inr (h.acknowledged hstep.1 rfl ⟨_, hold, rfl⟩ hheld)

theorem step (h : relay.Cancelling) (hstep : CancellingStep relay label relay') :
    relay'.Cancelling where
  linked := h.linked.step hstep.1
  ending := h.ending.step hstep.1 fun _ _ _ state _ _ => by cases state <;> rfl
  flagged hthread := h.flagged_step hstep.1 hthread
  covered {t i pc} hthread hflagged hi' := by
    rcases Nat.lt_or_ge i relay.shared.sessions.length with hi | hi
    · exact h.covered_step hstep hthread hflagged hi
    · obtain ⟨copy, nonce, session, source, rfl, hcopy, hrpc, hbegun⟩ :=
        hstep.1.created h.linked hi hi'
      have hcancelled := (h.flagged_step hstep.1 hthread).2 hflagged
      obtain ⟨hstep, hreached⟩ := hstep
      cases hstep with
      | deliver =>
        have hticket := hreached.created hcancelled rfl
        have hasks := (h.linked.asked hcopy).2 hticket
        refine .inr (.inr (.inl ⟨copy.ticket.thread, source, ?_, hasks.trans (by rw [hrpc])⟩))
        exact hbegun.trans (by rw [hticket]; rfl)

end Cancelling

theorem cancel_law {now : Nat} {labels : List RelayLabel} {relay : Relay}
    (h : Run CancellingStep (.start now) labels relay) {t : Nat} {total : TransferGroupStatus}
    (hdone : relay.client.threads[t]? = some (.group .cancelAll (.done (.ok total))))
    (hacknowledged : total.remoteAcknowledged = true) (hquiescent : relay.Quiescent) {i s : Nat}
    {ticket : Ticket} (hbegun : relay.begun[i]? = some (ticket, s)) : relay.Over i := by
  have hcancelling := h.invariant (fun hi hs => hi.step hs) (Cancelling.start now)
  have hlt := (List.getElem?_eq_some_iff.mp hbegun).1
  rw [hcancelling.linked.sessions] at hlt
  have hresting : ∀ {t r pc}, relay.client.At t r pc → pc.resting = true := by
    rintro t r pc ⟨thread, hthread, hfocus⟩
    exact Thread.resting_focus (hquiescent.2 thread (List.mem_of_getElem? hthread)) hfocus
  rcases hcancelling.covered hdone rfl hlt with hover | ⟨u, r, pc, hat, hguards⟩ |
    ⟨u, r, -, hrpc⟩ | ⟨r, howes, -⟩
  · exact hover
  · have hrest := hresting hat
    cases pc with
    | checkCancelled | allocateCancel | sendCancel => cases hrest
    | _ => cases hguards
  · obtain ⟨x, pc, hat, hpc⟩ := rpc_iff.mp hrpc
    have hrest := hresting hat
    cases pc with
    | beginning => cases hrest
    | _ => cases hpc
  · cases hacknowledged.symm.trans howes

namespace CancellingStep

variable {copy : Copy} {us : List Update} {reply : Reply Nat}

theorem quiet (hstep : Step relay label relay') (hquiet : label.quiet = true) :
    CancellingStep relay label relay' := by
  refine ⟨hstep, ?_, ?_, ?_, ?_⟩
  · rintro t all rfl
    cases hquiet
  · rintro copy nonce session - rfl
    cases hquiet
  · rintro t i s reply - rfl
    cases hquiet
  · rintro t s i sequence purpose error rfl
    cases hquiet

theorem group (hstep : Step relay (.client (.group t)) relay')
    (hother : ∀ all, relay.client.threads[t]? ≠ some (.group .cancelAll (.cancelFlag all))) :
    CancellingStep relay (.client (.group t)) relay' := by
  refine ⟨hstep, ?_, ?_, ?_, ?_⟩
  · rintro u all hlabel hthread
    cases hlabel
    exact absurd hthread (hother all)
  · nofun
  · nofun
  · nofun

theorem flag {all : List Nat} (hstep : Step relay (.client (.group t)) relay')
    (hthread : relay.client.threads[t]? = some (.group .cancelAll (.cancelFlag all)))
    (hone : relay.shared.sessions.length = 1) (howed : relay.Owed 0 (· ∈ all)) :
    CancellingStep relay (.client (.group t)) relay' := by
  refine ⟨hstep, ?_, nofun, nofun, nofun⟩
  intro u collected hlabel hcollected i hi
  cases hlabel
  cases hthread.symm.trans hcollected
  obtain rfl : i = 0 := Nat.lt_one_iff.mp (hone ▸ hi)
  exact .inr (.inr (.inr howed))

theorem deliver (hstep : Step relay (.deliver copy us) relay')
    (hother : relay.client.registry.groupCancelled = false ∨
      ∀ nonce session, us ≠ [.create nonce session]) :
    CancellingStep relay (.deliver copy us) relay' := by
  refine ⟨hstep, nofun, ?_, nofun, nofun⟩
  rintro copy nonce session hcancelled hlabel
  cases hlabel
  rcases hother with hnot | hother
  · cases hnot.symm.trans hcancelled
  · exact absurd rfl (hother nonce session)

theorem answer (hstep : Step relay (.client (.answer t reply)) relay')
    (hown : ∀ i s, relay.begun[i]? = some (relay.ticket t, s) → reply = .began i)
    (hsucceeds : ∀ error, reply ≠ .failed error) :
    CancellingStep relay (.client (.answer t reply)) relay' := by
  refine ⟨hstep, nofun, nofun, ?_, ?_⟩
  · rintro u i s other - hlabel hbegun
    cases hlabel
    exact .inl (hown i s hbegun)
  · rintro u s i sequence purpose error hlabel
    cases hlabel
    exact absurd rfl (hsucceeds error)

end CancellingStep

def soloCancel : Thread Nat := .group .cancelAll .start

def secondRead : Thread Nat := .source 1 (.readAt 0 1) (.start (.readAt 0 1))

theorem cancel_law_solo : ∃ (labels : List RelayLabel) (relay : Relay)
    (total : TransferGroupStatus), Run CancellingStep (.start 0) labels relay ∧
    relay.client.threads[1]? = some (.group .cancelAll (.done (.ok total))) ∧
    total.remoteAcknowledged = true ∧ relay.Quiescent ∧ relay.begun.length = 1 ∧
    relay.Over 0 := by
  have hread := (@Run.nil _ _ CancellingStep (.start 0))
    |>.snoc (.quiet (.rememberSolo (ClientWorld.registryFree_of_all rfl)) rfl)
    |>.snoc (.quiet (.spawnSolo .status) rfl)
    |>.snoc (.quiet (.client rfl (.source (t := 0) rfl rfl rfl rfl)) rfl)
    |>.snoc (.quiet (.client rfl (.source (t := 0) rfl rfl rfl rfl)) rfl)
    |>.snoc (.quiet (.send (t := 0) rfl) rfl)
    |>.snoc (.deliver (.deliver (k := 0) rfl
      (.begun rfl (fun i h => by cases h) (repeatedSecret 5) soloSession)) (.inl rfl))
    |>.snoc (.answer (.answer (t := 0) (List.mem_singleton_self _) rfl (.answer rfl rfl rfl rfl))
      (fun i s h => by cases i <;> cases h; rfl) nofun)
    |>.snoc (.quiet (.client rfl (.source (t := 0) rfl rfl rfl rfl)) rfl)
    |>.snoc (.quiet (.client rfl (.source (t := 0) rfl rfl rfl rfl)) rfl)
    |>.snoc (.quiet (.send (t := 0) rfl) rfl)
    |>.snoc (.deliver (.deliver (k := 0) rfl (.session (i := 0) rfl
      (not_expired rfl (by decide)) (.status rfl))) (.inl rfl))
    |>.snoc (.answer (.answer (t := 0) (List.mem_of_getElem? (i := 1) rfl) rfl
      (.answer rfl rfl rfl rfl)) (fun i s h => by cases i <;> cases h) nofun)
  have hcollected := hread
    |>.snoc (.quiet (.client rfl (@ClientStep.spawn _ _ soloCancel rfl)) rfl)
    |>.snoc (.group (.client rfl (.group (t := 1) rfl
      (fun _ => ClientWorld.registryFree_of_all rfl) rfl)) (fun _ h => by cases h))
    |>.snoc (.group (.client rfl (.group (t := 1) rfl nofun rfl)) (fun _ h => by cases h))
    |>.snoc (.group (.client rfl (.group (t := 1) rfl nofun rfl)) (fun _ h => by cases h))
    |>.snoc (.flag (.client rfl (.group (t := 1) rfl nofun rfl)) rfl rfl
      ⟨0, List.mem_singleton_self 0, _, rfl, rfl⟩)
    |>.snoc (.group (.client rfl (.group (t := 1) rfl nofun rfl)) (fun _ h => by cases h))
    |>.snoc (.quiet (.client rfl (.source (t := 1) rfl rfl rfl rfl)) rfl)
    |>.snoc (.quiet (.client rfl (.source (t := 1) rfl rfl rfl rfl)) rfl)
  have hrun := hcollected
    |>.snoc (.quiet (.send (t := 1) rfl) rfl)
    |>.snoc (.deliver (.deliver (k := 0) rfl (.session (i := 0) rfl
      (not_expired rfl (by decide)) (.control rfl rfl))) (.inr nofun))
    |>.snoc (.answer (.answer (t := 1) (List.mem_of_getElem? (i := 2) rfl) rfl
      (.answer rfl rfl rfl rfl)) (fun i s h => by cases i <;> cases h) nofun)
    |>.snoc (.group (.client rfl (.group (t := 1) rfl nofun rfl)) (fun _ h => by cases h))
  refine ⟨_, _, _, hrun, rfl, rfl, ?_, rfl, @cancel_law _ _ _ hrun 1 _ rfl rfl ?_ 0 _ _ rfl⟩ <;>
    exact ⟨rfl, List.all_eq_true.mp rfl⟩

/-! A read begins its session after cancel_all collected the sources and before it stores its flag. -/

theorem session_outlives_cancel : ¬∀ (labels : List RelayLabel) (relay : Relay) (t : Nat)
    (total : TransferGroupStatus), Run Step (.start 0) labels relay →
    relay.client.threads[t]? = some (.group .cancelAll (.done (.ok total))) →
    total.remoteAcknowledged = true → relay.Quiescent →
    ∀ i ticket s, relay.begun[i]? = some (ticket, s) → relay.Over i := by
  intro hlaw
  have hfirst := (@Run.nil _ _ Step (.start 0))
    |>.snoc (.rememberSolo (ClientWorld.registryFree_of_all rfl))
    |>.snoc (.rememberSolo (ClientWorld.registryFree_of_all rfl))
    |>.snoc (.spawnSolo (.readAt 0 1))
    |>.snoc (.client rfl (.source (t := 0) rfl rfl rfl rfl))
    |>.snoc (.client rfl (.source (t := 0) rfl rfl rfl rfl))
    |>.snoc (.client rfl (.source (t := 0) rfl rfl rfl rfl))
    |>.snoc (.client rfl (.source (t := 0) rfl rfl rfl rfl))
    |>.snoc (.send (t := 0) rfl)
    |>.snoc (.deliver (k := 0) rfl (.begun rfl (fun i h => by cases h) (repeatedSecret 5) soloSession))
    |>.snoc (.answer (t := 0) (List.mem_singleton_self _) rfl (.answer rfl rfl rfl rfl))
    |>.snoc (.client rfl (.source (t := 0) rfl rfl rfl rfl))
    |>.snoc (.client rfl (.source (t := 0) rfl rfl rfl rfl))
    |>.snoc (.send (t := 0) rfl)
    |>.snoc (.deliver (k := 0) rfl (.session (i := 0) rfl (not_expired rfl (by decide))
      (.range [0] rfl (by decide))))
    |>.snoc (.answer (t := 0) (List.mem_of_getElem? (i := 1) rfl) rfl (.answer rfl rfl rfl rfl))
    |>.snoc (.client rfl (.source (t := 0) rfl rfl rfl rfl))
  have hcollected := hfirst
    |>.snoc (.client rfl (@ClientStep.spawn _ _ secondRead rfl))
    |>.snoc (.client rfl (.source (t := 1) rfl rfl rfl rfl))
    |>.snoc (.client rfl (.source (t := 1) rfl rfl rfl rfl))
    |>.snoc (.client rfl (.source (t := 1) rfl rfl rfl rfl))
    |>.snoc (.client rfl (@ClientStep.spawn _ _ soloCancel rfl))
    |>.snoc (.client rfl (.group (t := 2) rfl (fun _ => ClientWorld.registryFree_of_all rfl) rfl))
    |>.snoc (.client rfl (.group (t := 2) rfl nofun rfl))
    |>.snoc (.client rfl (.group (t := 2) rfl nofun rfl))
    |>.snoc (.client rfl (.group (t := 2) rfl nofun rfl))
  have hbegun := hcollected
    |>.snoc (.client rfl (.source (t := 1) rfl rfl rfl rfl))
    |>.snoc (.send (t := 1) rfl)
    |>.snoc (.deliver (k := 0) rfl (.begun rfl (fun i h => by cases i <;> cases h)
      (repeatedSecret 6) soloSession))
    |>.snoc (.answer (t := 1) (List.mem_of_getElem? (i := 2) rfl) rfl (.answer rfl rfl rfl rfl))
    |>.snoc (.client rfl (.source (t := 1) rfl rfl rfl rfl))
    |>.snoc (.client rfl (.source (t := 1) rfl rfl rfl rfl))
  have hread := hbegun
    |>.snoc (.send (t := 1) rfl)
    |>.snoc (.deliver (k := 0) rfl (.session (i := 1) rfl (not_expired rfl (by decide))
      (.range [0] rfl (by decide))))
    |>.snoc (.answer (t := 1) (List.mem_of_getElem? (i := 3) rfl) rfl (.answer rfl rfl rfl rfl))
    |>.snoc (.client rfl (.source (t := 1) rfl rfl rfl rfl))
  have hrun := hread
    |>.snoc (.client rfl (.group (t := 2) rfl nofun rfl))
    |>.snoc (.client rfl (.group (t := 2) rfl nofun rfl))
    |>.snoc (.client rfl (.source (t := 2) rfl rfl rfl rfl))
    |>.snoc (.client rfl (.source (t := 2) rfl rfl rfl rfl))
    |>.snoc (.send (t := 2) rfl)
    |>.snoc (.deliver (k := 0) rfl (.session (i := 0) rfl (not_expired rfl (by decide))
      (.control rfl rfl)))
    |>.snoc (.answer (t := 2) (List.mem_of_getElem? (i := 4) rfl) rfl (.answer rfl rfl rfl rfl))
    |>.snoc (.client rfl (.group (t := 2) rfl nofun rfl))
  have hover := hlaw _ _ 2 _ hrun rfl rfl ⟨rfl, List.all_eq_true.mp rfl⟩ 1 _ _ rfl
  obtain ⟨session, hsession, hover⟩ := hover
  cases hsession
  rcases hover with hinactive | hexpired
  · cases hinactive
  · exact absurd hexpired (by decide)

end Relay

end ClipFerry.Client
