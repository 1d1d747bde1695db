import ClipFerry.Client.Relay

namespace ClipFerry.Client

open Protocol Server Transition

def SourcePc.sends {κ : Type} (opcode : Opcode) : SourcePc κ → Bool
  | .start task => task = .sendControl opcode
  | .allocate other | .lockTransfer (.control _ other) | .controlling _ _ other => other = opcode
  | .done _ => true
  | _ => false

namespace SourcePc

variable {κ : Type} {pc pc' : SourcePc κ} {source source' : RemoteSource κ} {opcode : Opcode} {c : κ}

theorem advance_sends {paused cancelled : Bool} (hsends : pc.sends opcode = true)
    (hbegan : source.transfer = some c)
    (h : pc.advance paused cancelled source = some (source', pc')) :
    pc'.sends opcode = true ∧ ∀ result, pc' ≠ .done result := by
  cases pc with
  | start task =>
    simp only [sends, decide_eq_true_eq] at hsends
    subst hsends
    cases h
    exact ⟨by simp [sends], fun _ hdone => by cases hdone⟩
  | allocate other =>
    cases h
    exact ⟨hsends, fun _ hdone => by cases hdone⟩
  | lockTransfer purpose =>
    cases purpose with
    | control sequence other =>
      simp only [advance, hbegan] at h
      split at h <;> cases h
      exact ⟨hsends, fun _ hdone => by cases hdone⟩
    | read | status => cases hsends
  | controlling | done => cases h
  | _ => cases hsends

theorem answer_sends {reply : Reply κ} (hsends : pc.sends opcode = true)
    (hopcode : opcode ≠ .complete) (h : pc.answer source reply = some (source', pc')) :
    pc'.sends opcode = true ∧ ∃ c sequence, pc = .controlling c sequence opcode ∧
      ((∃ status, reply = .status status ∧ pc' = .done (.ok status)) ∨
        ∃ error, reply = .failed error ∧ pc' = .done (.error error)) := by
  cases pc with
  | controlling c sequence other =>
    obtain rfl : other = opcode := by simpa [sends] using hsends
    cases reply with
    | status status =>
      cases h
      rw [if_neg hopcode]
      exact ⟨rfl, c, sequence, rfl, .inl ⟨status, rfl, rfl⟩⟩
    | failed error =>
      cases h
      exact ⟨rfl, c, sequence, rfl, .inr ⟨error, rfl, rfl⟩⟩
    | began | range => cases h
  | lockTransfer purpose => cases purpose <;> cases reply <;> cases h
  | start | allocate | done => cases reply <;> cases h
  | _ => cases hsends

end SourcePc

theorem GroupOp.ne_complete {op : GroupOp} {opcode : Opcode} (h : op.task = .sendControl opcode) :
    opcode ≠ .complete := by
  cases op <;> cases h <;> nofun

namespace GroupPc

variable {κ : Type} {registry registry' : Registry κ} {op : GroupOp} {opcode : Opcode}
  {pc pc' : GroupPc κ} {s : Nat}

def sources : GroupPc κ → List Nat
  | .scanning _ found => found
  | .cancelFlag all | .storing all => all
  | .controlling _ current _ rest _ => current :: rest
  | _ => []

def sends (opcode : Opcode) : GroupPc κ → Bool
  | .controlling _ _ pc _ _ => pc.sends opcode
  | _ => true

def collecting : GroupPc κ → Bool
  | .start | .scanning _ _ | .storing _ => true
  | _ => false

def closing : GroupPc κ → Bool
  | .scanning [] [] | .storing _ => true
  | _ => false

def Visits (s : Nat) : GroupPc κ → Prop
  | .controlling _ _ (.done (.ok _)) rest _ => s ∈ rest
  | .controlling _ _ (.done (.error _)) _ _ => False
  | .controlling _ current _ rest _ => s = current ∨ s ∈ rest
  | _ => False

theorem visits_controlling {all rest : List Nat} {current : Nat} {sub : SourcePc κ}
    {total : TransferGroupStatus} (h : ∀ result, sub ≠ .done result) :
    (GroupPc.controlling all current sub rest total).Visits s ↔ s = current ∨ s ∈ rest := by
  cases sub with
  | done result => exact absurd rfl (h result)
  | _ => rfl

theorem sources_startAggregate (op : GroupOp) (all : List Nat) :
    (op.startAggregate all : GroupPc κ).sources = [] := by cases all <;> rfl

theorem sources_afterStatus (all : List Nat) (total : TransferGroupStatus) (rest : List Nat) :
    (afterStatus all total rest : GroupPc κ).sources = [] := by cases rest <;> rfl

theorem sources_afterControl {all rest : List Nat} {total : TransferGroupStatus} {x : Nat}
    (hx : x ∈ (afterControl registry op all total rest).sources) : x ∈ rest := by
  cases rest with
  | nil =>
    rw [afterControl] at hx
    split at hx
    · cases hx
    · rw [sources_startAggregate] at hx
      cases hx
  | cons s rest => exact hx

theorem advance_sources (h : pc.advance registry op = some (registry', pc')) {x : Nat}
    (hx : x ∈ pc'.sources) : x ∈ pc.sources ∨
      ∃ source c, registry.sources[x]? = some source ∧ source.transfer = some c := by
  cases pc with
  | start =>
    cases h
    cases hx
  | scanning todo found =>
    cases todo with
    | nil =>
      cases found with
      | nil =>
        cases h
        cases hx
      | cons s found =>
        cases op <;> cases h <;> first | exact .inl hx | cases hx
    | cons s todo =>
      simp only [advance] at h
      split at h
      · cases h
        exact .inl hx
      · rename_i source hsource
        split at h <;> cases h
        rw [sources] at hx
        split at hx
        · rename_i hsome
          rcases List.mem_append.mp hx with hfound | hnew
          · exact .inl hfound
          · obtain ⟨c, hc⟩ := Option.isSome_iff_exists.mp hsome
            rw [List.mem_singleton.mp hnew]
            exact .inr ⟨source, c, hsource, hc⟩
        · exact .inl hx
  | cancelFlag all =>
    cases h
    exact .inl hx
  | storing all =>
    cases h
    cases op <;> cases all <;> first | exact .inl hx | cases hx
  | controlling all current sub rest total =>
    cases sub with
    | done result =>
      left
      cases result with
      | ok status =>
        cases h
        exact List.mem_cons_of_mem _ (sources_afterControl hx)
      | error error =>
        cases h
        split at hx
        · exact List.mem_cons_of_mem _ (sources_afterControl hx)
        · cases hx
    | _ => cases h
  | aggregating all current sub rest total =>
    cases sub with
    | done result =>
      cases result <;> cases h
      · cases hx
      · rw [sources_afterStatus] at hx
        cases hx
    | _ => cases h
  | done => cases h

theorem advance_sends (hop : op.task = .sendControl opcode)
    (h : pc.advance registry op = some (registry', pc')) : pc'.sends opcode = true := by
  cases (advance_launching h).2 with
  | idle hnone => cases pc' <;> first | rfl | cases hnone
  | control => simp [sends, SourcePc.sends, hop]
  | aggregate => rfl

theorem advance_collects (hop : op.task = .sendControl opcode)
    (h : pc.advance registry op = some (registry', pc')) (hcollecting : pc.collecting = true) :
    pc'.collecting = true ∨ (pc.closing = true ∧ ∀ s ∈ pc.sources, pc'.Visits s) := by
  cases pc with
  | start =>
    cases h
    exact .inl rfl
  | scanning todo found =>
    cases todo with
    | nil =>
      cases found with
      | nil => exact .inr ⟨rfl, fun s hs => by cases hs⟩
      | cons x found => cases op <;> cases hop <;> cases h <;> exact .inl rfl
    | cons x todo =>
      simp only [advance] at h
      split at h
      · cases h
        exact .inl rfl
      · split at h <;> cases h
        exact .inl rfl
  | storing all =>
    cases h
    refine .inr ⟨rfl, fun s hs => ?_⟩
    cases all with
    | nil => cases hs
    | cons x rest => cases op <;> cases hop <;> exact List.mem_cons.mp hs
  | cancelFlag | controlling | aggregating | done => cases hcollecting

theorem advance_visits (h : pc.advance registry op = some (registry', pc')) (hvisits : pc.Visits s) :
    pc'.Visits s := by
  cases pc with
  | start | scanning | storing | cancelFlag | aggregating | done => cases hvisits
  | controlling all current sub rest total =>
    cases sub with
    | done result =>
      cases result with
      | ok status =>
        cases h
        cases rest with
        | nil => cases hvisits
        | cons x rest => exact List.mem_cons.mp hvisits
      | error error => cases hvisits
    | _ => cases h

end GroupPc

namespace Relay

variable {relay relay' : Relay} {label : RelayLabel} {t s i : Nat} {op : GroupOp}
  {opcode : Opcode} {pc : GroupPc Nat}

def Delivered (relay : Relay) (t i : Nat) (opcode : Opcode) : Prop :=
  ∃ copy status sequence, (copy, .status status) ∈ relay.responses ∧ copy.ticket.thread = t ∧
    copy.rpc = .control i sequence opcode

/-! A control of pause_all or resume_all fails only when the sources after it are not live. -/

def Isolated (relay : Relay) (label : RelayLabel) : Prop :=
  ∀ t error op opcode all current sub rest total,
    label = .client (.answer t (.failed error)) → op.task = .sendControl opcode →
    relay.client.threads[t]? = some (.group op (.controlling all current sub rest total)) →
    (∀ s ∈ rest, ∀ i, (relay.client.Holds s fun source => source.transfer = some i) →
      relay.Over i) ∧
    ∀ i, (relay.client.Holds current fun source => source.transfer = some i) →
      relay.Over i ∨
        ∃ copy status, (copy, .status status) ∈ relay.responses ∧ copy.ticket = relay.ticket t

/-! When the call stores its flag, or finds no source, its list has every live session. -/

def Collected (relay : Relay) (label : RelayLabel) : Prop :=
  ∀ t op opcode pc, label = .client (.group t) → op.task = .sendControl opcode →
    relay.client.threads[t]? = some (.group op pc) → pc.closing = true →
    ∀ i session, relay.shared.sessions[i]? = some session → relay.Over i ∨
      ∃ s ∈ pc.sources, relay.client.Holds s fun source => source.transfer = some i

def ControllingStep (relay : Relay) (label : RelayLabel) (relay' : Relay) : Prop :=
  Step relay label relay' ∧ relay.Isolated label ∧ relay.Collected label

structure Grouped (relay : Relay) : Prop where
  linked : relay.Linked
  sends {t : Nat} {op : GroupOp} {opcode : Opcode} {pc : GroupPc Nat} :
    op.task = .sendControl opcode → relay.client.threads[t]? = some (.group op pc) →
    pc.sends opcode = true
  began {t : Nat} {op : GroupOp} {pc : GroupPc Nat} :
    relay.client.threads[t]? = some (.group op pc) →
    ∀ x ∈ pc.sources, ∃ c, relay.client.Holds x fun source => source.transfer = some c

structure Controlling (t : Nat) (op : GroupOp) (opcode : Opcode) (i : Nat) (relay : Relay) :
    Prop where
  grouped : relay.Grouped
  spawned : t < relay.client.threads.length
  known : ∃ session, relay.shared.sessions[i]? = some session
  visited {pc : GroupPc Nat} : relay.client.threads[t]? = some (.group op pc) →
    relay.Over i ∨ relay.Delivered t i opcode ∨ pc.collecting = true ∨
      ∃ s, (relay.client.Holds s fun source => source.transfer = some i) ∧ pc.Visits s

theorem Delivered.step (h : relay.Delivered t i opcode) (hstep : Step relay label relay') :
    relay'.Delivered t i opcode := by
  obtain ⟨copy, status, sequence, hresponse, hrest⟩ := h
  refine ⟨copy, status, sequence, ?_, hrest⟩
  cases hstep with
  | deliver => exact List.mem_append_left _ hresponse
  | client | send | lose | revoke | clock | answer | giveUp => exact hresponse

namespace Grouped

theorem start (now : Nat) : (start now).Grouped :=
  ⟨.start now, fun _ hthread => (nomatch hthread), fun hthread => (nomatch hthread)⟩

theorem sends_step (h : relay.Grouped) (hop : op.task = .sendControl opcode)
    (hstep : Step relay label relay')
    (hthread : relay'.client.threads[t]? = some (.group op pc)) : pc.sends opcode = true := by
  rcases hstep.client_cases with ⟨-, hsame⟩ | ⟨l, -, hclient⟩
  · rw [hsame] at hthread
    exact h.sends hop hthread
  · cases hclient.grouped hthread with
    | stays hold => exact h.sends hop hold
    | spawned hnew hpc =>
      subst hpc
      rfl
    | group hl hold hadvance => exact GroupPc.advance_sends hop hadvance
    | source hl hold hfocus hsource hadvance hpc' =>
      rcases GroupPc.setFocus_cases hfocus hpc' with
        ⟨all, rest, total, rfl, rfl⟩ | ⟨all, rest, total, rfl, rfl⟩
      · obtain ⟨c, hheld⟩ := h.began hold _ List.mem_cons_self
        exact (SourcePc.advance_sends (h.sends hop hold) (hheld.elim hsource) hadvance).1
      · rfl
    | answer hl hold hfocus hsource hanswer hpc' =>
      rcases GroupPc.setFocus_cases hfocus hpc' with
        ⟨all, rest, total, rfl, rfl⟩ | ⟨all, rest, total, rfl, rfl⟩
      · exact (SourcePc.answer_sends (h.sends hop hold) (GroupOp.ne_complete hop) hanswer).1
      · rfl

theorem began_step (h : relay.Grouped) (hstep : Step relay label relay')
    (hthread : relay'.client.threads[t]? = some (.group op pc)) {x : Nat} (hx : x ∈ pc.sources) :
    ∃ c, relay'.client.Holds x fun source => source.transfer = some c := by
  have hkept : ∀ {pc₀ : GroupPc Nat}, relay.client.threads[t]? = some (.group op pc₀) →
      x ∈ pc₀.sources → ∃ c, relay'.client.Holds x fun source => source.transfer = some c := by
    intro pc₀ hold hmem
    obtain ⟨c, hheld⟩ := h.began hold x hmem
    exact ⟨c, h.linked.holds_step hstep hheld⟩
  rcases hstep.client_cases with ⟨-, hsame⟩ | ⟨l, -, hclient⟩
  · rw [hsame] at hthread
    exact hkept hthread hx
  · cases hclient.grouped hthread with
    | stays hold => exact hkept hold hx
    | spawned hnew hpc =>
      subst hpc
      cases hx
    | group hl hold hadvance =>
      rcases GroupPc.advance_sources hadvance hx with hmem | ⟨source, c, hsource, hbegan⟩
      · exact hkept hold hmem
      · exact ⟨c, h.linked.holds_step hstep ⟨source, hsource, hbegan⟩⟩
    | source hl hold hfocus hsource hadvance hpc' =>
      rcases GroupPc.setFocus_cases hfocus hpc' with
        ⟨all, rest, total, rfl, rfl⟩ | ⟨all, rest, total, rfl, rfl⟩ <;> exact hkept hold hx
    | answer hl hold hfocus hsource hanswer hpc' =>
      rcases GroupPc.setFocus_cases hfocus hpc' with
        ⟨all, rest, total, rfl, rfl⟩ | ⟨all, rest, total, rfl, rfl⟩ <;> exact hkept hold hx

theorem step (h : relay.Grouped) (hstep : Step relay label relay') : relay'.Grouped where
  linked := h.linked.step hstep
  sends hop hthread := h.sends_step hop hstep hthread
  began hthread _ hx := h.began_step hstep hthread hx

end Grouped

namespace Controlling

theorem delivered (h : relay.Controlling t op opcode i)
    (hheld : relay.client.Holds s fun source => source.transfer = some i) {copy : Copy}
    {status : TransferStatus} {c sequence : Nat}
    (hat : relay.client.At t s (.controlling c sequence opcode))
    (hresponse : (copy, .status status) ∈ relay.responses)
    (hticket : copy.ticket = relay.ticket t) : relay.Delivered t i opcode := by
  obtain ⟨ticket, rpc⟩ := copy
  obtain rfl : ticket = relay.ticket t := hticket
  have hasks := (h.grouped.linked.responded hresponse).2 rfl
  rw [show (relay.ticket t).thread = t from rfl, rpc_of_at hat] at hasks
  obtain ⟨source, hsource, hi⟩ := hheld
  cases hi.symm.trans ((h.grouped.linked.consistent.carried hat rfl).elim hsource)
  exact ⟨_, status, sequence, hresponse, rfl, (Option.some.inj hasks).symm⟩

theorem visited_step (h : relay.Controlling t op opcode i) (hop : op.task = .sendControl opcode)
    (hstep : ControllingStep relay label relay')
    (hthread : relay'.client.threads[t]? = some (.group op pc)) :
    relay'.Over i ∨ relay'.Delivered t i opcode ∨ pc.collecting = true ∨
      ∃ s, (relay'.client.Holds s fun source => source.transfer = some i) ∧ pc.Visits s := by
  have hlinked := h.grouped.linked
  have hkept : ∀ {pc₀ : GroupPc Nat}, relay.client.threads[t]? = some (.group op pc₀) →
      (pc₀.collecting = true → relay'.Over i ∨ pc.collecting = true ∨
        ∃ s, (relay'.client.Holds s fun source => source.transfer = some i) ∧ pc.Visits s) →
      (∀ s, (relay.client.Holds s fun source => source.transfer = some i) → pc₀.Visits s →
        relay'.Over i ∨ relay'.Delivered t i opcode ∨ pc.Visits s) →
      relay'.Over i ∨ relay'.Delivered t i opcode ∨ pc.collecting = true ∨
        ∃ s, (relay'.client.Holds s fun source => source.transfer = some i) ∧ pc.Visits s := by
    intro pc₀ hold hcollects hvisits
    rcases h.visited hold with hover | hdelivered | hcollecting | ⟨s, hheld, hvisited⟩
    · exact .inl (hover.step hstep.1)
    · exact .inr (.inl (hdelivered.step hstep.1))
    · exact (hcollects hcollecting).imp_right .inr
    · refine (hvisits s hheld hvisited).imp_right fun hreached => hreached.imp_right fun hnext => ?_
      exact .inr ⟨s, hlinked.holds_step hstep.1 hheld, hnext⟩
  have hsame : relay.client.threads[t]? = some (.group op pc) →
      relay'.Over i ∨ relay'.Delivered t i opcode ∨ pc.collecting = true ∨
        ∃ s, (relay'.client.Holds s fun source => source.transfer = some i) ∧ pc.Visits s :=
    fun hold => hkept hold (fun hcollecting => .inr (.inl hcollecting))
      fun s hheld hvisits => .inr (.inr hvisits)
  rcases hstep.1.client_cases with ⟨-, hclient⟩ | ⟨l, rfl, hclient⟩
  · rw [hclient] at hthread
    exact hsame hthread
  · cases hclient.grouped hthread with
    | stays hold => exact hsame hold
    | spawned hnew => exact absurd h.spawned (Nat.not_lt.mpr hnew)
    | @group pc₀ hl hold hadvance =>
      subst hl
      refine hkept hold (fun hcollecting => ?_) fun s hheld hvisits =>
        .inr (.inr (GroupPc.advance_visits hadvance hvisits))
      rcases GroupPc.advance_collects hop hadvance hcollecting with hmore | ⟨hclosing, hall⟩
      · exact .inr (.inl hmore)
      · obtain ⟨session, hsession⟩ := h.known
        rcases hstep.2.2 t op opcode pc₀ rfl hop hold hclosing i _ hsession with hover | ⟨s, hs, hheld⟩
        · exact .inl (hover.step hstep.1)
        · exact .inr (.inr ⟨s, hlinked.holds_step hstep.1 hheld, hall s hs⟩)
    | source hl hold hfocus hsource hadvance hpc' =>
      rcases GroupPc.setFocus_cases hfocus hpc' with
        ⟨all, rest, total, rfl, rfl⟩ | ⟨all, rest, total, rfl, rfl⟩
      · obtain ⟨c, hbegan⟩ := h.grouped.began hold _ List.mem_cons_self
        have hmoves := SourcePc.advance_sends (h.grouped.sends hop hold) (hbegan.elim hsource) hadvance
        refine hkept hold (fun hcollecting => by cases hcollecting) fun s hheld hvisits =>
          .inr (.inr ?_)
        refine (GroupPc.visits_controlling hmoves.2).mpr ((GroupPc.visits_controlling ?_).mp hvisits)
        rintro result rfl
        cases hadvance
      · exact hkept hold (fun hcollecting => by cases hcollecting) fun s hheld hvisits => hvisits.elim
    | @answer _ current sub sub' _ _ reply hl hold hfocus hsource hanswer hpc' =>
      subst hl
      rcases GroupPc.setFocus_cases hfocus hpc' with
        ⟨all, rest, total, rfl, rfl⟩ | ⟨all, rest, total, rfl, rfl⟩
      · obtain ⟨-, c, sequence, rfl, hreply⟩ :=
          SourcePc.answer_sends (h.grouped.sends hop hold) (GroupOp.ne_complete hop) hanswer
        refine hkept hold (fun hcollecting => by cases hcollecting) fun s hheld hvisits => ?_
        rcases hreply with ⟨status, rfl, rfl⟩ | ⟨error, rfl, rfl⟩
        · rcases hvisits with rfl | hrest
          · cases hstep.1 with
            | client hanswered => cases hanswered
            | answer hresponse hticket =>
              exact .inr (.inl
                ((h.delivered hheld ⟨_, hold, rfl⟩ hresponse hticket).step hstep.1))
          · exact .inr (.inr hrest)
        · obtain ⟨hlater, hown⟩ :=
            hstep.2.1 t error op opcode all current _ rest total rfl hop hold
          rcases hvisits with rfl | hrest
          · rcases hown i hheld with hover | ⟨copy, status, hresponse, hticket⟩
            · exact .inl (hover.step hstep.1)
            · exact .inr (.inl
                ((h.delivered hheld ⟨_, hold, rfl⟩ hresponse hticket).step hstep.1))
          · exact .inl ((hlater s hrest i hheld).step hstep.1)
      · exact hkept hold (fun hcollecting => by cases hcollecting) fun s hheld hvisits => hvisits.elim

theorem step (h : relay.Controlling t op opcode i) (hop : op.task = .sendControl opcode)
    (hstep : ControllingStep relay label relay') : relay'.Controlling t op opcode i where
  grouped := h.grouped.step hstep.1
  spawned := Nat.lt_of_lt_of_le h.spawned hstep.1.threads_length
  known := h.known.elim fun _ hsession => ⟨_, hstep.1.session hsession⟩
  visited hthread := h.visited_step hop hstep hthread

end Controlling

theorem control_isolated {now : Nat} {before after : List RelayLabel} {called relay : Relay}
    (hbefore : Run ControllingStep (.start now) before called)
    (hcall : called.client.threads[t]? = some (.group op pc))
    (hop : op.task = .sendControl opcode) (hcollecting : pc.collecting = true)
    {session : TransferSession} (hsession : called.shared.sessions[i]? = some session)
    (hafter : Run ControllingStep called after relay)
    {result : Except IoError TransferGroupStatus}
    (hdone : relay.client.threads[t]? = some (.group op (.done result))) :
    relay.Over i ∨ relay.Delivered t i opcode := by
  have hgrouped := hbefore.invariant (fun hi hs => hi.step hs.1) (Grouped.start now)
  have hcalled : called.Controlling t op opcode i := by
    refine ⟨hgrouped, (List.getElem?_eq_some_iff.mp hcall).1, ⟨session, hsession⟩, fun hthread => ?_⟩
    cases hthread.symm.trans hcall
    exact .inr (.inr (.inl hcollecting))
  rcases (hafter.invariant (fun hi hs => hi.step hop hs) hcalled).visited hdone with
    hover | hdelivered | hmore | ⟨s, -, hvisits⟩
  · exact .inl hover
  · exact .inr hdelivered
  · cases hmore
  · cases hvisits

theorem ControllingStep.other (hstep : Step relay label relay')
    (hanswer : ∀ t error, label ≠ .client (.answer t (.failed error)))
    (hgroup : ∀ t, label ≠ .client (.group t)) : ControllingStep relay label relay' :=
  ⟨hstep, fun t error _ _ _ _ _ _ _ hlabel => absurd hlabel (hanswer t error),
    fun t _ _ _ hlabel => absurd hlabel (hgroup t)⟩

theorem ControllingStep.group {client : ClientWorld Nat}
    (hthread : relay.client.threads[t]? = some (.group op pc))
    (h : ClientStep relay.client (.group t) client)
    (hall : pc.closing = true → ∀ i session, relay.shared.sessions[i]? = some session →
      relay.Over i ∨ ∃ s ∈ pc.sources, relay.client.Holds s fun source => source.transfer = some i) :
    ControllingStep relay (.client (.group t)) { relay with client := client } := by
  refine ⟨.client rfl h, ?_, ?_⟩
  · intro _ _ _ _ _ _ _ _ _ hlabel
    cases hlabel
  · intro _ _ _ _ hlabel _ hcalled hclosing
    cases hlabel
    cases hcalled.symm.trans hthread
    exact hall hclosing

theorem ControllingStep.failed {copy : Copy} {error : IoError} {client : ClientWorld Nat}
    {all rest : List Nat} {current : Nat} {sub : SourcePc Nat} {total : TransferGroupStatus}
    (hthread : relay.client.threads[t]? =
      some (.group op (.controlling all current sub rest total)))
    (hresponse : (copy, .failed error) ∈ relay.responses) (hticket : copy.ticket = relay.ticket t)
    (h : ClientStep relay.client (.answer t (.failed error)) client)
    (hrest : ∀ s ∈ rest, ∀ i, (relay.client.Holds s fun source => source.transfer = some i) →
      relay.Over i)
    (hown : ∀ i, (relay.client.Holds current fun source => source.transfer = some i) →
      relay.Over i) :
    ControllingStep relay (.client (.answer t (.failed error)))
      { relay with
        client := client
        round := Function.update relay.round t (relay.round t + 1)
        answered := relay.answered ++ [(copy, .failed error)] } := by
  refine ⟨.answer hresponse hticket h, ?_, ?_⟩
  · intro _ _ _ _ _ _ _ _ _ hlabel _ hcalled
    cases hlabel
    cases hcalled.symm.trans hthread
    exact ⟨hrest, fun i hheld => .inl (hown i hheld)⟩
  · intro _ _ _ _ hlabel
    cases hlabel

/-! The second session has expired: pause_all fails there, after the Pause of the first. -/

def lastingSession : TransferSession := { soloSession with expiresAt := 10 }

theorem control_isolated_solo : ∃ (before after : List RelayLabel) (called relay : Relay)
    (error : IoError), Run ControllingStep (.start 0) before called ∧
    Run ControllingStep called after relay ∧
    relay.client.threads[2]? = some (.group .pauseAll (.done (.error error))) ∧
    (relay.Over 0 ∨ relay.Delivered 2 0 .pause) ∧ (relay.Over 1 ∨ relay.Delivered 2 1 .pause) := by
  have hfirst := (@Run.nil _ _ ControllingStep (.start 0))
    |>.snoc (.other (.rememberSolo (ClientWorld.registryFree_of_all rfl)) nofun nofun)
    |>.snoc (.other (.rememberSolo (ClientWorld.registryFree_of_all rfl)) nofun nofun)
    |>.snoc (.other (.spawnSolo .status) nofun nofun)
    |>.snoc (.other (.client rfl (.source (t := 0) rfl rfl rfl rfl)) nofun nofun)
    |>.snoc (.other (.client rfl (.source (t := 0) rfl rfl rfl rfl)) nofun nofun)
    |>.snoc (.other (.send (t := 0) rfl) nofun nofun)
    |>.snoc (.other (.deliver (k := 0) rfl
      (.begun rfl (fun i h => by cases h) (repeatedSecret 5) lastingSession)) nofun nofun)
    |>.snoc (.other (.answer (t := 0) (List.mem_singleton_self _) rfl (.answer rfl rfl rfl rfl))
      nofun nofun)
  have hsecond := hfirst
    |>.snoc (.other (.client rfl (@ClientStep.spawn _ _
      (.source 1 .status (.start .status)) rfl)) nofun nofun)
    |>.snoc (.other (.client rfl (.source (t := 1) rfl rfl rfl rfl)) nofun nofun)
    |>.snoc (.other (.client rfl (.source (t := 1) rfl rfl rfl rfl)) nofun nofun)
    |>.snoc (.other (.send (t := 1) rfl) nofun nofun)
    |>.snoc (.other (.deliver (k := 0) rfl (.begun rfl (fun i h => by cases i <;> cases h)
      (repeatedSecret 6) soloSession)) nofun nofun)
    |>.snoc (.other (.answer (t := 1) (List.mem_of_getElem? (i := 1) rfl) rfl
      (.answer rfl rfl rfl rfl)) nofun nofun)
    |>.snoc (.other (.clock (show 0 ≤ 5 by decide)) nofun nofun)
    |>.snoc (.other (.client rfl (@ClientStep.spawn _ _ (.group .pauseAll .start) rfl)) nofun nofun)
  have hcollected := hsecond
    |>.snoc (.group (t := 2) rfl
      (.group rfl (fun _ => ClientWorld.registryFree_of_all rfl) rfl) nofun)
    |>.snoc (.group (t := 2) rfl (.group rfl nofun rfl) nofun)
    |>.snoc (.group (t := 2) rfl (.group rfl nofun rfl) nofun)
    |>.snoc (.group (t := 2) rfl (.group rfl nofun rfl) nofun)
  have hcontrolled := hcollected.stay
    |>.snoc (.group (t := 2) rfl (.group rfl nofun rfl) fun _ i session hsession => by
      cases i with
      | zero => exact .inr ⟨0, List.mem_cons_self, _, rfl, rfl⟩
      | succ i =>
        cases i with
        | zero => exact .inl ⟨_, rfl, .inr (show 1 ≤ 5 by decide)⟩
        | succ i => cases hsession)
    |>.snoc (.other (.client rfl (.source (t := 2) rfl rfl rfl rfl)) nofun nofun)
    |>.snoc (.other (.client rfl (.source (t := 2) rfl rfl rfl rfl)) nofun nofun)
    |>.snoc (.other (.client rfl (.source (t := 2) rfl rfl rfl rfl)) nofun nofun)
    |>.snoc (.other (.send (t := 2) rfl) nofun nofun)
    |>.snoc (.other (.deliver (k := 0) rfl (.session (i := 0) rfl (not_expired rfl (by decide))
      (.control rfl rfl))) nofun nofun)
    |>.snoc (.other (.answer (t := 2) (List.mem_of_getElem? (i := 2) rfl) rfl
      (.answer rfl rfl rfl rfl)) nofun nofun)
  have hdenied := hcontrolled
    |>.snoc (.group (t := 2) rfl (.group rfl nofun rfl) nofun)
    |>.snoc (.other (.client rfl (.source (t := 2) rfl rfl rfl rfl)) nofun nofun)
    |>.snoc (.other (.client rfl (.source (t := 2) rfl rfl rfl rfl)) nofun nofun)
    |>.snoc (.other (.client rfl (.source (t := 2) rfl rfl rfl rfl)) nofun nofun)
    |>.snoc (.other (.send (t := 2) rfl) nofun nofun)
    |>.snoc (.other (.deliver (k := 0) rfl (.refused .expired nofun)) nofun nofun)
    |>.snoc (.failed (t := 2) rfl (List.mem_of_getElem? (i := 3) rfl) rfl (.answer rfl rfl rfl rfl)
      (fun s hs => by cases hs) fun i hheld => by
      obtain ⟨source, hsource, hi⟩ := hheld
      cases hsource
      cases hi
      exact ⟨_, rfl, .inr (show 1 ≤ 5 by decide)⟩)
    |>.snoc (.group (t := 2) rfl (.group rfl nofun rfl) nofun)
  refine ⟨_, _, _, _, _, hcollected, hdenied, rfl, ?_, ?_⟩
  · exact control_isolated hcollected rfl rfl rfl rfl hdenied rfl
  · exact control_isolated hcollected rfl rfl rfl rfl hdenied rfl

theorem not_delivered {j : Nat} (hj : i ≠ j) (h : relay.responses.all (fun response =>
    decide (response.1.ticket.thread = t → response.1.rpc.session = some j)) = true) :
    ¬relay.Delivered t i opcode := by
  rintro ⟨copy, status, sequence, hresponse, hthread, hrpc⟩
  have hsession := of_decide_eq_true (List.all_eq_true.mp h _ hresponse) hthread
  rw [hrpc] at hsession
  exact hj (Option.some.inj hsession)

/-! The session of the first source has expired: resume_all stops there, and the second stays paused. -/

theorem denied_source_stops_resume : ∃ (before after : List RelayLabel) (called relay : Relay)
    (error : IoError), Run Step (.start 0) before called ∧
    called.client.threads[2]? = some (.group .resumeAll .start) ∧
    1 ∈ called.client.registry.remembered ∧
    (called.client.Holds 1 fun source => source.transfer = some 1) ∧
    Run Step called (.client (.group 2) :: after) relay ∧
    relay.client.threads[2]? = some (.group .resumeAll (.done (.error error))) ∧
    relay.shared.stateOf 1 = some .paused ∧ relay.client.registry.groupPaused = false ∧
    ¬relay.Over 1 ∧ ¬relay.Delivered 2 1 .resume := by
  have hfirst := (@Run.nil _ _ Step (.start 0))
    |>.snoc (.rememberSolo (ClientWorld.registryFree_of_all rfl))
    |>.snoc (.rememberSolo (ClientWorld.registryFree_of_all rfl))
    |>.snoc (.spawnSolo .status)
    |>.snoc (.client rfl (.source (t := 0) rfl rfl rfl rfl))
    |>.snoc (.client rfl (.source (t := 0) rfl rfl rfl rfl))
    |>.snoc (.send (t := 0) rfl)
    |>.snoc (.deliver (k := 0) rfl (.begun rfl (fun i h => by cases h) (repeatedSecret 5) soloSession))
    |>.snoc (.answer (t := 0) (List.mem_singleton_self _) rfl (.answer rfl rfl rfl rfl))
    |>.snoc (.client rfl (.source (t := 0) rfl rfl rfl rfl))
    |>.snoc (.client rfl (.source (t := 0) rfl rfl rfl rfl))
    |>.snoc (.send (t := 0) rfl)
    |>.snoc (.deliver (k := 0) rfl (.session (i := 0) rfl (not_expired rfl (by decide)) (.status rfl)))
    |>.snoc (.answer (t := 0) (List.mem_of_getElem? (i := 1) rfl) rfl (.answer rfl rfl rfl rfl))
  have hpaused := hfirst
    |>.snoc (.client rfl (@ClientStep.spawn _ _
      (.source 1 (.sendControl .pause) (.start (.sendControl .pause))) rfl))
    |>.snoc (.client rfl (.source (t := 1) rfl rfl rfl rfl))
    |>.snoc (.client rfl (.source (t := 1) rfl rfl rfl rfl))
    |>.snoc (.client rfl (.source (t := 1) rfl rfl rfl rfl))
    |>.snoc (.send (t := 1) rfl)
    |>.snoc (.deliver (k := 0) rfl (.begun rfl (fun i h => by cases i <;> cases h)
      (repeatedSecret 6) lastingSession))
    |>.snoc (.answer (t := 1) (List.mem_of_getElem? (i := 2) rfl) rfl (.answer rfl rfl rfl rfl))
    |>.snoc (.client rfl (.source (t := 1) rfl rfl rfl rfl))
    |>.snoc (.client rfl (.source (t := 1) rfl rfl rfl rfl))
    |>.snoc (.send (t := 1) rfl)
    |>.snoc (.deliver (k := 0) rfl (.session (i := 1) rfl (not_expired rfl (by decide))
      (.control rfl rfl)))
    |>.snoc (.answer (t := 1) (List.mem_of_getElem? (i := 3) rfl) rfl (.answer rfl rfl rfl rfl))
  have hbefore := hpaused
    |>.snoc (.clock (show 0 ≤ 5 by decide))
    |>.snoc (.client rfl (@ClientStep.spawn _ _ (.group .resumeAll .start) rfl))
  have hcontrolled := hbefore.stay
    |>.snoc (.client rfl (.group (t := 2) rfl (fun _ => ClientWorld.registryFree_of_all rfl) rfl))
    |>.snoc (.client rfl (.group (t := 2) rfl nofun rfl))
    |>.snoc (.client rfl (.group (t := 2) rfl nofun rfl))
    |>.snoc (.client rfl (.group (t := 2) rfl nofun rfl))
    |>.snoc (.client rfl (.group (t := 2) rfl nofun rfl))
    |>.snoc (.client rfl (.source (t := 2) rfl rfl rfl rfl))
    |>.snoc (.client rfl (.source (t := 2) rfl rfl rfl rfl))
    |>.snoc (.client rfl (.source (t := 2) rfl rfl rfl rfl))
  have hafter := hcontrolled
    |>.snoc (.send (t := 2) rfl)
    |>.snoc (.deliver (k := 0) rfl (.refused .expired nofun))
    |>.snoc (.answer (t := 2) (List.mem_of_getElem? (i := 4) rfl) rfl (.answer rfl rfl rfl rfl))
    |>.snoc (.client rfl (.group (t := 2) rfl nofun rfl))
  refine ⟨_, _, _, _, _, hbefore, rfl, List.mem_of_getElem? (i := 1) rfl, ⟨_, rfl, rfl⟩, hafter,
    rfl, rfl, rfl, ?_, ?_⟩
  · rintro ⟨session, hsession, hover⟩
    cases hsession
    rcases hover with hinactive | hexpired
    · cases hinactive
    · exact absurd hexpired (by decide)
  · exact not_delivered (j := 0) (by decide) rfl

end Relay

end ClipFerry.Client
