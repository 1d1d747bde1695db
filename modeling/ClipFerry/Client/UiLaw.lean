import ClipFerry.Client.Relay
import ClipFerry.Client.UiCalls

namespace ClipFerry.Client

open Protocol Server Transition

variable {κ : Type}

namespace SourcePc

variable {pc pc' : SourcePc κ} {source source' : RemoteSource κ}

theorem advance_locked {paused cancelled : Bool}
    (h : pc.advance paused cancelled source = some (source', pc')) :
    source'.transferLocked = source.transferLocked ∨ ∃ purpose, pc = .lockTransfer purpose := by
  unfold advance at h
  split at h <;> (try split at h) <;> (try split at h) <;> cases h <;>
    first | exact .inl rfl | exact .inr ⟨_, rfl⟩

theorem advance_beginning {paused cancelled : Bool} {purpose : Purpose}
    (h : pc.advance paused cancelled source = some (source', .beginning purpose)) :
    pc = .lockTransfer purpose ∧ source.transfer = none := by
  cases advance_evolves h with
  | begun hpc hpc' | failed hpc hpc' | carry hpc hpc' => cases hpc'
  | lock hpc hfree hnone hpc' hcarries hlocked =>
    refine ⟨?_, hnone⟩
    rcases advance_locked h with hkept | ⟨other, rfl⟩
    · cases hfree.symm.trans (hkept.symm.trans hlocked)
    · simp only [advance, hfree, hnone] at h
      cases h
      rfl

theorem answer_locked {reply : Reply κ} (h : pc.answer source reply = some (source', pc')) :
    source'.transferLocked = if pc.begins = true then false else source.transferLocked := by
  unfold answer at h
  split at h <;> cases h <;> rfl

theorem answer_begins {reply : Reply κ} (h : pc.answer source reply = some (source', pc')) :
    pc'.begins = false := by
  unfold answer at h
  split at h <;> cases h <;>
    first | rfl | exact begins_fail _ _ | exact begins_proceed _ _ | (split <;> rfl)

end SourcePc

theorem ClientStep.begins {client client' : ClientWorld κ} {l : ClientLabel κ} {t s : Nat}
    {purpose : Purpose} (h : ClientStep client l client')
    (hat : client'.At t s (.beginning purpose)) : client.At t s (.beginning purpose) ∨
      (l = .source t ∧ client.At t s (.lockTransfer purpose) ∧
        client.Holds s fun source => source.transfer = none) := by
  cases h with
  | spawn hspawned =>
    rcases ClientWorld.at_concat hat with hold | ⟨-, hfocus⟩
    · exact .inl hold
    · obtain ⟨task, hstart⟩ := hspawned.focus hfocus
      cases hstart
  | remember => exact .inl hat
  | group hthread hfree h =>
    rcases ClientWorld.at_set hat with ⟨-, hfocus⟩ | ⟨-, hold⟩
    · obtain ⟨task, hstart⟩ := (GroupPc.advance_launching h).2.focus hfocus
      cases hstart
    · exact .inl hold
  | @source u r thread pc pc' source source' hthread hfocus hsource h =>
    rcases ClientWorld.at_set hat with ⟨rfl, hmoved⟩ | ⟨-, hold⟩
    · cases (Thread.focus_setFocus hfocus pc').symm.trans hmoved
      obtain ⟨rfl, hnone⟩ := SourcePc.advance_beginning h
      exact .inr ⟨rfl, ⟨thread, hthread, hfocus⟩, source, hsource, hnone⟩
    · exact .inl hold
  | @answer u r thread pc pc' source source' reply hthread hfocus hsource h =>
    rcases ClientWorld.at_set hat with ⟨rfl, hmoved⟩ | ⟨-, hold⟩
    · cases (Thread.focus_setFocus hfocus pc').symm.trans hmoved
      cases SourcePc.answer_begins h
    · exact .inl hold

def ClientWorld.Kept (client : ClientWorld κ) : Prop :=
  ∀ s source, client.registry.sources[s]? = some source → source.transferLocked = true →
    ∃ t purpose, client.At t s (.beginning purpose)

namespace ClientWorld.Kept

variable {client client' : ClientWorld κ} {l : ClientLabel κ} {s : Nat}
  {source : RemoteSource κ}

theorem stays (h : client.Kept) (hstep : ClientStep client l client')
    (hsource : client.registry.sources[s]? = some source) (hlocked : source.transferLocked = true)
    (hother : ∀ t reply purpose, l = .answer t reply → ¬client.At t s (.beginning purpose)) :
    ∃ t purpose, client'.At t s (.beginning purpose) := by
  obtain ⟨t, purpose, hat⟩ := h s source hsource hlocked
  cases hstep.moved hat with
  | stays hat => exact ⟨t, purpose, hat⟩
  | finished hl hpc => cases hpc
  | source hl hfound hadvance => cases hadvance
  | answer hl => exact absurd hat (hother _ _ _ hl)

theorem step (h : client.Kept) (hstep : ClientStep client l client') : client'.Kept := by
  intro s source hsource hlocked
  have hkeep := @stays κ client client' l s
  cases hstep with
  | spawn hspawned => exact hkeep h (.spawn hspawned) hsource hlocked nofun
  | remember connection manifest entry hfree =>
    rcases Position.concat_cases hsource with hold | ⟨-, rfl⟩
    · exact hkeep h (.remember connection manifest entry hfree) hold hlocked nofun
    · cases hlocked
  | group hthread hfree hadvance =>
    have hold := hsource
    rw [(GroupPc.advance_launching hadvance).1] at hold
    exact hkeep h (.group hthread hfree hadvance) hold hlocked nofun
  | @source t r thread pc pc' found found' hthread hfocus hfound hadvance =>
    rcases Position.set_cases hsource with ⟨rfl, rfl⟩ | ⟨-, hold⟩
    · rcases SourcePc.advance_locked hadvance with hsame | ⟨purpose, rfl⟩
      · exact hkeep h (.source hthread hfocus hfound hadvance) hfound (hsame ▸ hlocked) nofun
      · have hlt := (List.getElem?_eq_some_iff.mp hthread).1
        simp only [SourcePc.advance] at hadvance
        split at hadvance
        · cases hadvance
        · rename_i hunlocked
          split at hadvance <;> cases hadvance
          · exact absurd hlocked hunlocked
          · exact ⟨t, purpose, _, List.getElem?_set_self hlt, Thread.focus_setFocus hfocus _⟩
    · exact hkeep h (.source hthread hfocus hfound hadvance) hold hlocked nofun
  | @answer t r thread pc pc' found found' reply hthread hfocus hfound hanswer =>
    rcases Position.set_cases hsource with ⟨rfl, rfl⟩ | ⟨hsr, hold⟩
    · rw [SourcePc.answer_locked hanswer] at hlocked
      split at hlocked
      · cases hlocked
      · rename_i hbegins
        refine hkeep h (.answer hthread hfocus hfound hanswer) hfound hlocked ?_
        rintro u other purpose heq hat
        cases heq
        cases (At.unique hat ⟨thread, hthread, hfocus⟩).2
        exact hbegins rfl
    · refine hkeep h (.answer hthread hfocus hfound hanswer) hold hlocked ?_
      rintro u other purpose heq hat
      cases heq
      exact hsr (At.unique hat ⟨thread, hthread, hfocus⟩).1

theorem empty : (ClientWorld.empty : ClientWorld κ).Kept := by
  intro s source hsource
  cases hsource

end ClientWorld.Kept

theorem GroupPc.advance_scanning {registry : Registry κ} {op : GroupOp} {pc : GroupPc κ}
    (hscans : pc.scans = true) (hfree : ∀ s source, pc.visits = some s →
      registry.sources[s]? = some source → source.transferLocked = false) :
    ∃ registry' pc', pc.advance registry op = some (registry', pc') := by
  cases pc with
  | scanning todo found =>
    cases todo with
    | nil => cases found <;> exact ⟨_, _, rfl⟩
    | cons s todo =>
      rw [GroupPc.advance]
      cases hsource : registry.sources[s]? with
      | none => exact ⟨_, _, rfl⟩
      | some source =>
        simp only [hfree s source rfl hsource, Bool.false_eq_true, if_false]
        exact ⟨_, _, rfl⟩
  | _ => cases hscans

theorem UiPc.advance_unfinished {registry : Registry κ} {pc : UiPc} (hpc : pc.finished = false)
    (hfree : ∀ s source, pc.visits = some s → registry.sources[s]? = some source →
      source.transferLocked = false) : ∃ pc', pc.advance registry = some pc' := by
  cases pc with
  | locking op => cases op <;> exact ⟨_, rfl⟩
  | counting todo | finding todo | falling todo =>
    cases todo with
    | nil => exact ⟨_, rfl⟩
    | cons s todo =>
      rw [UiPc.advance]
      cases hsource : registry.sources[s]? with
      | none => exact ⟨_, rfl⟩
      | some source =>
        simp only [hfree s source rfl hsource, Bool.false_eq_true, if_false]
        exact ⟨_, rfl⟩
  | counted | found => cases hpc

namespace Calls

variable {calls calls' : Calls κ} {label : CallLabel κ} {s : Nat} {a b : Actor}

def Begins (calls : Calls κ) (s : Nat) : Prop :=
  ∃ t purpose, calls.client.At t s (.beginning purpose)

def Clear (calls : Calls κ) : CallLabel κ → Prop
  | .ui k => ∀ pc pc' s, calls.ui[k]? = some pc → pc.advance calls.client.registry = some pc' →
    pc'.visits = some s → ¬calls.Begins s
  | .client (.group t) => ∀ op pc registry pc' s,
    calls.client.threads[t]? = some (.group op pc) →
    pc.advance calls.client.registry op = some (registry, pc') → pc'.visits = some s →
    ¬calls.Begins s
  | .client (.source t) => ∀ s purpose, calls.client.At t s (.lockTransfer purpose) →
    (calls.client.Holds s fun source => source.transfer = none) → ∀ a, ¬calls.Visits s a
  | _ => True

def ClearStep (calls : Calls κ) (label : CallLabel κ) (calls' : Calls κ) : Prop :=
  Step calls label calls' ∧ calls.Clear label

def Unblocked (calls : Calls κ) : Prop := ∀ s a, calls.Visits s a → ¬calls.Begins s

theorem Step.client_cases (h : Step calls label calls') :
    (∃ l, label = .client l ∧ ClientStep calls.client l calls'.client ∧ calls'.ui = calls.ui) ∨
    ((∀ l, label ≠ .client l) ∧ calls'.client = calls.client) := by
  cases h with
  | client hl hfree h => exact .inl ⟨_, rfl, h, rfl⟩
  | answer hwants hholds h => exact .inl ⟨_, rfl, h, rfl⟩
  | giveUp error hwants hidle h => exact .inl ⟨_, rfl, h, rfl⟩
  | enter | ui | acquire | release =>
    refine .inr ⟨?_, rfl⟩
    intro l hl
    cases hl

theorem visits_thread {l : ClientLabel κ} (h : ClientStep calls.client l calls'.client) {t : Nat}
    (hvisits : calls'.Visits s (.thread t)) : calls.Visits s (.thread t) ∨
      ∃ op pc registry pc', l = .group t ∧ calls.client.threads[t]? = some (.group op pc) ∧
        pc.advance calls.client.registry op = some (registry, pc') ∧ pc'.visits = some s := by
  obtain ⟨op, pc', hthread, hpc'⟩ := hvisits
  have hidle : ∀ {pc : GroupPc κ} {r : Nat} {sub sub' : SourcePc κ},
      (Thread.group op pc).focus = some (r, sub) →
      (Thread.group op pc).setFocus sub' = .group op pc' → pc'.visits = none := by
    intro pc r sub sub' hfocus hset
    rcases GroupPc.setFocus_cases hfocus hset with
      ⟨all, rest, total, -, rfl⟩ | ⟨all, rest, total, -, rfl⟩ <;> rfl
  cases h.grouped hthread with
  | stays hold => exact .inl ⟨op, pc', hold, hpc'⟩
  | spawned hnew hpc =>
    subst hpc
    cases hpc'
  | group hl hold hadvance => exact .inr ⟨op, _, _, _, hl, hold, hadvance, hpc'⟩
  | source hl hold hfocus hsource hadvance hset => cases (hidle hfocus hset).symm.trans hpc'
  | answer hl hold hfocus hsource hanswer hset => cases (hidle hfocus hset).symm.trans hpc'

theorem visits_ui (h : Step calls label calls') {k : Nat} (hvisits : calls'.Visits s (.ui k)) :
    calls.Visits s (.ui k) ∨ ∃ pc pc', label = .ui k ∧ calls.ui[k]? = some pc ∧
      pc.advance calls.client.registry = some pc' ∧ pc'.visits = some s := by
  obtain ⟨pc', hpc', hs⟩ := hvisits
  cases h with
  | client | answer | giveUp | acquire | release => exact .inl ⟨pc', hpc', hs⟩
  | enter op =>
    rcases Position.concat_cases hpc' with hold | ⟨-, rfl⟩
    · exact .inl ⟨pc', hold, hs⟩
    · cases hs
  | ui hpc hfree hadvance =>
    rcases Position.set_cases hpc' with ⟨rfl, rfl⟩ | ⟨-, hold⟩
    · exact .inr ⟨_, _, rfl, hpc, hadvance, hs⟩
    · exact .inl ⟨pc', hold, hs⟩

theorem Unblocked.step (h : calls.Unblocked) (hstep : ClearStep calls label calls') :
    calls'.Unblocked := by
  obtain ⟨hstep, hclear⟩ := hstep
  rintro s a hvisits ⟨t, purpose, hat⟩
  rcases hstep.client_cases with ⟨l, rfl, hclient, hui⟩ | ⟨hother, hclient⟩
  · rcases hclient.begins hat with hold | ⟨rfl, hlocking, hnone⟩
    · cases a with
      | thread u =>
        rcases visits_thread hclient hvisits with hbefore | ⟨op, pc, registry, pc', rfl, hthread,
          hadvance, hpc'⟩
        · exact h s _ hbefore ⟨t, purpose, hold⟩
        · exact hclear op pc registry pc' s hthread hadvance hpc' ⟨t, purpose, hold⟩
      | ui k =>
        rcases visits_ui hstep hvisits with hbefore | ⟨pc, pc', hlabel, -⟩
        · exact h s _ hbefore ⟨t, purpose, hold⟩
        · cases hlabel
    · refine hclear s purpose hlocking hnone a ?_
      cases a with
      | thread u =>
        rcases visits_thread hclient hvisits with hbefore | ⟨op, pc, registry, pc', hl, -⟩
        · exact hbefore
        · cases hl
      | ui k =>
        rcases visits_ui hstep hvisits with hbefore | ⟨pc, pc', hlabel, -⟩
        · exact hbefore
        · cases hlabel
  · rw [hclient] at hat
    cases a with
    | thread u =>
      obtain ⟨op, pc, hthread, hpc⟩ := hvisits
      rw [hclient] at hthread
      exact h s (.thread u) ⟨op, pc, hthread, hpc⟩ ⟨t, purpose, hat⟩
    | ui k =>
      rcases visits_ui hstep hvisits with hbefore | ⟨pc, pc', rfl, hpc, hadvance, hs⟩
      · exact h s _ hbefore ⟨t, purpose, hat⟩
      · exact hclear pc pc' s hpc hadvance hs ⟨t, purpose, hat⟩

theorem Unblocked.start : (start : Calls κ).Unblocked := by
  rintro s a - ⟨t, purpose, thread, hthread, -⟩
  cases hthread

theorem waits_idle {t : Nat} {thread : Thread κ} (hthread : calls.client.threads[t]? = some thread)
    (hidle : thread.focus = none) (hwaits : calls.Waits (.thread t) b) :
    (calls.WantsRegistry (.thread t) ∧ calls.HoldsRegistry b) ∨
      ∃ s, calls.Visits s (.thread t) ∧ calls.Begins s := by
  have hnot : ∀ {r pc}, ¬calls.client.At t r pc := by
    rintro r pc ⟨found, hfound, hfocus⟩
    cases hfound.symm.trans hthread
    cases hidle.symm.trans hfocus
  cases hwaits with
  | registry hwants hholds => exact .inl ⟨hwants, hholds⟩
  | @transfer _ u s purpose hwants hholds =>
    rcases hwants with hvisits | ⟨u, heq, ⟨purpose, hat⟩ | hat⟩
    · exact .inr ⟨s, hvisits, u, purpose, hholds⟩
    · cases heq
      exact (hnot hat).elim
    · cases heq
      exact (hnot hat).elim
  | slot hwants =>
    rw [wants, hthread, Option.bind_eq_bind, Option.bind_some, hidle] at hwants
    cases hwants

theorem waits_ui {k : Nat} (hwaits : calls.Waits (.ui k) b) :
    (calls.WantsRegistry (.ui k) ∧ calls.HoldsRegistry b) ∨
      ∃ s, calls.Visits s (.ui k) ∧ calls.Begins s := by
  cases hwaits with
  | registry hwants hholds => exact .inl ⟨hwants, hholds⟩
  | @transfer _ u s purpose hwants hholds =>
    rcases hwants with hvisits | ⟨u, heq, -⟩
    · exact .inr ⟨s, hvisits, u, purpose, hholds⟩
    · cases heq

theorem scans_idle {thread : Thread κ} (h : thread.scans = true) : thread.focus = none := by
  cases thread with
  | source => cases h
  | group op pc =>
    cases pc with
    | scanning => rfl
    | _ => cases h

theorem Immediate.waits (hunblocked : calls.Unblocked) (h : calls.Immediate a)
    (hwaits : calls.Waits a b) : calls.HoldsRegistry b := by
  cases a with
  | thread t =>
    obtain ⟨pc, hthread, hpc⟩ := h
    have hidle : (Thread.group .cancelAll pc).focus = none := by
      cases pc with
      | start | scanning | cancelFlag => rfl
      | _ => cases hpc
    rcases waits_idle hthread hidle hwaits with ⟨-, hholds⟩ | ⟨s, hvisits, hbegins⟩
    · exact hholds
    · exact (hunblocked s _ hvisits hbegins).elim
  | ui k =>
    rcases waits_ui hwaits with ⟨-, hholds⟩ | ⟨s, hvisits, hbegins⟩
    · exact hholds
    · exact (hunblocked s _ hvisits hbegins).elim

theorem HoldsRegistry.waits (hunblocked : calls.Unblocked) (h : calls.HoldsRegistry a) :
    ¬calls.Waits a b := by
  intro hwaits
  cases a with
  | thread t =>
    obtain ⟨thread, hthread, hscans⟩ := h
    rcases waits_idle hthread (scans_idle hscans) hwaits with ⟨⟨op, hstart⟩, -⟩ | ⟨s, hvisits, hbegins⟩
    · cases hthread.symm.trans hstart
      cases hscans
    · exact hunblocked s _ hvisits hbegins
  | ui k =>
    obtain ⟨pc, hpc, hscans⟩ := h
    rcases waits_ui hwaits with ⟨⟨op, hlocking⟩, -⟩ | ⟨s, hvisits, hbegins⟩
    · cases hpc.symm.trans hlocking
      cases hscans
    · exact hunblocked s _ hvisits hbegins

theorem HoldsRegistry.silent (h : calls.HoldsRegistry a) : ¬calls.Networked a := by
  intro hnetworked
  cases a with
  | thread t =>
    obtain ⟨thread, hthread, hscans⟩ := h
    obtain ⟨s, pc, ⟨found, hfound, hfocus⟩, -⟩ := hnetworked
    cases hfound.symm.trans hthread
    cases (scans_idle hscans).symm.trans hfocus
  | ui k => exact hnetworked

structure Tidy (calls : Calls κ) : Prop where
  unblocked : calls.Unblocked
  kept : calls.client.Kept

theorem Tidy.step (h : calls.Tidy) (hstep : ClearStep calls label calls') : calls'.Tidy := by
  refine ⟨h.unblocked.step hstep, ?_⟩
  rcases hstep.1.client_cases with ⟨l, -, hclient, -⟩ | ⟨-, hclient⟩
  · exact h.kept.step hclient
  · rw [hclient]
    exact h.kept

theorem Tidy.start : (start : Calls κ).Tidy := ⟨.start, .empty⟩

theorem Tidy.unlocked (h : calls.Tidy) (hvisits : calls.Visits s a) {source : RemoteSource κ}
    (hsource : calls.client.registry.sources[s]? = some source) : source.transferLocked = false := by
  by_contra hlocked
  exact h.unblocked s a hvisits (h.kept s source hsource (by simpa using hlocked))

theorem HoldsRegistry.proceeds (htidy : calls.Tidy) (h : calls.HoldsRegistry a) :
    calls.Proceeds a := by
  cases a with
  | thread t =>
    obtain ⟨thread, hthread, hscans⟩ := h
    cases thread with
    | source => cases hscans
    | group op pc =>
      obtain ⟨registry, pc', hadvance⟩ := @GroupPc.advance_scanning κ calls.client.registry op pc hscans
        fun s source hs hsource => htidy.unlocked (a := .thread t) ⟨op, pc, hthread, hs⟩ hsource
      have hpc : pc ≠ .start := by
        rintro rfl
        cases hscans
      refine ⟨_, .client rfl (fun hlocks => ?_) (.group hthread (fun heq => absurd heq hpc) hadvance)⟩
      rw [locksRegistry, hthread] at hlocks
      cases pc with
      | start => exact absurd rfl hpc
      | _ => cases hlocks
  | ui k =>
    obtain ⟨pc, hpc, hscans⟩ := h
    have hunfinished : pc.finished = false := by cases pc <;> first | rfl | cases hscans
    obtain ⟨pc', hadvance⟩ := UiPc.advance_unfinished hunfinished
      fun s source hs hsource => htidy.unlocked (a := .ui k) ⟨pc, hpc, hs⟩ hsource
    exact ⟨_, .ui hpc (fun hnot => by cases hscans.symm.trans hnot) hadvance⟩

theorem registry_held (h : ¬calls.RegistryFree) : ∃ b, calls.HoldsRegistry b := by
  rw [RegistryFree, ClientWorld.RegistryFree, Classical.not_and_iff_not_or_not] at h
  rcases h with hthreads | hui
  · simp only [Classical.not_forall, Bool.not_eq_false] at hthreads
    obtain ⟨thread, hmem, hscans⟩ := hthreads
    obtain ⟨t, hthread⟩ := List.getElem?_of_mem hmem
    exact ⟨.thread t, thread, hthread, hscans⟩
  · simp only [Classical.not_forall, Bool.not_eq_false] at hui
    obtain ⟨pc, hmem, hscans⟩ := hui
    obtain ⟨k, hpc⟩ := List.getElem?_of_mem hmem
    exact ⟨.ui k, pc, hpc, hscans⟩

theorem Immediate.proceeds (htidy : calls.Tidy) (h : calls.Immediate a) :
    calls.Proceeds a ∨ ∃ b, calls.Waits a b ∧ calls.Proceeds b := by
  have hblocked : calls.WantsRegistry a → ¬calls.RegistryFree →
      ∃ b, calls.Waits a b ∧ calls.Proceeds b := by
    intro hwants hheld
    obtain ⟨b, hholds⟩ := registry_held hheld
    exact ⟨b, .registry hwants hholds, hholds.proceeds htidy⟩
  cases a with
  | thread t =>
    obtain ⟨pc, hthread, hpc⟩ := h
    cases pc with
    | start =>
      by_cases hfree : calls.RegistryFree
      · exact .inl ⟨_, .client rfl (fun _ => hfree) (.group hthread (fun _ => hfree.1) rfl)⟩
      · exact .inr (hblocked ⟨_, hthread⟩ hfree)
    | scanning todo found =>
      exact .inl (HoldsRegistry.proceeds (a := .thread t) htidy ⟨_, hthread, rfl⟩)
    | cancelFlag all =>
      refine .inl ⟨_, .client rfl (fun hlocks => ?_) (.group hthread nofun rfl)⟩
      rw [locksRegistry, hthread] at hlocks
      cases hlocks
    | _ => cases hpc
  | ui k =>
    obtain ⟨pc, hpc, hunfinished⟩ := h
    cases pc with
    | locking op =>
      by_cases hfree : calls.RegistryFree
      · obtain ⟨pc', hadvance⟩ := @UiPc.advance_unfinished κ calls.client.registry _ hunfinished nofun
        exact .inl ⟨_, .ui hpc (fun _ => hfree) hadvance⟩
      · exact .inr (hblocked ⟨_, hpc⟩ hfree)
    | counting | finding | falling =>
      exact .inl (HoldsRegistry.proceeds (a := .ui k) htidy ⟨_, hpc, rfl⟩)
    | counted | found => cases hunfinished

theorem ui_never_waits {labels : List (CallLabel κ)} {calls : Calls κ}
    (h : Run ClearStep .start labels calls) {a : Actor} (himmediate : calls.Immediate a) :
    (∀ b, Relation.TransGen calls.Waits a b → ¬calls.Networked b) ∧
    (calls.Proceeds a ∨ ∃ b, calls.Waits a b ∧ calls.Proceeds b) := by
  have htidy := h.invariant (I := Tidy) (fun hi hs => hi.step hs) Tidy.start
  refine ⟨fun b hwaits => ?_, himmediate.proceeds htidy⟩
  obtain ⟨c, hfirst, hrest⟩ := Relation.TransGen.head'_iff.mp hwaits
  have hholds := himmediate.waits htidy.unblocked hfirst
  rcases hrest.cases_head with rfl | ⟨d, hnext, -⟩
  · exact hholds.silent
  · exact (hholds.waits htidy.unblocked hnext).elim

theorem registryFree_of_all (hthreads : calls.client.threads.all (fun thread => !thread.scans) = true)
    (hui : calls.ui.all (fun pc => !pc.scans) = true) : calls.RegistryFree := by
  refine ⟨ClientWorld.registryFree_of_all hthreads, fun pc hpc => ?_⟩
  simpa using List.all_eq_true.mp hui pc hpc

theorem not_begins_of_all (h : calls.client.threads.all (fun thread => thread.focus.isNone) = true) :
    ¬calls.Begins s := by
  rintro ⟨t, purpose, thread, hthread, hfocus⟩
  have hidle := List.all_eq_true.mp h thread (List.mem_of_getElem? hthread)
  rw [hfocus] at hidle
  cases hidle

theorem Step.rememberSolo {calls : Calls Nat} (hfree : calls.RegistryFree) :
    Step calls (.client .remember) { calls with
      client := { calls.client with
        registry := calls.client.registry.rememberSource
          (.new 0 Relay.soloManifest ⟨repeatedId 1, .basic ['a'] 5⟩) } } :=
  .client rfl (fun _ => hfree) (.remember 0 Relay.soloManifest ⟨repeatedId 1, .basic ['a'] 5⟩ hfree.1)

theorem Step.spawn {thread : Thread κ} (h : thread.Spawned) :
    Step calls (.client (.spawn thread)) { calls with
      client := { calls.client with threads := calls.client.threads ++ [thread] } } :=
  .client rfl nofun (.spawn h)

theorem Step.source {t : Nat} {client : ClientWorld κ}
    (h : ClientStep calls.client (.source t) client) :
    Step calls (.client (.source t)) { calls with client := client } :=
  .client rfl nofun h

theorem ui_never_waits_solo : ∃ (labels : List (CallLabel Nat)) (calls : Calls Nat),
    Run ClearStep .start labels calls ∧ calls.Immediate (.ui 0) ∧
    calls.Waits (.ui 0) (.thread 0) ∧ ¬calls.Networked (.thread 0) := by
  have hrun := (@Run.nil _ _ ClearStep (.start : Calls Nat))
    |>.snoc ⟨.rememberSolo (registryFree_of_all rfl rfl), trivial⟩
    |>.snoc ⟨@Step.spawn _ _ (.group .cancelAll .start) rfl, trivial⟩
    |>.snoc ⟨.client rfl (fun _ => registryFree_of_all rfl rfl)
      (.group (t := 0) rfl (fun _ => ClientWorld.registryFree_of_all rfl) rfl),
      fun _ _ _ _ _ _ _ _ => not_begins_of_all rfl⟩
    |>.snoc ⟨.enter .localProgress, trivial⟩
  have hnever := ui_never_waits hrun (a := .ui 0) ⟨.locking .localProgress, rfl, rfl⟩
  refine ⟨_, _, hrun, ⟨.locking .localProgress, rfl, rfl⟩, ?_, hnever.1 _ (.single ?_)⟩ <;>
    exact .registry ⟨.localProgress, rfl⟩ ⟨_, rfl, rfl⟩

/-! A scan waits for the transfer lock of a source whose BeginTransfer has been sent, and cancel_all
for the scan. -/

theorem ui_waits_for_begin : ∃ (labels : List (CallLabel Nat)) (calls : Calls Nat),
    Run Step .start labels calls ∧ calls.Immediate (.ui 0) ∧ calls.Waits (.ui 0) (.thread 0) ∧
    calls.Immediate (.thread 1) ∧ Relation.TransGen calls.Waits (.thread 1) (.thread 0) ∧
    calls.Networked (.thread 0) ∧ calls.slot 0 .control = some 0 := by
  have hrun := (@Run.nil _ _ Step (.start : Calls Nat))
    |>.snoc (.rememberSolo (registryFree_of_all rfl rfl))
    |>.snoc (@Step.spawn _ _ (Relay.soloCall (.readAt 0 1)) rfl)
    |>.snoc (.source (.source (t := 0) rfl rfl rfl rfl))
    |>.snoc (.source (.source (t := 0) rfl rfl rfl rfl))
    |>.snoc (.source (.source (t := 0) rfl rfl rfl rfl))
    |>.snoc (.source (.source (t := 0) rfl rfl rfl rfl))
    |>.snoc (.acquire (t := 0) (n := 0) (c := .control) rfl rfl)
    |>.snoc (.enter .localProgress)
    |>.snoc (.ui (k := 0) rfl (fun _ => registryFree_of_all rfl rfl) rfl)
    |>.snoc (@Step.spawn _ _ (.group .cancelAll .start) rfl)
  refine ⟨_, _, hrun, ⟨_, rfl, rfl⟩, ?_, ⟨_, rfl, trivial⟩,
    .head (.registry (b := .ui 0) ⟨_, rfl⟩ ⟨_, rfl, rfl⟩) (.single ?_),
    ⟨0, _, ⟨_, rfl, rfl⟩, nofun⟩, rfl⟩ <;>
    exact .transfer (s := 0) (.inl ⟨_, rfl, rfl⟩) ⟨_, rfl, rfl⟩

end Calls

end ClipFerry.Client
