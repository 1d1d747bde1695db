import ClipFerry.Client.TransferGroup
import ClipFerry.Server.Capacity

namespace ClipFerry.Client

open Protocol Server Transition Foundation

namespace SourcePc

variable {κ : Type} {pc pc' : SourcePc κ} {source source' : RemoteSource κ}

def resumes : SourcePc κ → Bool
  | start task => task = .sendControl .resume
  | allocate opcode | controlling _ _ opcode => opcode = .resume
  | lockTransfer (.control _ opcode) | beginning (.control _ opcode)
  | checkCancelled (.control _ opcode) _ | allocateCancel (.control _ opcode) _
  | sendCancel (.control _ opcode) _ _ | checkPaused (.control _ opcode) _
  | allocatePause (.control _ opcode) _ | sendPause (.control _ opcode) _ _ => opcode = .resume
  | done _ => true
  | _ => false

theorem advance_resumes {paused cancelled : Bool} (hpc : pc.resumes = true)
    (h : pc.advance paused cancelled source = some (source', pc')) :
    pc'.resumes = true ∧ pc'.acknowledged none = false := by
  cases pc with
  | start task =>
    simp only [resumes, decide_eq_true_eq] at hpc
    subst hpc
    cases h
    exact ⟨rfl, rfl⟩
  | allocate opcode =>
    cases h
    exact ⟨hpc, rfl⟩
  | lockTransfer purpose =>
    cases purpose with
    | control sequence opcode =>
      simp only [advance] at h
      split at h
      · cases h
      · split at h <;> cases h <;> exact ⟨hpc, rfl⟩
    | read offset requested | status => cases hpc
  | checkCancelled purpose c | checkPaused purpose c =>
    cases purpose with
    | control sequence opcode =>
      simp only [advance, Option.some.injEq, Prod.mk.injEq] at h
      obtain ⟨rfl, rfl⟩ := h
      split <;> exact ⟨hpc, rfl⟩
    | read offset requested | status => cases hpc
  | allocateCancel purpose c | allocatePause purpose c =>
    cases purpose with
    | control sequence opcode =>
      cases h
      exact ⟨hpc, rfl⟩
    | read offset requested | status => cases hpc
  | beginning purpose | sendCancel purpose c sequence | sendPause purpose c sequence
  | controlling c sequence opcode | done result => cases h
  | _ => cases hpc

theorem answer_resumes {reply : Reply κ} (hpc : pc.resumes = true)
    (h : pc.answer source reply = some (source', pc')) :
    pc'.resumes = true ∧ (pc'.acknowledged none = true → pc.acknowledged (some reply) = true) := by
  cases pc with
  | beginning purpose | sendCancel purpose c sequence | sendPause purpose c sequence =>
    cases purpose with
    | control sequence opcode =>
      cases reply <;> cases h <;> exact ⟨by first | exact hpc | rfl, nofun⟩
    | read offset requested | status => cases hpc
  | controlling c sequence opcode =>
    simp only [resumes, decide_eq_true_eq] at hpc
    subst hpc
    cases reply with
    | status status =>
      cases h
      exact ⟨rfl, fun _ => rfl⟩
    | failed error =>
      cases h
      exact ⟨rfl, nofun⟩
    | began c | range status bytes => cases h
  | start task | allocate opcode | lockTransfer purpose | checkCancelled purpose c
  | allocateCancel purpose c | checkPaused purpose c | allocatePause purpose c | done result =>
    cases reply <;> cases h
  | _ => cases hpc

end SourcePc

def Settled (inner : TransferInner) : Prop :=
  inner.lastControlOpcode = some .resume → inner.state ≠ .paused

theorem lifeCycle_resume (state : RemoteTransferState) :
    state.lifeCycle .resume ≠ .paused := by cases state <;> nofun

theorem lifeCycle_paused {state : RemoteTransferState} {opcode : Opcode}
    (h : state.lifeCycle opcode = .paused) :
    state = .paused ∨ (state = .running ∧ opcode = .pause) := by
  cases state <;> cases opcode <;> first | exact .inl rfl | exact .inr ⟨rfl, rfl⟩ | cases h

theorem Settled.onInner {i : Nat} {inner : TransferInner} (h : Settled inner) (u : Update) :
    Settled (u.onInner i inner) := by
  cases u with
  | control j sequence opcode =>
    rw [Update.onInner]
    split
    · intro hresume
      cases Option.some.inj hresume
      exact lifeCycle_resume _
    · exact h
  | cancel j =>
    rw [Update.onInner, TransferInner.cancel]
    split
    · split
      · rintro - hpaused
        cases hpaused
      · exact h
    · exact h
  | serve j offset read =>
    rw [Update.onInner]
    split <;> exact h
  | deny | replay | beginRead | prune now | create nonce session => exact h

def AllSettled (shared : Shared) : Prop :=
  ∀ (i : Nat) (session : TransferSession), shared.sessions[i]? = some session →
    Settled session.inner

theorem AllSettled.run {shared : Shared} (h : AllSettled shared) (u : Update) :
    AllSettled (shared.run u) := by
  intro i session hsession
  cases hold : shared.sessions[i]? with
  | none =>
    rw [Shared.run_fresh hold hsession]
    nofun
  | some old =>
    cases (Shared.run_session hold u).symm.trans hsession
    exact (h i old hold).onInner u

namespace Serves

variable {shared : Shared} {rpc : Rpc Nat} {us : List Update} {reply : Reply Nat} {i : Nat}

theorem settled (h : AllSettled shared) : AllSettled (us.foldl Shared.run shared) :=
  Shared.foldl_invariant (I := AllSettled) AllSettled.run h us

theorem paused_cases (h : Serves shared rpc us reply)
    (hpaused : (us.foldl Shared.run shared).stateOf i = some .paused) :
    shared.stateOf i = some .paused ∨
    ∃ sequence session, rpc = .control i sequence .pause ∧ shared.sessions[i]? = some session ∧
      session.inner.state = .running ∧ session.inner.lastControlSequence < sequence := by
  obtain ⟨session', hsession', hstate⟩ := Shared.stateOf_eq_some hpaused
  have hsame : ∀ {u}, (∀ inner, (u.onInner i inner).state = inner.state) → us = [u] →
      shared.stateOf i = some .paused := by
    rintro u hu rfl
    cases hold : shared.sessions[i]? with
    | none =>
      rw [Shared.run_fresh hold hsession'] at hstate
      cases hstate
    | some old =>
      cases (Shared.run_session hold u).symm.trans hsession'
      rw [Shared.stateOf_eq hold, ← hu old.inner, hstate]
  have hcontrol : ∀ {j sequence opcode session next},
      rpc = .control j sequence opcode → shared.sessions[j]? = some session →
      ServerState.control session j sequence opcode = (us, next) →
      shared.stateOf i = some .paused ∨ ∃ sequence session, rpc = .control i sequence .pause ∧
        shared.sessions[i]? = some session ∧ session.inner.state = .running ∧
        session.inner.lastControlSequence < sequence := by
    intro j sequence opcode session next hrpc hsession h
    rcases control_cases h with ⟨-, -, rfl, -⟩ | ⟨-, rfl, -⟩ | ⟨hnew, rfl, -⟩
    · exact .inl hpaused
    · exact .inl hpaused
    · by_cases hji : j = i
      · subst hji
        cases (Shared.run_session hsession (.control j sequence opcode)).symm.trans hsession'
        rw [Update.onInner, if_pos rfl] at hstate
        rcases lifeCycle_paused hstate with hold | ⟨hrunning, rfl⟩
        · exact .inl ((Shared.stateOf_eq hsession).trans (congrArg some hold))
        · exact .inr ⟨sequence, session, hrpc, hsession, hrunning, hnew⟩
      · exact .inl (hsame (fun inner => by rw [Update.onInner, if_neg hji]) rfl)
  cases h with
  | begun => exact .inl (hsame (fun _ => rfl) rfl)
  | notBegun | status | paused | readFailed => exact .inl hpaused
  | control hsession h => exact hcontrol rfl hsession h
  | controlFailed hsession h => exact hcontrol rfl hsession h
  | range => exact .inl (hsame (fun inner => by rw [Update.onInner]; split <;> rfl) rfl)

theorem resumed {sequence : Nat} {status : TransferStatus} (hsettled : AllSettled shared)
    (h : Serves shared (.control i sequence .resume) us (.status status)) :
    (us.foldl Shared.run shared).stateOf i ≠ some .paused := by
  cases h with
  | @control _ _ _ session _ _ hsession h =>
    have hstate : (innerAfter i us session.inner).state ≠ .paused := by
      rcases control_cases h with ⟨-, hlast, rfl, -⟩ | ⟨-, -, -, hnext⟩ | ⟨-, rfl, -⟩
      · exact hsettled i session hsession hlast
      · cases hnext
      · rw [innerAfter, List.foldl_cons, List.foldl_nil, Update.onInner, if_pos rfl]
        exact lifeCycle_resume _
    rw [Shared.stateOf_eq (Shared.foldl_session hsession us)]
    exact fun hpaused => hstate (Option.some.inj hpaused)

end Serves

namespace TransferGroup

variable {group : TransferGroup} {thread : Thread Nat} {s : Nat} {pc pc' : SourcePc Nat}
  {reply reply' : Option (Reply Nat)}

theorem owes_startControls {all : List Nat} (h : s ∈ all) :
    Owes none (GroupOp.startControls .resumeAll all) s := by
  cases all with
  | nil => cases h
  | cons x rest =>
    rcases List.mem_cons.mp h with rfl | hrest
    · exact .inr ⟨rfl, rfl⟩
    · exact .inl hrest

theorem owes_advance {registry registry' : Registry Nat} {pc pc' : GroupPc Nat}
    (h : pc.advance registry .resumeAll = some (registry', pc')) (howes : Owes none pc s) :
    Owes none pc' s := by
  cases pc with
  | controlling all current sub rest total =>
    cases sub with
    | done result =>
      cases result with
      | ok status =>
        cases h
        rcases howes with hrest | ⟨-, hack⟩
        · cases rest with
          | nil => cases hrest
          | cons x rest =>
            rcases List.mem_cons.mp hrest with rfl | hrest
            · exact .inr ⟨rfl, rfl⟩
            · exact .inl hrest
        · cases hack
      | error error =>
        cases h
        exact True.intro
    | _ => cases h
  | done result => cases h
  | start | scanning todo found | cancelFlag all | storing all | aggregating => cases howes

theorem setFocus_controlling {op : GroupOp} {all rest : List Nat} {current : Nat}
    {sub : SourcePc Nat} {total : TransferGroupStatus} (hfocus : thread.focus = some (s, pc))
    (h : thread.setFocus pc' = .group op (.controlling all current sub rest total)) :
    thread = .group op (.controlling all s pc rest total) ∧ sub = pc' := by
  unfold Thread.focus at hfocus
  split at hfocus <;> cases hfocus <;> cases h
  exact ⟨rfl, rfl⟩

theorem owes_setFocus {pc'' : GroupPc Nat} (hfocus : thread.focus = some (s, pc))
    (h : thread.setFocus pc' = .group .resumeAll pc'')
    (hack : ∀ all rest total, thread = .group .resumeAll (.controlling all s pc rest total) →
      pc'.acknowledged reply' = true → pc.acknowledged reply = true) :
    ∃ pc₀, thread = .group .resumeAll pc₀ ∧ ∀ r, Owes reply pc₀ r → Owes reply' pc'' r := by
  unfold Thread.focus at hfocus
  split at hfocus <;> cases hfocus <;> cases h
  · refine ⟨_, rfl, fun r howes => howes.imp_right fun hcurrent => ⟨hcurrent.1, ?_⟩⟩
    have hnot := hack _ _ _ rfl
    cases hpc' : pc'.acknowledged reply' with
    | false => rfl
    | true => exact (hnot hpc').symm.trans hcurrent.2
  · exact ⟨_, rfl, fun r howes => howes⟩

structure Lawful (group : TransferGroup) : Prop where
  consistent : group.client.Consistent
  settled : AllSettled group.shared
  replied {t : Nat} {reply : Reply Nat} : group.replies t = some reply →
    ∃ thread : Thread Nat, group.client.threads[t]? = some thread ∧ thread.rpc ≠ none
  stored {t : Nat} : group.lastStored = some t → t < group.client.threads.length
  resumes {t s : Nat} {all rest : List Nat} {pc : SourcePc Nat} {total : TransferGroupStatus} :
    group.client.threads[t]? = some (.group .resumeAll (.controlling all s pc rest total)) →
      pc.resumes = true
  awaited {i : Nat} : group.shared.stateOf i = some .paused → group.Awaits i

namespace Lawful

variable {t : Nat} {source source' : RemoteSource Nat} {registry : Registry Nat}

theorem silent (hi : group.Lawful) (hthread : group.client.threads[t]? = some thread)
    (hquiet : thread.rpc = none) : group.replies t = none := by
  cases hreply : group.replies t with
  | none => rfl
  | some reply =>
    obtain ⟨found, hfound, hrpc⟩ := hi.replied hreply
    cases hfound.symm.trans hthread
    exact absurd hquiet hrpc

theorem unanswered (hi : group.Lawful)
    (h : ∀ thread ∈ group.client.threads, thread.rpc = none) (t : Nat) :
    group.replies t = none := by
  cases hreply : group.replies t with
  | none => rfl
  | some reply =>
    obtain ⟨found, hfound, hrpc⟩ := hi.replied hreply
    exact absurd (h found (List.mem_of_getElem? hfound)) hrpc

theorem moved (hi : group.Lawful) {moved : Thread Nat} {replies : Nat → Option (Reply Nat)}
    {lastStored : Option Nat} (hthread : group.client.threads[t]? = some thread)
    (hconsistent : (⟨registry, group.client.threads.set t moved⟩ : ClientWorld Nat).Consistent)
    (hreplies : ∀ u, u ≠ t → replies u = group.replies u) (hnone : replies t = none)
    (hstored : lastStored = group.lastStored ∨ lastStored = some t)
    (hresumes : ∀ s all rest pc total,
      moved = .group .resumeAll (.controlling all s pc rest total) → pc.resumes = true)
    (hawaited : ∀ i, group.shared.stateOf i = some .paused → Awaits
      ⟨⟨registry, group.client.threads.set t moved⟩, group.shared, replies, lastStored⟩ i) :
    Lawful ⟨⟨registry, group.client.threads.set t moved⟩, group.shared, replies, lastStored⟩ := by
  refine ⟨hconsistent, hi.settled, ?_, ?_, ?_, fun hpaused => hawaited _ hpaused⟩
  · intro u reply hreply
    by_cases hut : u = t
    · subst hut
      cases hnone.symm.trans hreply
    · obtain ⟨found, hfound, hrpc⟩ := hi.replied ((hreplies u hut).symm.trans hreply)
      exact ⟨found, by rw [List.getElem?_set_ne (Ne.symm hut), hfound], hrpc⟩
  · intro u hu
    rw [List.length_set]
    rcases hstored with rfl | rfl
    · exact hi.stored hu
    · cases hu
      exact (List.getElem?_eq_some_iff.mp hthread).1
  · intro u r all rest pc total hu
    rcases Position.set_cases hu with ⟨-, hmoved⟩ | ⟨-, hold⟩
    · exact hresumes _ _ _ _ _ hmoved.symm
    · exact hi.resumes hold

theorem awaits_moved (hi : group.Lawful) {moved : Thread Nat}
    {replies : Nat → Option (Reply Nat)} (hthread : group.client.threads[t]? = some thread)
    (hreplies : ∀ u, u ≠ t → replies u = group.replies u) (hnone : replies t = none)
    (hheld : ∀ r i, group.client.Holds r (fun source => source.transfer = some i) →
      (⟨registry, group.client.threads.set t moved⟩ : ClientWorld Nat).Holds r
        fun source => source.transfer = some i)
    (howes : ∀ pc, moved = .group .resumeAll pc → ∃ pc₀, thread = .group .resumeAll pc₀ ∧
      ∀ r, Owes (group.replies t) pc₀ r → Owes none pc r) {i : Nat}
    (hpaused : group.shared.stateOf i = some .paused) :
    Awaits ⟨⟨registry, group.client.threads.set t moved⟩, group.shared, replies,
      group.lastStored⟩ i := by
  intro u pc hlast hu
  rcases Position.set_cases hu with ⟨rfl, hmoved⟩ | ⟨hut, hold⟩
  · obtain ⟨pc₀, rfl, hkeep⟩ := howes pc hmoved.symm
    obtain ⟨r, hr, howed⟩ := hi.awaited hpaused u pc₀ hlast hthread
    refine ⟨r, hheld r i hr, ?_⟩
    simp only [hnone]
    exact hkeep r howed
  · obtain ⟨r, hr, howed⟩ := hi.awaited hpaused u pc hlast hold
    refine ⟨r, hheld r i hr, ?_⟩
    simp only [hreplies u hut]
    exact howed

theorem evolved (hi : group.Lawful) (hthread : group.client.threads[t]? = some thread)
    (hfocus : thread.focus = some (s, pc))
    (hsource : group.client.registry.sources[s]? = some source)
    (h : SourcePc.Evolves pc source pc' source') {replies : Nat → Option (Reply Nat)}
    (hreplies : ∀ u, u ≠ t → replies u = group.replies u) (hnone : replies t = none)
    (hstep : pc.resumes = true → pc'.resumes = true ∧
      (pc'.acknowledged none = true → pc.acknowledged (group.replies t) = true)) :
    Lawful ⟨⟨group.client.registry.setSource s source',
      group.client.threads.set t (thread.setFocus pc')⟩, group.shared, replies,
      group.lastStored⟩ := by
  refine hi.moved hthread (hi.consistent.evolves hthread hfocus hsource h) hreplies hnone
    (.inl rfl) ?_ fun i hpaused => hi.awaits_moved hthread hreplies hnone ?_ ?_ hpaused
  · intro r all rest sub total hmoved
    obtain ⟨rfl, rfl⟩ := setFocus_controlling hfocus hmoved
    exact (hstep (hi.resumes hthread)).1
  · intro r i hheld
    exact hi.consistent.transfer_kept hthread hfocus hsource h hheld
  · intro pc₁ hmoved
    refine owes_setFocus hfocus hmoved ?_
    rintro all rest total rfl
    exact (hstep (hi.resumes hthread)).2

theorem client (hi : group.Lawful) {l : ClientLabel Nat} {client : ClientWorld Nat}
    (hl : l.answered = false) (h : ClientStep group.client l client)
    (htimely : group.Timely (.client l)) :
    Lawful { group with client := client, lastStored := group.storedBy l } := by
  have hconsistent := hi.consistent.step h
  have hheld : ∀ r i, group.client.Holds r (fun source => source.transfer = some i) →
      client.Holds r fun source => source.transfer = some i :=
    fun r i hr => hi.consistent.holds_transfer h hr
  cases h with
  | @spawn added hspawned =>
    refine ⟨hconsistent, hi.settled, ?_, ?_, ?_, ?_⟩
    · intro u reply hreply
      obtain ⟨found, hfound, hrpc⟩ := hi.replied hreply
      have hlt := (List.getElem?_eq_some_iff.mp hfound).1
      exact ⟨found, (List.getElem?_append_left hlt).trans hfound, hrpc⟩
    · intro u hu
      exact (hi.stored hu).trans_le (by simp)
    · intro u r all rest sub total hu
      rcases Position.concat_cases hu with hold | ⟨-, rfl⟩
      · exact hi.resumes hold
      · cases hspawned
    · intro i hpaused u sub hlast hu
      rcases Position.concat_cases hu with hold | ⟨rfl, -⟩
      · exact hi.awaited hpaused u sub hlast hold
      · exact absurd (hi.stored hlast) (Nat.lt_irrefl _)
  | remember connection manifest entry =>
    refine ⟨hconsistent, hi.settled, hi.replied, hi.stored, hi.resumes, ?_⟩
    intro i hpaused u sub hlast hu
    obtain ⟨r, hr, howed⟩ := hi.awaited hpaused u sub hlast hu
    exact ⟨r, hheld r i hr, howed⟩
  | source hthread hfocus hsource h =>
    have hquiet := (Thread.rpc_eq hfocus).trans (SourcePc.advance_silent h _)
    have hnone := hi.silent hthread hquiet
    refine hi.evolved hthread hfocus hsource (SourcePc.advance_evolves h) (fun _ _ => rfl) hnone
      fun hresumes => ?_
    obtain ⟨hresumes', hack⟩ := SourcePc.advance_resumes hresumes h
    exact ⟨hresumes', fun hpc' => by cases hack.symm.trans hpc'⟩
  | @group t op sub sub' registry hthread hfree h =>
    have hnone := hi.silent hthread (GroupPc.advance_quiet h)
    have hresumes : ∀ s all rest pc total,
        Thread.group op sub' = .group .resumeAll (.controlling all s pc rest total) →
          pc.resumes = true := by
      intro s all rest pc total hmoved
      cases hmoved
      cases (GroupPc.advance_launching h).2 with
      | idle hidle => cases hidle
      | control => rfl
    by_cases hstoring : ∃ all, sub = .storing all
    · obtain ⟨all, rfl⟩ := hstoring
      refine hi.moved hthread hconsistent (fun _ _ => rfl) hnone (.inr ?_) hresumes ?_
      · rw [storedBy, hthread]
      · intro i hpaused u pc hlast hu
        rw [storedBy, hthread] at hlast
        cases hlast
        rcases Position.set_cases hu with ⟨-, hmoved⟩ | ⟨hut, -⟩
        · cases hmoved
          cases h
          obtain ⟨r, hr, hsource⟩ := htimely all hthread i hpaused
          refine ⟨r, hheld r i hsource, ?_⟩
          simp only [hnone]
          exact owes_startControls hr
        · exact absurd rfl hut
    · have hlast : group.storedBy (.group t) = group.lastStored := by
        rw [storedBy, hthread]
        cases sub with
        | storing all => exact absurd ⟨all, rfl⟩ hstoring
        | _ => rfl
      rw [hlast]
      refine hi.moved hthread hconsistent (fun _ _ => rfl) hnone (.inl rfl) hresumes
        fun i hpaused => hi.awaits_moved hthread (fun _ _ => rfl) hnone hheld ?_ hpaused
      intro pc hmoved
      cases hmoved
      refine ⟨sub, rfl, fun r howed => owes_advance h ?_⟩
      rw [← hnone]
      exact howed
  | answer => cases hl

theorem answer (hi : group.Lawful) {reply : Reply Nat} {client : ClientWorld Nat}
    (hreply : group.replies t = some reply)
    (h : ClientStep group.client (.answer t reply) client) :
    Lawful { group with
      client := client, replies := Function.update group.replies t none } := by
  cases h with
  | answer hthread hfocus hsource h =>
    refine hi.evolved hthread hfocus hsource (SourcePc.answer_evolves h)
      (fun u hut => Function.update_of_ne hut _ _) (Function.update_self _ _ _) fun hresumes => ?_
    rw [hreply]
    exact SourcePc.answer_resumes hresumes h

theorem owes_served (hi : group.Lawful) {rpc : Rpc Nat} {us : List Update} {reply : Reply Nat}
    (hrpc : group.rpc t = some rpc) (hnone : group.replies t = none)
    (h : Serves group.shared rpc us reply) {i : Nat}
    (hpaused : (us.foldl Shared.run group.shared).stateOf i = some .paused) {pc : GroupPc Nat}
    (hthread : group.client.threads[t]? = some (.group .resumeAll pc))
    (hheld : group.client.Holds s fun source => source.transfer = some i)
    (howes : Owes (group.replies t) pc s) : Owes (some reply) pc s := by
  rw [hnone] at howes
  cases pc with
  | controlling all current sub rest total =>
    refine howes.imp_right fun hcurrent => ⟨hcurrent.1, ?_⟩
    obtain ⟨rfl, hack⟩ := hcurrent
    cases sub with
    | controlling c sequence opcode =>
      have hopcode := hi.resumes hthread
      simp only [SourcePc.resumes, decide_eq_true_eq] at hopcode
      subst hopcode
      cases hrpc.symm.trans (show group.rpc t = some (.control c sequence .resume) by
        rw [TransferGroup.rpc, hthread]; rfl)
      cases reply with
      | status status =>
        have hcarried := hi.consistent.carried ⟨_, hthread, rfl⟩ rfl
        obtain ⟨source, hsource, hi'⟩ := hheld
        cases hi'.symm.trans (hcarried.elim hsource)
        exact absurd hpaused (h.resumed hi.settled)
      | began | range | failed => rfl
    | done result => cases result <;> exact hack
    | _ => exact hack
  | done result => cases result <;> exact howes
  | _ => exact howes

theorem serve (hi : group.Lawful) {rpc : Rpc Nat} {us : List Update} {reply : Reply Nat}
    (hrpc : group.rpc t = some rpc) (hnone : group.replies t = none)
    (h : Serves group.shared rpc us reply) (htimely : group.Timely (.serve t)) :
    Lawful { group with
      shared := us.foldl Shared.run group.shared
      replies := Function.update group.replies t (some reply) } := by
  refine ⟨hi.consistent, Serves.settled hi.settled, ?_, hi.stored, hi.resumes, ?_⟩
  · intro u reply' hreply
    by_cases hut : u = t
    · subst hut
      obtain ⟨thread, hthread, hthreadRpc⟩ := Option.bind_eq_some_iff.mp hrpc
      exact ⟨thread, hthread, by rw [hthreadRpc]; nofun⟩
    · simp only [Function.update_of_ne hut] at hreply
      exact hi.replied hreply
  · intro i hpaused u pc hlast hu
    have hawaits : group.Awaits i := by
      rcases h.paused_cases hpaused with hold | ⟨sequence, session, rfl, hsession, hstate, hnew⟩
      · exact hi.awaited hold
      · exact htimely i sequence session hrpc hsession hstate hnew
    obtain ⟨r, hr, howed⟩ := hawaits u pc hlast hu
    refine ⟨r, hr, ?_⟩
    by_cases hut : u = t
    · subst hut
      simp only [Function.update_self]
      exact hi.owes_served hrpc hnone h hpaused hu hr howed
    · simp only [Function.update_of_ne hut]
      exact howed

theorem step {group' : TransferGroup} {l : GroupLabel} (hi : group.Lawful)
    (h : TimelyStep group l group') : group'.Lawful := by
  obtain ⟨hstep, htimely⟩ := h
  cases hstep with
  | client hl h => exact hi.client hl h htimely
  | serve hrpc hnone h => exact hi.serve hrpc hnone h htimely
  | answer hreply h => exact hi.answer hreply h

theorem start : TransferGroup.start.Lawful where
  consistent := ClientWorld.Consistent.empty
  settled _ _ h := by cases h
  replied h := by cases h
  stored h := by cases h
  resumes h := by cases h
  awaited h := by cases h

end Lawful

theorem acknowledged_of_none {κ : Type} {pc : SourcePc κ} {reply : Option (Reply κ)}
    (h : pc.acknowledged reply = false) : pc.acknowledged none = false := by
  cases pc with
  | done result => cases result <;> exact h
  | _ => rfl

theorem Owes.none {pc : GroupPc Nat} (h : Owes reply pc s) : Owes none pc s := by
  cases pc with
  | controlling all current sub rest total =>
    exact h.imp_right fun hcurrent => ⟨hcurrent.1, acknowledged_of_none hcurrent.2⟩
  | done result => cases result <;> exact h
  | start | scanning todo found | cancelFlag all | storing all | aggregating => exact h

theorem untimely_step {group group' : TransferGroup} {l : GroupLabel} (h : Step group l group')
    (hl : ¬group.Timely l) :
    ∃ i, group'.shared.stateOf i = some .paused ∧ ¬group'.Awaits i := by
  cases h with
  | @serve t rpc us reply hrpc hnone h =>
    simp only [Timely, Classical.not_forall] at hl
    obtain ⟨i, sequence, session, hpause, hsession, hrunning, hnew, hawaits⟩ := hl
    cases hpause.symm.trans hrpc
    refine ⟨i, ?_, fun hawaits' => hawaits fun u pc hlast hthread => ?_⟩
    · have hpaused : ∀ {next}, ServerState.control session i sequence .pause = (us, next) →
          (us.foldl Shared.run group.shared).stateOf i = some .paused := by
        intro next h
        rcases control_cases h with ⟨hlast, -⟩ | ⟨hle, -⟩ | ⟨-, rfl, -⟩
        · omega
        · omega
        · rw [Shared.stateOf_eq (Shared.foldl_session hsession _), innerAfter, List.foldl_cons,
            List.foldl_nil, Update.onInner, if_pos rfl, TransferInner.accept, hrunning]
          rfl
      cases h with
      | control hfound h | controlFailed hfound h =>
        cases hfound.symm.trans hsession
        exact hpaused h
    · obtain ⟨r, hr, howed⟩ := hawaits' u pc hlast hthread
      refine ⟨r, hr, ?_⟩
      by_cases hut : u = t
      · subst hut
        rw [hnone]
        exact howed.none
      · simp only [Function.update_of_ne hut] at howed
        exact howed
  | @client l client hunanswered h =>
    cases h with
    | @group t op pc pc' registry hthread hfree h =>
      simp only [Timely, Classical.not_forall] at hl
      obtain ⟨all, hstoring, i, hpaused, hnobody⟩ := hl
      cases hthread.symm.trans hstoring
      refine ⟨i, hpaused, fun hawaits => ?_⟩
      have hlast : group.storedBy (.group t) = some t := by rw [storedBy, hthread]
      have hlt := (List.getElem?_eq_some_iff.mp hthread).1
      obtain ⟨r, hr, howed⟩ := hawaits t pc' hlast
        (by rw [List.getElem?_set_self hlt])
      cases h
      refine hnobody ⟨r, ?_, hr⟩
      cases all with
      | nil => cases howed
      | cons x rest =>
        rcases howed with hrest | ⟨rfl, -⟩
        · exact List.mem_cons_of_mem _ hrest
        · exact List.mem_cons_self
    | spawn | remember | source | answer => exact absurd trivial hl
  | answer => exact absurd trivial hl

theorem resume_law {group : TransferGroup} {labels : List GroupLabel}
    (h : Run TimelyStep .start labels group) {t : Nat} {status : TransferGroupStatus}
    (hlast : group.lastStored = some t)
    (hdone : group.client.threads[t]? = some (.group .resumeAll (.done (.ok status)))) (i : Nat) :
    group.shared.stateOf i ≠ some .paused := by
  intro hpaused
  have hlawful := h.invariant (I := Lawful) Lawful.step Lawful.start
  obtain ⟨s, -, howed⟩ := hlawful.awaited hpaused t _ hlast hdone
  exact howed

namespace TimelyStep

variable {t : Nat} {reply : Reply Nat} {client : ClientWorld Nat}

theorem remember {group : TransferGroup} (manifest : OfferManifest) (entry : OfferManifestEntry)
    (hfree : group.client.RegistryFree) :
    TimelyStep group (.client .remember) { group with
      client := { group.client with
        registry := group.client.registry.rememberSource (.new 0 manifest entry) } } :=
  ⟨.client rfl (.remember 0 manifest entry hfree), trivial⟩

theorem spawn {group : TransferGroup} {thread : Thread Nat} (h : thread.Spawned) :
    TimelyStep group (.client (.spawn thread)) { group with
      client := { group.client with threads := group.client.threads ++ [thread] } } :=
  ⟨.client rfl (.spawn h), trivial⟩

theorem source {group : TransferGroup} (h : ClientStep group.client (.source t) client) :
    TimelyStep group (.client (.source t)) { group with client := client } :=
  ⟨.client rfl h, trivial⟩

theorem answer {group : TransferGroup} (hreply : group.replies t = some reply)
    (h : ClientStep group.client (.answer t reply) client) :
    TimelyStep group (.client (.answer t reply))
      { group with client := client, replies := Function.update group.replies t none } :=
  ⟨.answer hreply h, trivial⟩

theorem regroup {group : TransferGroup} (h : ClientStep group.client (.group t) client)
    (hother : ∀ all, group.client.threads[t]? ≠ some (.group .resumeAll (.storing all))) :
    TimelyStep group (.client (.group t))
      { group with client := client, lastStored := group.storedBy (.group t) } :=
  ⟨.client rfl h, fun all hthread => absurd hthread (hother all)⟩

theorem serve {group : TransferGroup} {rpc : Rpc Nat} {us : List Update}
    (hrpc : group.rpc t = some rpc) (hnone : group.replies t = none)
    (h : Serves group.shared rpc us reply)
    (hother : ∀ i sequence, group.rpc t ≠ some (.control i sequence .pause)) :
    TimelyStep group (.serve t)
      { group with
        shared := us.foldl Shared.run group.shared
        replies := Function.update group.replies t (some reply) } :=
  ⟨.serve hrpc hnone h, fun i sequence _ h => absurd h (hother i sequence)⟩

end TimelyStep

def soloRead : Thread Nat := .source 0 (.readAt 0 1) (.start (.readAt 0 1))

def soloGroup (op : GroupOp) : Thread Nat := .group op .start

def soloClient : ClientWorld Nat where
  registry := ⟨[⟨0, repeatedId 0, repeatedId 1, ['a'], 5, some 0, false, 3, false, 1, 0⟩], [0], false, false⟩
  threads := [.source 0 (.readAt 0 1) (.allocatePause (.read 0 1) 0),
    .group .pauseAll (.done (.ok ⟨.paused, 1, 0, 1, 0, true⟩)),
    .group .resumeAll (.done (.ok ⟨.running, 1, 0, 1, 0, true⟩))]

def soloShared : Shared :=
  [.create (repeatedSecret 5) soloSession, .control 0 1 .pause, .control 0 2 .resume].foldl
    Shared.run .empty

theorem soloResume_run : ∃ labels group, labels.all GroupLabel.plain = true ∧
    Run TimelyStep .start labels group ∧ group.client = soloClient ∧ group.shared = soloShared ∧
    group.lastStored = some 2 := by
  have h := (@Run.nil _ _ TimelyStep start)
    |>.snoc (.remember soloServer.offered.storedManifest ⟨repeatedId 1, .basic ['a'] 5⟩
      (ClientWorld.registryFree_of_all rfl))
    |>.snoc (@TimelyStep.spawn _ soloRead rfl)
    |>.snoc (.source (t := 0) (.source rfl rfl rfl rfl))
    |>.snoc (.source (t := 0) (.source rfl rfl rfl rfl))
    |>.snoc (.source (t := 0) (.source rfl rfl rfl rfl))
    |>.snoc (.source (t := 0) (.source rfl rfl rfl rfl))
    |>.snoc (.serve (t := 0) rfl rfl (.begun (repeatedSecret 5) soloSession) nofun)
    |>.snoc (.answer (t := 0) rfl (.answer rfl rfl rfl rfl))
    |>.snoc (.source (t := 0) (.source rfl rfl rfl rfl))
    |>.snoc (@TimelyStep.spawn _ (soloGroup .pauseAll) rfl)
    |>.snoc (.regroup (t := 1) (.group rfl (fun _ => ClientWorld.registryFree_of_all rfl) rfl)
      (fun _ h => by cases h))
    |>.snoc (.regroup (t := 1) (.group rfl nofun rfl) (fun _ h => by cases h))
    |>.snoc (.regroup (t := 1) (.group rfl nofun rfl) (fun _ h => by cases h))
    |>.snoc (.regroup (t := 1) (.group rfl nofun rfl) (fun _ h => by cases h))
    |>.snoc (.source (t := 1) (.source rfl rfl rfl rfl))
    |>.snoc (.source (t := 1) (.source rfl rfl rfl rfl))
    |>.snoc (.source (t := 1) (.source rfl rfl rfl rfl))
    |>.snoc ⟨.serve (t := 1) rfl rfl (.control rfl rfl),
      fun i sequence session _ _ _ _ t pc hlast ht => by cases hlast; cases ht⟩
    |>.snoc (.answer (t := 1) rfl (.answer rfl rfl rfl rfl))
    |>.snoc (.regroup (t := 1) (.group rfl nofun rfl) (fun _ h => by cases h))
    |>.snoc (.source (t := 1) (.source rfl rfl rfl rfl))
    |>.snoc (.source (t := 1) (.source rfl rfl rfl rfl))
    |>.snoc (.serve (t := 1) rfl rfl (.status rfl) nofun)
    |>.snoc (.answer (t := 1) rfl (.answer rfl rfl rfl rfl))
    |>.snoc (.regroup (t := 1) (.group rfl nofun rfl) (fun _ h => by cases h))
    |>.snoc (.source (t := 0) (.source rfl rfl rfl rfl))
    |>.snoc (@TimelyStep.spawn _ (soloGroup .resumeAll) rfl)
    |>.snoc (.regroup (t := 2) (.group rfl (fun _ => ClientWorld.registryFree_of_all rfl) rfl)
      (fun _ h => by cases h))
    |>.snoc (.regroup (t := 2) (.group rfl nofun rfl) (fun _ h => by cases h))
    |>.snoc (.regroup (t := 2) (.group rfl nofun rfl) (fun _ h => by cases h))
    |>.snoc ⟨.client rfl (.group (t := 2) rfl nofun rfl), fun all ht i hpaused => by
      cases ht
      cases i with
      | zero => exact ⟨0, List.mem_singleton_self 0, _, rfl, rfl⟩
      | succ i => cases hpaused⟩
    |>.snoc (.source (t := 2) (.source rfl rfl rfl rfl))
    |>.snoc (.source (t := 2) (.source rfl rfl rfl rfl))
    |>.snoc (.source (t := 2) (.source rfl rfl rfl rfl))
    |>.snoc (.serve (t := 2) rfl rfl (.control rfl rfl) nofun)
    |>.snoc (.answer (t := 2) rfl (.answer rfl rfl rfl rfl))
    |>.snoc (.regroup (t := 2) (.group rfl nofun rfl) (fun _ h => by cases h))
    |>.snoc (.source (t := 2) (.source rfl rfl rfl rfl))
    |>.snoc (.source (t := 2) (.source rfl rfl rfl rfl))
    |>.snoc (.serve (t := 2) rfl rfl (.status rfl) nofun)
    |>.snoc (.answer (t := 2) rfl (.answer rfl rfl rfl rfl))
    |>.snoc (.regroup (t := 2) (.group rfl nofun rfl) (fun _ h => by cases h))
  exact ⟨_, _, rfl, h, rfl, rfl, rfl⟩

theorem replies_answered {replies : Nat → Option (Reply Nat)} (h : ∀ t, replies t = none)
    (t u : Nat) (reply : Reply Nat) :
    Function.update (Function.update replies u (some reply)) u none t = none := by
  rw [Function.update_idem]
  by_cases htu : t = u
  · rw [htu, Function.update_self]
  · rw [Function.update_of_ne htu, h]

theorem resume_law_solo : ∃ group : TransferGroup, group.lastStored = some 2 ∧
    group.shared.sessions.length = 1 ∧ group.shared.stateOf 0 ≠ some .paused := by
  obtain ⟨labels, group, -, hrun, hclient, hshared, hlast⟩ := soloResume_run
  exact ⟨group, hlast, by rw [hshared]; rfl,
    resume_law hrun hlast (by rw [hclient]; rfl) 0⟩

/-! A read that saw the paused flag sends its Pause after resume_all is done. -/

theorem late_pause_outlives_resume :
    ¬∀ (labels : List GroupLabel) (group : TransferGroup) (t : Nat) (status : TransferGroupStatus),
      labels.all GroupLabel.plain = true → Run Step .start labels group → group.Quiescent →
      group.lastStored = some t →
      group.client.threads[t]? = some (.group .resumeAll (.done (.ok status))) →
      ∀ i, group.shared.stateOf i ≠ some .paused := by
  intro hlaw
  obtain ⟨labels, group, hplain, hrun, hclient, hshared, hlast⟩ := soloResume_run
  have hreplies := (hrun.invariant (I := Lawful) Lawful.step Lawful.start).unanswered
    (by rw [hclient]; decide)
  obtain ⟨client, shared, replies, lastStored⟩ := group
  subst hclient hshared hlast
  have h := (hrun.mono fun h => h.1)
    |>.snoc (.client rfl (.source (t := 0) rfl rfl rfl rfl))
    |>.snoc (.serve (t := 0) rfl (hreplies 0) (.control rfl rfl))
    |>.snoc (.answer (t := 0) rfl (.answer rfl rfl rfl rfl))
    |>.snoc (.serve (t := 0) rfl rfl (.paused rfl rfl))
    |>.snoc (.answer (t := 0) rfl (.answer rfl rfl rfl rfl))
  refine hlaw _ _ 2 _ ?_ h ?_ rfl rfl 0 rfl
  · simp [hplain, GroupLabel.plain]
  · exact ⟨fun t => replies_answered (fun u => replies_answered hreplies u 0 _) t 0 _,
      List.all_eq_true.mp rfl⟩

end TransferGroup

end ClipFerry.Client
