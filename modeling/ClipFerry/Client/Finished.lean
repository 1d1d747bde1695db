import ClipFerry.Client.Credentials
import ClipFerry.Client.LocalProgress

namespace ClipFerry.Client

open Protocol Server Transition

variable {κ : Type}

namespace SourcePc

variable {pc pc' : SourcePc κ} {source source' : RemoteSource κ} {reply : Reply κ}

theorem completing_proceed (c : κ) (purpose : Purpose) :
    (proceed c purpose).completing = false := by cases purpose <;> rfl

theorem completing_fail (error : IoError) (purpose : Purpose) :
    (fail error purpose : SourcePc κ).completing = false := by cases purpose <;> rfl

theorem atEnd_proceed (c : κ) (purpose : Purpose) : (proceed c purpose).atEnd = false := by
  cases purpose <;> rfl

theorem atEnd_fail (error : IoError) (purpose : Purpose) :
    (fail error purpose : SourcePc κ).atEnd = false := by cases purpose <;> rfl

theorem reads_proceed (c : κ) (purpose : Purpose) :
    (proceed c purpose).reads = forRead purpose := by cases purpose <;> rfl

theorem reads_fail (error : IoError) (purpose : Purpose) :
    (fail error purpose : SourcePc κ).reads = forRead purpose := by cases purpose <;> rfl

theorem completes_proceed (c : κ) (purpose : Purpose) :
    (proceed c purpose).completes = toComplete purpose := by
  cases purpose with
  | control sequence opcode => cases opcode <;> rfl
  | _ => rfl

theorem completes_fail (error : IoError) (purpose : Purpose) :
    (fail error purpose : SourcePc κ).completes = false := by cases purpose <;> rfl

theorem advance_started {paused cancelled : Bool}
    (h : pc.advance paused cancelled source = some (source', pc')) (task : SourceTask) :
    pc' ≠ .start task := by
  have hproceed : ∀ c purpose, (proceed c purpose : SourcePc κ) ≠ .start task := by
    intro c purpose heq
    cases purpose <;> cases heq
  unfold advance at h
  split at h <;> (try split at h) <;> (try split at h) <;> cases h <;>
    first | exact hproceed _ _ | (intro heq; cases heq)

theorem answer_started (h : pc.answer source reply = some (source', pc')) (task : SourceTask) :
    pc' ≠ .start task := by
  have hproceed : ∀ c purpose, (proceed c purpose : SourcePc κ) ≠ .start task := by
    intro c purpose heq
    cases purpose <;> cases heq
  have hfail : ∀ error purpose, (fail error purpose : SourcePc κ) ≠ .start task := by
    intro error purpose heq
    cases purpose <;> cases heq
  unfold answer at h
  split at h <;> cases h <;> (try split) <;>
    first | exact hproceed _ _ | exact hfail _ _ | (intro heq; cases heq)

theorem reads_of_completing (h : pc.completing = true) : pc.reads = true := by
  cases pc <;> first | rfl | cases h

inductive Marks (pc : SourcePc κ) (source : RemoteSource κ) (pc' : SourcePc κ)
    (source' : RemoteSource κ) : Prop
  | same (hflag : source'.completionSent = source.completionSent)
      (hcompleting : pc'.completing = pc.completing)
      (hend : pc'.atEnd = true → source.completionSent = true ∨
        ∃ offset, pc = .start (.readAt offset 0))
  | mark (hpc : pc.reads = true) (hfree : source.completionSent = false)
      (hflag : source'.completionSent = true) (hcompleting : pc'.completing = true)
      (hend : pc'.atEnd = false)
  | sent (hflag : source'.completionSent = source.completionSent) (hpc : pc.completing = true)
      (hcompleting : pc'.completing = false) (hend : pc'.atEnd = true)
  | unmark (hpc : pc.completing = true) (hflag : source'.completionSent = false)
      (hcompleting : pc'.completing = false) (hend : pc'.atEnd = false)

theorem Marks.quiet (hflag : source'.completionSent = source.completionSent)
    (hcompleting : pc'.completing = pc.completing) (hend : pc'.atEnd = false) :
    Marks pc source pc' source' :=
  .same hflag hcompleting fun h => by simp [hend] at h

theorem advance_marks {paused cancelled : Bool} (hplain : pc.completes = false)
    (h : pc.advance paused cancelled source = some (source', pc')) :
    Marks pc source pc' source' := by
  cases pc with
  | received c offset bytes =>
    simp only [advance] at h
    split at h
    · cases h
      exact .quiet rfl rfl rfl
    · split at h
      · rename_i hend
        cases h
        exact .mark rfl hend.2.2 rfl rfl rfl
      · rename_i hshort hend
        cases h
        refine .same rfl rfl fun hatEnd => .inl ?_
        have hempty : bytes = [] := by
          cases bytes with
          | nil => rfl
          | cons b bytes => cases hatEnd
        by_contra hflag
        exact hend ⟨hempty, by simpa [hempty, UInt64.not_lt] using hshort, by simpa using hflag⟩
  | unmarkComplete error =>
    cases h
    exact .unmark rfl rfl rfl rfl
  | markComplete status => cases hplain
  | start task =>
    cases task with
    | readAt offset length =>
      cases h
      by_cases hlength : length = 0
      · subst hlength
        exact .same rfl rfl fun _ => .inr ⟨offset, rfl⟩
      · refine .quiet rfl ?_ ?_ <;> rw [if_neg hlength] <;> rfl
    | sendControl opcode | status | complete =>
      cases h
      refine .quiet rfl ?_ ?_ <;> (try split) <;> rfl
    | cancelLocalFirst =>
      simp only [advance] at h
      split at h
      · cases h
      · split at h <;> cases h <;> exact .quiet rfl rfl rfl
  | lockTransfer purpose =>
    simp only [advance] at h
    split at h
    · cases h
    · split at h <;> cases h
      · exact .quiet rfl (completing_proceed _ _) (atEnd_proceed _ _)
      · exact .quiet rfl rfl rfl
  | gateCancelled offset length | checkCancelled purpose c | checkPaused purpose c =>
    cases h
    refine .quiet rfl ?_ ?_ <;> split <;>
      first | rfl | exact completing_proceed _ _ | exact atEnd_proceed _ _
  | gatePaused offset length =>
    simp only [advance] at h
    split at h <;> cases h <;> exact .quiet rfl rfl rfl
  | allocate opcode | allocateCancel purpose c | allocatePause purpose c | allocateLocal c
  | napping c offset requested | allocateComplete c =>
    cases h
    exact .quiet rfl rfl rfl
  | beginning purpose | sendCancel purpose c sequence | sendPause purpose c sequence
  | reading c offset requested | sendComplete c sequence | controlling c sequence opcode
  | asking c | returned result | done result => cases h

theorem answer_marks (hplain : pc.completes = false)
    (h : pc.answer source reply = some (source', pc')) : Marks pc source pc' source' := by
  unfold answer at h
  split at h <;> cases h
  all_goals try exact .quiet rfl rfl rfl
  · exact .quiet rfl (completing_fail _ _) (atEnd_fail _ _)
  · exact .quiet rfl (completing_fail _ _) (atEnd_fail _ _)
  · exact .quiet rfl (completing_fail _ _) (atEnd_fail _ _)
  · exact .quiet rfl (completing_proceed _ _) (atEnd_proceed _ _)
  · exact .quiet rfl (completing_fail _ _) (atEnd_fail _ _)
  · refine .quiet rfl ?_ ?_ <;> split <;> rfl
  · exact .sent rfl rfl rfl rfl
  · refine .quiet rfl ?_ ?_ <;> split <;> rfl

theorem advance_plain {paused cancelled : Bool} (hplain : pc.completes = false)
    (h : pc.advance paused cancelled source = some (source', pc')) :
    pc'.completes = false ∧ (pc.reads = false → pc'.reads = false) := by
  cases pc with
  | start task =>
    cases task with
    | readAt offset length =>
      cases h
      split <;> exact ⟨rfl, fun hreads => by cases hreads⟩
    | sendControl opcode => cases h; cases opcode <;> first | exact ⟨rfl, fun _ => rfl⟩ | cases hplain
    | complete => cases hplain
    | status => cases h; exact ⟨rfl, fun _ => rfl⟩
    | cancelLocalFirst =>
      simp only [advance] at h
      split at h
      · cases h
      · split at h <;> cases h <;> exact ⟨rfl, fun _ => rfl⟩
  | lockTransfer purpose =>
    simp only [advance] at h
    split at h
    · cases h
    · split at h <;> cases h
      · exact ⟨(completes_proceed _ _).trans hplain, (reads_proceed _ _).trans⟩
      · exact ⟨hplain, id⟩
  | checkCancelled purpose c | checkPaused purpose c =>
    cases h
    split
    · exact ⟨hplain, id⟩
    · first
      | exact ⟨hplain, id⟩
      | exact ⟨(completes_proceed _ _).trans hplain, (reads_proceed _ _).trans⟩
  | received c offset bytes =>
    simp only [advance] at h
    split at h
    · cases h; exact ⟨rfl, id⟩
    · split at h <;> cases h <;> exact ⟨rfl, id⟩
  | gateCancelled offset length => cases h; split <;> exact ⟨rfl, id⟩
  | gatePaused offset length =>
    simp only [advance] at h
    split at h <;> cases h <;> exact ⟨rfl, id⟩
  | allocate opcode =>
    cases h
    cases opcode <;> first | exact ⟨rfl, fun _ => rfl⟩ | cases hplain
  | allocateCancel purpose c | allocatePause purpose c | allocateLocal c
  | napping c offset requested | allocateComplete c | unmarkComplete error =>
    cases h
    exact ⟨hplain, id⟩
  | markComplete status => cases hplain
  | beginning purpose | sendCancel purpose c sequence | sendPause purpose c sequence
  | reading c offset requested | sendComplete c sequence | controlling c sequence opcode
  | asking c | returned result | done result => cases h

theorem answer_plain (hplain : pc.completes = false)
    (h : pc.answer source reply = some (source', pc')) :
    pc'.completes = false ∧ (pc.reads = false → pc'.reads = false) := by
  unfold answer at h
  split at h <;> cases h
  all_goals try exact ⟨hplain, id⟩
  · exact ⟨completes_fail _ _, (reads_fail _ _).trans⟩
  · exact ⟨completes_fail _ _, (reads_fail _ _).trans⟩
  · exact ⟨completes_fail _ _, (reads_fail _ _).trans⟩
  · exact ⟨(completes_proceed _ _).trans hplain, (reads_proceed _ _).trans⟩
  · exact ⟨completes_fail _ _, (reads_fail _ _).trans⟩
  · split <;> exact ⟨rfl, id⟩
  · rename_i opcode status
    cases opcode <;> first | exact ⟨rfl, id⟩ | cases hplain
  · exact ⟨rfl, id⟩

theorem atEnd_eq (h : pc.atEnd = true) : pc = .returned (.ok []) := by
  unfold atEnd at h
  split at h
  · rfl
  · cases h

end SourcePc

structure Thread.Plain (thread : Thread κ) : Prop where
  completes {s : Nat} {pc : SourcePc κ} : thread.focus = some (s, pc) → pc.completes = false
  reads {s : Nat} {pc : SourcePc κ} : thread.focus = some (s, pc) → pc.reads = true →
    ∃ offset length, thread = .source s (.readAt offset length) pc ∧
      (length = 0 → pc = .start (.readAt offset 0) ∨ pc.atEnd = true) ∧
      ∀ task, pc = .start task → task = .readAt offset length

def ClientWorld.AtEnd (client : ClientWorld κ) (s : Nat) : Prop :=
  ∃ (u : Nat) (offset : UInt64) (length : Nat), client.threads[u]? =
    some (.source s (.readAt offset length) (.returned (.ok []))) ∧ length ≠ 0

def ClientWorld.Completing (client : ClientWorld κ) (t s : Nat) : Prop :=
  ∃ pc, client.At t s pc ∧ pc.completing = true

structure ClientWorld.Calling (client : ClientWorld κ) (t : Nat) : Prop where
  plain {thread : Thread κ} : client.threads[t]? = some thread → thread.Plain
  flags {s : Nat} {source : RemoteSource κ} : client.registry.sources[s]? = some source →
    (source.completionSent = true ↔ client.AtEnd s ∨ client.Completing t s)
  apart {s : Nat} : client.Completing t s → ¬client.AtEnd s
  ended {s : Nat} : client.AtEnd s → s < client.registry.sources.length

namespace ClientWorld

variable {client : ClientWorld κ} {registry : Registry κ} {thread : Thread κ} {t s r : Nat}
  {pc pc' : SourcePc κ} {source source' : RemoteSource κ}

theorem AtEnd.set_iff (hthread : client.threads[t]? = some thread)
    (hfocus : thread.focus = some (s, pc)) (hlive : ∀ result, pc ≠ .returned result) :
    (⟨registry, client.threads.set t (thread.setFocus pc')⟩ : ClientWorld κ).AtEnd r ↔
      client.AtEnd r ∨ ∃ offset length, thread = .source r (.readAt offset length) pc ∧
        pc'.atEnd = true ∧ length ≠ 0 := by
  constructor
  · rintro ⟨u, offset, length, hfound, hlength⟩
    rcases Position.set_cases hfound with ⟨rfl, hset⟩ | ⟨-, hold⟩
    · refine .inr ⟨offset, length, ?_, ?_, hlength⟩
      · cases thread with
        | source j task q =>
          cases hset
          cases hfocus
          rfl
        | group op q => cases q <;> cases hset
      · cases thread with
        | source j task q => cases hset; rfl
        | group op q => cases q <;> cases hset
    · exact .inl ⟨u, offset, length, hold, hlength⟩
  · rintro (⟨u, offset, length, hfound, hlength⟩ | ⟨offset, length, rfl, hend, hlength⟩)
    · refine ⟨u, offset, length, ?_, hlength⟩
      have hut : t ≠ u := by
        rintro rfl
        cases hthread.symm.trans hfound
        cases hfocus
        exact hlive _ rfl
      rw [List.getElem?_set_ne hut]
      exact hfound
    · refine ⟨t, offset, length, ?_, hlength⟩
      rw [List.getElem?_set_self (List.getElem?_eq_some_iff.mp hthread).1,
        ← SourcePc.atEnd_eq hend]
      rfl

theorem Completing.set_iff (hthread : client.threads[t]? = some thread)
    (hfocus : thread.focus = some (s, pc)) :
    (⟨registry, client.threads.set t (thread.setFocus pc')⟩ : ClientWorld κ).Completing t r ↔
      r = s ∧ pc'.completing = true := by
  have hfocus' := Thread.focus_setFocus hfocus pc'
  constructor
  · rintro ⟨q, hat, hq⟩
    rcases at_set hat with ⟨-, hnew⟩ | ⟨htt, -⟩
    · cases hfocus'.symm.trans hnew
      exact ⟨rfl, hq⟩
    · exact absurd rfl htt
  · rintro ⟨rfl, hq⟩
    refine ⟨pc', ⟨_, ?_, hfocus'⟩, hq⟩
    exact List.getElem?_set_self (List.getElem?_eq_some_iff.mp hthread).1

theorem Completing.iff (hthread : client.threads[t]? = some thread)
    (hfocus : thread.focus = some (s, pc)) :
    client.Completing t r ↔ r = s ∧ pc.completing = true := by
  constructor
  · rintro ⟨q, ⟨found, hfound, hq⟩, hcompleting⟩
    cases hthread.symm.trans hfound
    cases hfocus.symm.trans hq
    exact ⟨rfl, hcompleting⟩
  · rintro ⟨rfl, hcompleting⟩
    exact ⟨pc, ⟨thread, hthread, hfocus⟩, hcompleting⟩

theorem Calling.marks (h : client.Calling t) (hthread : client.threads[t]? = some thread)
    (hfocus : thread.focus = some (s, pc)) (hsource : client.registry.sources[s]? = some source)
    (hlive : ∀ result, pc ≠ .returned result) (hmarks : SourcePc.Marks pc source pc' source')
    (hplain : (thread.setFocus pc').Plain) :
    (⟨client.registry.setSource s source', client.threads.set t (thread.setFocus pc')⟩ :
      ClientWorld κ).Calling t := by
  have hend := fun r => @AtEnd.set_iff _ client (client.registry.setSource s source') thread t s r
    pc pc' hthread hfocus hlive
  have hcompleting := fun r => @Completing.set_iff _ client (client.registry.setSource s source')
    thread t s r pc pc' hthread hfocus
  have hbefore := fun r => @Completing.iff _ client thread t s r pc hthread hfocus
  have hreading : pc.completing = true → ∃ offset length,
      thread = .source s (.readAt offset length) pc ∧ length ≠ 0 := by
    intro hpc
    obtain ⟨offset, length, heq, hzero, -⟩ :=
      (h.plain hthread).reads hfocus (SourcePc.reads_of_completing hpc)
    refine ⟨offset, length, heq, fun hlength => ?_⟩
    rcases hzero hlength with rfl | hatEnd
    · cases hpc
    · rw [SourcePc.atEnd_eq hatEnd] at hpc
      cases hpc
  have hsame := h.flags hsource
  rw [hbefore] at hsame
  have hapart : pc.completing = true → ¬client.AtEnd s := fun hpc =>
    h.apart ((hbefore s).mpr ⟨rfl, hpc⟩)
  have hnew : ∀ {offset length}, thread = .source s (.readAt offset length) pc → length ≠ 0 →
      pc'.atEnd = true → (∃ offset, pc = .start (.readAt offset 0)) → False := by
    rintro offset length rfl hlength - ⟨zero, rfl⟩
    obtain ⟨offset', length', heq, -, htask⟩ := (h.plain hthread).reads hfocus rfl
    cases heq
    cases htask _ rfl
    exact hlength rfl
  refine ⟨?_, ?_, ?_, ?_⟩
  · intro found hfound
    rcases Position.set_cases hfound with ⟨-, rfl⟩ | ⟨htt, -⟩
    · exact hplain
    · exact absurd rfl htt
  · intro r found hfound
    rw [hend, hcompleting]
    rcases Position.set_cases hfound with ⟨rfl, rfl⟩ | ⟨hrs, hold⟩
    · cases hmarks with
      | same hflag hkept hzero =>
        rw [hflag, hsame, hkept]
        constructor
        · rintro (hold | hpc)
          · exact .inl (.inl hold)
          · exact .inr hpc
        · rintro ((hold | ⟨offset, length, heq, hatEnd, hlength⟩) | hpc)
          · exact .inl hold
          · rcases hzero hatEnd with hset | hstart
            · exact hsame.mp hset
            · exact (hnew heq hlength hatEnd hstart).elim
          · exact .inr hpc
      | mark hpc hfree hflag hpc' hnot => exact iff_of_true hflag (.inr ⟨rfl, hpc'⟩)
      | sent hflag hpc hpc' hatEnd =>
        obtain ⟨offset, length, heq, hlength⟩ := hreading hpc
        exact iff_of_true (hflag.trans (hsame.mpr (.inr ⟨rfl, hpc⟩)))
          (.inl (.inr ⟨offset, length, heq, hatEnd, hlength⟩))
      | unmark hpc hflag hpc' hnot =>
        refine iff_of_false (by simp [hflag]) ?_
        rintro ((hold | ⟨offset, length, heq, hatEnd, -⟩) | ⟨-, hcompletes⟩)
        · exact hapart hpc hold
        · simp [hnot] at hatEnd
        · simp [hpc'] at hcompletes
    · have hfound' := h.flags hold
      rw [hbefore] at hfound'
      rw [hfound']
      constructor
      · rintro (hold | ⟨hs, -⟩)
        · exact .inl (.inl hold)
        · exact absurd hs hrs
      · rintro ((hold | ⟨offset, length, rfl, -, -⟩) | ⟨hs, -⟩)
        · exact .inl hold
        · cases hfocus
          exact absurd rfl hrs
        · exact absurd hs hrs
  · intro r hr
    rw [hcompleting] at hr
    obtain ⟨rfl, hpc'⟩ := hr
    rw [hend]
    rintro (hold | ⟨offset, length, -, hatEnd, -⟩)
    · cases hmarks with
      | same hflag hkept hzero => exact hapart (hkept ▸ hpc') hold
      | mark hpc hfree => simp [hsame.mpr (.inl hold)] at hfree
      | sent hflag hpc hnot => simp [hnot] at hpc'
      | unmark hpc hflag hnot => simp [hnot] at hpc'
    · rw [SourcePc.atEnd_eq hatEnd] at hpc'
      cases hpc'
  · intro r hr
    rw [Registry.setSource, List.length_set]
    rcases (hend r).mp hr with hold | ⟨offset, length, rfl, -, -⟩
    · exact h.ended hold
    · cases hfocus
      exact (List.getElem?_eq_some_iff.mp hsource).1

end ClientWorld

theorem Thread.Plain.setFocus {thread : Thread κ} {s : Nat} {pc pc' : SourcePc κ}
    (h : thread.Plain) (hfocus : thread.focus = some (s, pc))
    (hplain : pc'.completes = false ∧ (pc.reads = false → pc'.reads = false))
    (hstarted : ∀ task, pc' ≠ .start task)
    (hzero : ∀ offset, pc = .start (.readAt offset 0) → pc'.atEnd = true)
    (hlive : ∀ result, pc ≠ .returned result) : (thread.setFocus pc').Plain := by
  have hfocus' := Thread.focus_setFocus hfocus pc'
  constructor
  · intro r q hq
    cases hfocus'.symm.trans hq
    exact hplain.1
  · intro r q hq hreads
    cases hfocus'.symm.trans hq
    have hread : pc.reads = true := by
      by_contra hnot
      rw [hplain.2 (by simpa using hnot)] at hreads
      cases hreads
    obtain ⟨offset, length, rfl, hlength, -⟩ := h.reads hfocus hread
    refine ⟨offset, length, rfl, fun hnone => .inr ?_, fun task heq => absurd heq (hstarted task)⟩
    rcases hlength hnone with hstart | hend
    · exact hzero offset hstart
    · exact absurd (SourcePc.atEnd_eq hend) (hlive _)

theorem GroupPc.Launching.plain {op : GroupOp} {pc : GroupPc κ} (h : pc.Launching op) :
    (Thread.group op pc).Plain := by
  have hshape : ∀ {s q}, (Thread.group op pc).focus = some (s, q) →
      q = .start op.task ∨ q = .start .status := by
    intro s q hq
    cases h with
    | idle hnone => cases hnone.symm.trans hq
    | control => cases hq; exact .inl rfl
    | aggregate => cases hq; exact .inr rfl
  constructor
  · intro s q hq
    rcases hshape hq with rfl | rfl
    · cases op <;> rfl
    · rfl
  · intro s q hq hreads
    rcases hshape hq with rfl | rfl
    · cases op <;> cases hreads
    · cases hreads

theorem GroupPc.advance_remembered {registry registry' : Registry κ} {op : GroupOp}
    {pc pc' : GroupPc κ} (h : pc.advance registry op = some (registry', pc')) :
    registry'.remembered = registry.remembered := by
  unfold GroupPc.advance at h
  split at h <;> (try split at h) <;> (try split at h) <;> cases h <;> rfl

def Thread.sendsComplete : Thread κ → Bool
  | .source _ .complete _ | .source _ (.sendControl .complete) _ => true
  | _ => false

theorem Thread.Spawned.plain {thread : Thread κ} (h : thread.Spawned)
    (hcomplete : thread.sendsComplete = false) : thread.Plain := by
  cases thread with
  | group op pc =>
    cases h
    exact ⟨fun hfocus => (nomatch hfocus), fun hfocus => (nomatch hfocus)⟩
  | source s task pc =>
    cases h
    constructor
    · intro r q hq
      cases hq
      cases task with
      | sendControl opcode => cases opcode <;> first | rfl | cases hcomplete
      | complete => cases hcomplete
      | readAt offset length | status | cancelLocalFirst => rfl
    · intro r q hq hreads
      cases hq
      cases task with
      | readAt offset length =>
        refine ⟨offset, length, rfl, fun hzero => .inl (hzero ▸ rfl), fun task htask => ?_⟩
        cases htask
        rfl
      | sendControl opcode | complete | status | cancelLocalFirst => cases hreads

structure ClientWorld.SameStreams (client client' : ClientWorld κ) : Prop where
  remembered : client'.registry.remembered = client.registry.remembered
  fileIds : client'.registry.sources.map (·.fileId) = client.registry.sources.map (·.fileId)

namespace ClientWorld

variable {client client' : ClientWorld κ} {t : Nat} {label : ClientLabel κ}

theorem map_fileId_set {sources : List (RemoteSource κ)} {s : Nat} {source source' : RemoteSource κ}
    (hsource : sources[s]? = some source) (hkept : source'.fileId = source.fileId) :
    (sources.set s source').map (·.fileId) = sources.map (·.fileId) := by
  obtain ⟨hlt, hget⟩ := List.getElem?_eq_some_iff.mp hsource
  apply List.ext_getElem?
  intro i
  rw [List.getElem?_map, List.getElem?_map, List.getElem?_set]
  split
  · rename_i hsi
    rw [← hsi, hsource, Option.map_some, Option.map_some, hkept]
  · rfl

theorem Calling.group {op : GroupOp} {pc pc' : GroupPc κ} {registry : Registry κ}
    (h : client.Calling t) (hthread : client.threads[t]? = some (.group op pc))
    (hsources : registry.sources = client.registry.sources) (hlaunch : pc'.Launching op) :
    (⟨registry, client.threads.set t (.group op pc')⟩ : ClientWorld κ).Calling t := by
  have hend : ∀ {r}, (⟨registry, client.threads.set t (.group op pc')⟩ : ClientWorld κ).AtEnd r ↔
      client.AtEnd r := by
    intro r
    constructor
    · rintro ⟨u, offset, length, hfound, hlength⟩
      rcases Position.set_cases hfound with ⟨-, hset⟩ | ⟨-, hold⟩
      · cases hset
      · exact ⟨u, offset, length, hold, hlength⟩
    · rintro ⟨u, offset, length, hfound, hlength⟩
      refine ⟨u, offset, length, ?_, hlength⟩
      rw [List.getElem?_set_ne (fun htu => by subst htu; cases hthread.symm.trans hfound)]
      exact hfound
  have hidle : ∀ {r}, ¬client.Completing t r := by
    rintro r ⟨q, ⟨thread, hthread', hfocus⟩, hq⟩
    cases hthread.symm.trans hthread'
    obtain ⟨offset, length, heq, -⟩ :=
      (h.plain hthread).reads hfocus (SourcePc.reads_of_completing hq)
    cases heq
  have hidle' : ∀ {r}, ¬(⟨registry, client.threads.set t (.group op pc')⟩ :
      ClientWorld κ).Completing t r := by
    rintro r ⟨q, hat, hq⟩
    rcases at_set hat with ⟨-, hfocus⟩ | ⟨htt, -⟩
    · obtain ⟨task, rfl⟩ := hlaunch.focus hfocus
      cases hq
    · exact htt rfl
  refine ⟨?_, ?_, fun hr => absurd hr hidle', fun hr => hsources ▸ h.ended (hend.mp hr)⟩
  · intro found hfound
    rcases Position.set_cases hfound with ⟨-, rfl⟩ | ⟨htt, -⟩
    · exact hlaunch.plain
    · exact absurd rfl htt
  · intro r found hfound
    rw [show found.completionSent = true ↔ client.AtEnd r ∨ client.Completing t r from
      h.flags (hsources ▸ hfound), hend]
    constructor
    · rintro (hold | hr)
      · exact .inl hold
      · exact absurd hr hidle
    · rintro (hold | hr)
      · exact .inl hold
      · exact absurd hr hidle'

theorem Calling.step (h : client.Calling t) (hlabel : label.thread = some t)
    (hstep : ClientStep client label client') :
    client'.Calling t ∧ client.SameStreams client' := by
  cases hstep with
  | spawn => cases hlabel
  | remember => cases hlabel
  | @source t' s thread pc pc' source source' hthread hfocus hsource hadvance =>
    cases hlabel
    have hlive : ∀ result, pc ≠ .returned result := fun result heq => by
      subst heq
      cases hadvance
    have hplain := (h.plain hthread).completes hfocus
    refine ⟨h.marks hthread hfocus hsource hlive (SourcePc.advance_marks hplain hadvance)
      ((h.plain hthread).setFocus hfocus (SourcePc.advance_plain hplain hadvance)
        (SourcePc.advance_started hadvance) ?_ hlive), rfl, ?_⟩
    · rintro offset rfl
      cases hadvance
      rfl
    · exact map_fileId_set hsource (SourcePc.advance_kept hadvance).1
  | group hthread hfree hadvance =>
    cases hlabel
    obtain ⟨hsources, hlaunch⟩ := GroupPc.advance_launching hadvance
    exact ⟨h.group hthread hsources hlaunch, GroupPc.advance_remembered hadvance,
      by rw [hsources]⟩
  | @answer t' s thread pc pc' source source' reply hthread hfocus hsource hanswer =>
    cases hlabel
    have hlive : ∀ result, pc ≠ .returned result := fun result heq => by
      subst heq
      cases reply <;> cases hanswer
    have hplain := (h.plain hthread).completes hfocus
    refine ⟨h.marks hthread hfocus hsource hlive (SourcePc.answer_marks hplain hanswer)
      ((h.plain hthread).setFocus hfocus (SourcePc.answer_plain hplain hanswer)
        (SourcePc.answer_started hanswer) ?_ hlive), rfl, ?_⟩
    · rintro offset rfl
      cases reply <;> cases hanswer
    · exact map_fileId_set hsource (SourcePc.answer_kept hanswer).1

theorem SameStreams.refl (client : ClientWorld κ) : client.SameStreams client := ⟨rfl, rfl⟩

theorem SameStreams.trans {client'' : ClientWorld κ} (h : client.SameStreams client')
    (h' : client'.SameStreams client'') : client.SameStreams client'' :=
  ⟨h'.remembered.trans h.remembered, h'.fileIds.trans h.fileIds⟩

theorem Calling.run {labels : List (ClientLabel κ)} (h : client.Calling t)
    (hlabels : ∀ label ∈ labels, label.thread = some t)
    (hrun : Run ClientStep client labels client') :
    client'.Calling t ∧ client.SameStreams client' := by
  induction hrun with
  | nil => exact ⟨h, .refl client⟩
  | snoc run last ih =>
    obtain ⟨hcalling, hsame⟩ := ih fun label hlabel => hlabels label (List.mem_append_left _ hlabel)
    obtain ⟨hcalling', hsame'⟩ := hcalling.step (hlabels _ (by simp)) last
    exact ⟨hcalling', hsame.trans hsame'⟩

end ClientWorld

def Thread.finished : Thread κ → Bool
  | .source _ _ (.returned _) | .source _ _ (.done _) | .group _ (.done _) => true
  | _ => false

structure ClientWorld.Quiet (client : ClientWorld κ) : Prop where
  flags {s : Nat} {source : RemoteSource κ} : client.registry.sources[s]? = some source →
    (source.completionSent = true ↔ client.AtEnd s)
  ended {s : Nat} : client.AtEnd s → s < client.registry.sources.length

namespace ClientWorld

variable {client client' : ClientWorld κ} {t : Nat} {thread : Thread κ}

theorem Quiet.spawn (h : client.Quiet) (hspawned : thread.Spawned)
    (hcomplete : thread.sendsComplete = false) :
    (⟨client.registry, client.threads ++ [thread]⟩ : ClientWorld κ).Calling
      client.threads.length := by
  have hend : ∀ {r}, (⟨client.registry, client.threads ++ [thread]⟩ : ClientWorld κ).AtEnd r ↔
      client.AtEnd r := by
    intro r
    constructor
    · rintro ⟨u, offset, length, hfound, hlength⟩
      rcases Position.concat_cases hfound with hold | ⟨-, rfl⟩
      · exact ⟨u, offset, length, hold, hlength⟩
      · cases hspawned
    · rintro ⟨u, offset, length, hfound, hlength⟩
      refine ⟨u, offset, length, ?_, hlength⟩
      rw [List.getElem?_append_left (List.getElem?_eq_some_iff.mp hfound).1]
      exact hfound
  have hidle : ∀ {r}, ¬(⟨client.registry, client.threads ++ [thread]⟩ : ClientWorld κ).Completing
      client.threads.length r := by
    rintro r ⟨q, hat, hq⟩
    rcases at_concat hat with ⟨found, hfound, -⟩ | ⟨-, hfocus⟩
    · exact absurd (List.getElem?_eq_some_iff.mp hfound).1 (Nat.lt_irrefl _)
    · obtain ⟨task, rfl⟩ := hspawned.focus hfocus
      cases hq
  refine ⟨?_, ?_, fun hr => absurd hr hidle, fun hr => h.ended (hend.mp hr)⟩
  · intro found hfound
    rcases Position.concat_cases hfound with hold | ⟨-, rfl⟩
    · exact absurd (List.getElem?_eq_some_iff.mp hold).1 (Nat.lt_irrefl _)
    · exact hspawned.plain hcomplete
  · intro r found hfound
    rw [h.flags hfound, hend]
    exact ⟨.inl, fun hr => hr.resolve_right hidle⟩

theorem Calling.quiet (h : client.Calling t) (hthread : client.threads[t]? = some thread)
    (hfinished : thread.finished = true) : client.Quiet := by
  refine ⟨fun {s source} hsource => ?_, h.ended⟩
  rw [h.flags hsource]
  refine ⟨fun hs => hs.resolve_right ?_, .inl⟩
  rintro ⟨q, ⟨found, hfound, hfocus⟩, hq⟩
  cases hthread.symm.trans hfound
  unfold Thread.finished at hfinished
  split at hfinished
  · cases hfocus
    cases hq
  · cases hfocus
    cases hq
  · cases hfocus
  · cases hfinished

end ClientWorld

/-! The shell opens streams on files of the manifest, and one call after another is made. -/

inductive StreamStep (manifest : OfferManifest) :
    ClientWorld κ → Unit → ClientWorld κ → Prop
  | openStream {client : ClientWorld κ} (connection : Nat) {entry : OfferManifestEntry}
      (hentry : entry ∈ manifest.entries) (hfile : entry.descriptor.isDirectory = false) :
      StreamStep manifest client ()
        { client with registry := client.registry.rememberSource (.new connection manifest entry) }
  | call {client client' : ClientWorld κ} {thread thread' : Thread κ}
      {labels : List (ClientLabel κ)} (hspawned : thread.Spawned)
      (hcomplete : thread.sendsComplete = false)
      (hlabels : ∀ label ∈ labels, label.thread = some client.threads.length)
      (hrun : Run ClientStep ⟨client.registry, client.threads ++ [thread]⟩ labels client')
      (hthread : client'.threads[client.threads.length]? = some thread')
      (hfinished : thread'.finished = true) : StreamStep manifest client () client'

def fileEntries (manifest : OfferManifest) : List OfferManifestEntry :=
  manifest.entries.filter fun entry => !entry.descriptor.isDirectory

structure ClientWorld.Opened (manifest : OfferManifest) (client : ClientWorld κ) : Prop where
  quiet : client.Quiet
  known : ∀ fileId ∈ client.registry.sources.map (·.fileId),
    fileId ∈ (fileEntries manifest).map (·.fileId)
  nodup : client.registry.remembered.Nodup
  listed : ∀ s ∈ client.registry.remembered, s < client.registry.sources.length

namespace ClientWorld

variable {client client' : ClientWorld κ} {manifest : OfferManifest} {label : Unit}

theorem Quiet.empty : (empty : ClientWorld κ).Quiet where
  flags h := by cases h
  ended h := by
    obtain ⟨u, offset, length, hfound, -⟩ := h
    cases hfound

theorem Quiet.remember (h : client.Quiet) {source : RemoteSource κ}
    (hfresh : source.completionSent = false) :
    ({ client with registry := client.registry.rememberSource source } : ClientWorld κ).Quiet := by
  refine ⟨fun {s found} hfound => ?_, fun {s} hs => ?_⟩
  · have hadded : (client.registry.sources ++ [source])[s]? = some found := hfound
    rcases Position.concat_cases hadded with hold | ⟨rfl, rfl⟩
    · exact h.flags hold
    · have hnot : ¬client.AtEnd client.registry.sources.length := fun hs => Nat.lt_irrefl _ (h.ended hs)
      exact iff_of_false (by simp [hfresh]) hnot
  · exact Nat.lt_of_lt_of_le (h.ended hs) (by simp [Registry.rememberSource])

theorem Opened.empty : (empty : ClientWorld κ).Opened manifest :=
  ⟨.empty, fun _ h => (List.not_mem_nil h).elim, .nil, fun _ h => (List.not_mem_nil h).elim⟩

theorem Opened.openStream (h : client.Opened manifest) (connection : Nat)
    {entry : OfferManifestEntry} (hentry : entry ∈ manifest.entries)
    (hfile : entry.descriptor.isDirectory = false) :
    ({ client with registry := client.registry.rememberSource (.new connection manifest entry) } :
      ClientWorld κ).Opened manifest := by
  have hlt : ∀ s ∈ client.registry.remembered ++ [client.registry.sources.length],
      s < client.registry.sources.length + 1 := by
    intro s hs
    rcases List.mem_append.mp hs with hold | hnew
    · exact Nat.lt_succ_of_lt (h.listed s hold)
    · rw [List.mem_singleton.mp hnew]
      exact Nat.lt_succ_self _
  refine ⟨h.quiet.remember rfl, ?_, ?_, ?_⟩
  · intro fileId hid
    simp only [Registry.rememberSource, List.map_append] at hid
    rcases List.mem_append.mp hid with hold | hnew
    · exact h.known fileId hold
    · rw [List.map_singleton, List.mem_singleton] at hnew
      subst hnew
      exact List.mem_map_of_mem (List.mem_filter.mpr ⟨hentry, by simp [hfile]⟩)
  · simp only [Registry.rememberSource]
    refine List.Nodup.sublist (List.drop_sublist _ _) ?_
    refine List.Nodup.append h.nodup (List.nodup_singleton _) ?_
    intro s hs hnew
    rw [List.mem_singleton] at hnew
    exact absurd (h.listed s hs) (by omega)
  · intro s hs
    simp only [Registry.rememberSource, List.length_append, List.length_singleton] at hs ⊢
    exact hlt s (List.mem_of_mem_drop hs)

theorem Opened.step (h : client.Opened manifest) (hstep : StreamStep manifest client label client') :
    client'.Opened manifest := by
  cases hstep with
  | openStream connection hentry hfile => exact h.openStream connection hentry hfile
  | call hspawned hcomplete hlabels hrun hthread hfinished =>
    obtain ⟨hcalling, hsame⟩ := (h.quiet.spawn hspawned hcomplete).run hlabels hrun
    have hlength : client'.registry.sources.length = client.registry.sources.length := by
      have hmapped := congrArg List.length hsame.fileIds
      rwa [List.length_map, List.length_map] at hmapped
    refine ⟨hcalling.quiet hthread hfinished, ?_, ?_, ?_⟩
    · rw [hsame.fileIds]
      exact h.known
    · rw [hsame.remembered]
      exact h.nodup
    · rw [hsame.remembered, hlength]
      exact h.listed

theorem opened_of_run {labels : List Unit} (h : Run (StreamStep manifest) .empty labels client) :
    client.Opened manifest :=
  h.invariant (fun hopened hstep => hopened.step hstep) Opened.empty

end ClientWorld

end ClipFerry.Client
