import ClipFerry.Foundation.Position
import ClipFerry.Foundation.Transition
import ClipFerry.Client.Registry

namespace ClipFerry.Client

open Protocol Server Transition

variable {κ : Type}

namespace SourcePc

variable {pc pc' : SourcePc κ} {source source' : RemoteSource κ}

def credentials : SourcePc κ → Option κ
  | checkCancelled _ c | allocateCancel _ c | sendCancel _ c _ | checkPaused _ c
  | allocatePause _ c | sendPause _ c _ | reading c _ _ | napping c _ _ | received c _ _
  | allocateComplete c | sendComplete c _ | allocateLocal c | controlling c _ _ | asking c =>
    some c
  | _ => none

def begins : SourcePc κ → Bool
  | beginning _ => true
  | _ => false

theorem credentials_fail (error : IoError) (purpose : Purpose) :
    (fail error purpose : SourcePc κ).credentials = none := by cases purpose <;> rfl

theorem begins_fail (error : IoError) (purpose : Purpose) :
    (fail error purpose : SourcePc κ).begins = false := by cases purpose <;> rfl

theorem credentials_proceed (c : κ) (purpose : Purpose) :
    (proceed c purpose).credentials = some c := by cases purpose <;> rfl

theorem begins_proceed (c : κ) (purpose : Purpose) : (proceed c purpose).begins = false := by
  cases purpose <;> rfl

inductive Evolves (pc : SourcePc κ) (source : RemoteSource κ) (pc' : SourcePc κ)
    (source' : RemoteSource κ) : Prop
  | lock (hpc : pc.begins = false) (hfree : source.transferLocked = false)
      (hnone : source.transfer = none) (hpc' : pc'.begins = true)
      (hcarries : pc'.credentials = none) (hlocked : source'.transferLocked = true)
      (htransfer : source'.transfer = none)
  | begun (hpc : pc.begins = true) (hpc' : pc'.begins = false)
      (hcarries : pc'.credentials = source'.transfer)
  | failed (hpc : pc.begins = true) (hpc' : pc'.begins = false)
      (hcarries : pc'.credentials = none) (htransfer : source'.transfer = source.transfer)
  | carry (hpc : pc.begins = false) (hpc' : pc'.begins = false)
      (hcarries : pc'.credentials = none ∨ pc'.credentials = pc.credentials ∨
        pc'.credentials = source.transfer)
      (hlocked : source'.transferLocked = source.transferLocked)
      (htransfer : source'.transfer = source.transfer)

theorem Evolves.silent (hpc : pc.begins = false) (hpc' : pc'.begins = false)
    (hcarries : pc'.credentials = none) (hlocked : source'.transferLocked = source.transferLocked)
    (htransfer : source'.transfer = source.transfer) : Evolves pc source pc' source' :=
  .carry hpc hpc' (.inl hcarries) hlocked htransfer

theorem Evolves.keep (hpc : pc.begins = false) (hpc' : pc'.begins = false)
    (hcarries : pc'.credentials = pc.credentials)
    (hlocked : source'.transferLocked = source.transferLocked)
    (htransfer : source'.transfer = source.transfer) : Evolves pc source pc' source' :=
  .carry hpc hpc' (.inr (.inl hcarries)) hlocked htransfer

theorem advance_evolves {paused cancelled : Bool}
    (h : pc.advance paused cancelled source = some (source', pc')) :
    Evolves pc source pc' source' := by
  cases pc with
  | lockTransfer purpose =>
    rw [advance] at h
    split at h
    · cases h
    · rename_i hfree
      split at h
      · rename_i c hc
        cases h
        refine .carry rfl (begins_proceed _ _) (.inr (.inr ?_)) rfl rfl
        rw [credentials_proceed, hc]
      · rename_i hnone
        cases h
        exact .lock rfl (by simpa using hfree) hnone rfl rfl rfl hnone
  | start task =>
    cases task with
    | readAt offset length | complete =>
      simp only [advance, Option.some.injEq, Prod.mk.injEq] at h
      obtain ⟨rfl, rfl⟩ := h
      refine .silent rfl ?_ ?_ rfl rfl <;> split <;> rfl
    | sendControl opcode | status =>
      cases h
      exact .silent rfl rfl rfl rfl rfl
    | cancelLocalFirst =>
      simp only [advance] at h
      split at h
      · cases h
      · split at h <;> cases h
        · exact .silent rfl rfl rfl rfl rfl
        · rename_i c hc
          exact .carry rfl rfl (.inr (.inr hc.symm)) rfl rfl
  | gateCancelled offset length =>
    simp only [advance, Option.some.injEq, Prod.mk.injEq] at h
    obtain ⟨rfl, rfl⟩ := h
    refine .silent rfl ?_ ?_ rfl rfl <;> split <;> rfl
  | gatePaused offset length =>
    simp only [advance] at h
    split at h <;> cases h
    · exact .silent rfl rfl rfl rfl rfl
    · exact .silent rfl rfl rfl rfl rfl
  | allocate opcode | unmarkComplete error | markComplete status =>
    cases h
    exact .silent rfl rfl rfl rfl rfl
  | checkCancelled purpose c | checkPaused purpose c =>
    simp only [advance, Option.some.injEq, Prod.mk.injEq] at h
    obtain ⟨rfl, rfl⟩ := h
    refine .keep rfl ?_ ?_ rfl rfl <;> split <;>
      first | rfl | exact begins_proceed _ _ | exact credentials_proceed _ _
  | allocateCancel purpose c | allocatePause purpose c | napping c offset requested
  | allocateComplete c | allocateLocal c =>
    cases h
    exact .keep rfl rfl rfl rfl rfl
  | received c offset bytes =>
    simp only [advance] at h
    split at h
    · cases h
      exact .silent rfl rfl rfl rfl rfl
    · split at h <;> cases h
      · exact .keep rfl rfl rfl rfl rfl
      · exact .silent rfl rfl rfl rfl rfl
  | beginning purpose | sendCancel purpose c sequence | sendPause purpose c sequence
  | reading c offset requested | sendComplete c sequence | controlling c sequence opcode
  | asking c | returned result | done result => cases h

theorem advance_kept {paused cancelled : Bool}
    (h : pc.advance paused cancelled source = some (source', pc')) :
    source'.fileId = source.fileId ∧ source'.size = source.size ∧
      source'.transfer = source.transfer := by
  unfold advance at h
  split at h <;> (try split at h) <;> (try split at h) <;> cases h <;> exact ⟨rfl, rfl, rfl⟩

theorem answer_kept {reply : Reply κ} (h : pc.answer source reply = some (source', pc')) :
    source'.fileId = source.fileId ∧ source'.size = source.size ∧
      (source'.transfer = source.transfer ∨
        ∃ c, reply = .began c ∧ pc.begins = true ∧ source'.transfer = some c) := by
  unfold answer at h
  split at h <;> cases h
  · exact ⟨rfl, rfl, .inr ⟨_, rfl, rfl, rfl⟩⟩
  all_goals exact ⟨rfl, rfl, .inl rfl⟩

theorem answer_evolves {reply : Reply κ} (h : pc.answer source reply = some (source', pc')) :
    Evolves pc source pc' source' := by
  unfold answer at h
  split at h <;> cases h
  · exact .begun rfl rfl rfl
  · exact .failed rfl (begins_fail _ _) (credentials_fail _ _) rfl
  · exact .silent rfl (begins_fail _ _) (credentials_fail _ _) rfl rfl
  · exact .silent rfl (begins_fail _ _) (credentials_fail _ _) rfl rfl
  · exact .keep rfl (begins_proceed _ _) (credentials_proceed _ _) rfl rfl
  · exact .silent rfl (begins_fail _ _) (credentials_fail _ _) rfl rfl
  · refine .keep rfl ?_ ?_ rfl rfl <;> split <;> rfl
  · exact .silent rfl rfl rfl rfl rfl
  · exact .silent rfl rfl rfl rfl rfl
  · exact .silent rfl rfl rfl rfl rfl
  · refine .silent rfl ?_ ?_ rfl rfl <;> split <;> rfl
  · exact .silent rfl rfl rfl rfl rfl
  · exact .silent rfl rfl rfl rfl rfl
  · exact .silent rfl rfl rfl rfl rfl

theorem advance_silent {paused cancelled : Bool}
    (h : pc.advance paused cancelled source = some (source', pc')) (s : Nat) :
    pc.rpc s = none := by
  cases pc with
  | beginning purpose | sendCancel purpose c sequence | sendPause purpose c sequence
  | reading c offset requested | sendComplete c sequence | controlling c sequence opcode
  | asking c => cases h
  | _ => rfl

end SourcePc

namespace GroupPc

variable {registry registry' : Registry κ} {op : GroupOp} {all rest : List Nat}
  {total : TransferGroupStatus} {pc pc' : GroupPc κ}

inductive Launching (op : GroupOp) : GroupPc κ → Prop
  | idle {pc : GroupPc κ} (h : (Thread.group op pc).focus = none) : Launching op pc
  | control (all : List Nat) (s : Nat) (rest : List Nat) (total : TransferGroupStatus) :
      Launching op (.controlling all s (.start op.task) rest total)
  | aggregate (all : List Nat) (s : Nat) (rest : List Nat) (total : TransferGroupStatus) :
      Launching op (.aggregating all s (.start .status) rest total)

theorem Launching.focus (h : pc.Launching op) {s : Nat} {sub : SourcePc κ}
    (hfocus : (Thread.group op pc).focus = some (s, sub)) : ∃ task, sub = .start task := by
  cases h with
  | idle hnone => cases hnone.symm.trans hfocus
  | control | aggregate =>
    cases hfocus
    exact ⟨_, rfl⟩

theorem launching_startAggregate : (op.startAggregate all : GroupPc κ).Launching op := by
  cases all with
  | nil => exact .idle rfl
  | cons s rest => exact .aggregate _ s rest _

theorem launching_startControls : (op.startControls all : GroupPc κ).Launching op := by
  unfold GroupOp.startControls
  split
  · exact launching_startAggregate
  · exact launching_startAggregate
  · exact .control _ _ _ _

theorem launching_afterControl : (afterControl registry op all total rest).Launching op := by
  cases rest with
  | nil =>
    rw [afterControl]
    split
    · exact .idle rfl
    · exact launching_startAggregate
  | cons s rest => exact .control all s rest total

theorem launching_afterStatus : (afterStatus all total rest : GroupPc κ).Launching op := by
  cases rest with
  | nil => exact .idle rfl
  | cons s rest => exact .aggregate all s rest total

theorem advance_launching (h : pc.advance registry op = some (registry', pc')) :
    registry'.sources = registry.sources ∧ pc'.Launching op := by
  unfold advance at h
  split at h
  · cases h
    exact ⟨rfl, .idle rfl⟩
  · split at h
    · cases h
      exact ⟨rfl, .idle rfl⟩
    · split at h <;> cases h
      exact ⟨rfl, .idle rfl⟩
  · cases h
    exact ⟨rfl, .idle rfl⟩
  · cases h
    refine ⟨rfl, ?_⟩
    split
    · exact .idle rfl
    · exact launching_startAggregate
    · exact .idle rfl
    · exact .idle rfl
  · cases h
    exact ⟨rfl, .idle rfl⟩
  · cases h
    exact ⟨rfl, launching_startControls⟩
  · cases h
    exact ⟨rfl, launching_afterControl⟩
  · split at h <;> cases h
    · exact ⟨rfl, launching_afterControl⟩
    · exact ⟨rfl, .idle rfl⟩
  · cases h
    exact ⟨rfl, launching_afterStatus⟩
  · cases h
    exact ⟨rfl, .idle rfl⟩
  all_goals cases h

theorem advance_groupCancelled (h : pc.advance registry op = some (registry', pc'))
    (hcancelled : registry.groupCancelled = true) : registry'.groupCancelled = true := by
  unfold advance at h
  split at h <;> (try split at h) <;> (try split at h) <;> cases h <;> first | exact hcancelled | rfl

theorem advance_quiet (h : pc.advance registry op = some (registry', pc')) :
    (Thread.group op pc).rpc = none := by
  cases pc with
  | controlling all s sub rest total | aggregating all s sub rest total =>
    cases sub with
    | done result => rfl
    | _ => cases h
  | start | scanning todo found | cancelFlag all | storing all | done result => rfl

end GroupPc

theorem Thread.rpc_eq {thread : Thread κ} {s : Nat} {pc : SourcePc κ}
    (h : thread.focus = some (s, pc)) : thread.rpc = pc.rpc s := by
  rw [Thread.rpc, h]
  rfl

theorem Thread.focus_setFocus {thread : Thread κ} {s : Nat} {pc : SourcePc κ}
    (h : thread.focus = some (s, pc)) (pc' : SourcePc κ) :
    (thread.setFocus pc').focus = some (s, pc') := by
  unfold focus at h
  split at h <;> cases h <;> rfl

theorem Thread.Spawned.focus {thread : Thread κ} (h : thread.Spawned) {s : Nat} {pc : SourcePc κ}
    (hfocus : thread.focus = some (s, pc)) : ∃ task, pc = .start task := by
  cases thread with
  | source s task sub =>
    cases hfocus
    exact ⟨task, h⟩
  | group op sub =>
    cases h
    cases hfocus

theorem Thread.setFocus_group {thread : Thread κ} {sub : SourcePc κ} {op : GroupOp}
    {pc' : GroupPc κ} (h : thread.setFocus sub = .group op pc') : ∃ pc, thread = .group op pc := by
  unfold setFocus at h
  split at h <;> cases h <;> exact ⟨_, rfl⟩

theorem GroupPc.setFocus_cases {op : GroupOp} {pc pc' : GroupPc κ} {s : Nat} {sub sub' : SourcePc κ}
    (hfocus : (Thread.group op pc).focus = some (s, sub))
    (h : (Thread.group op pc).setFocus sub' = .group op pc') :
    (∃ all rest total, pc = .controlling all s sub rest total ∧
      pc' = .controlling all s sub' rest total) ∨
    ∃ all rest total, pc = .aggregating all s sub rest total ∧
      pc' = .aggregating all s sub' rest total := by
  cases pc with
  | controlling =>
    cases hfocus
    cases h
    exact .inl ⟨_, _, _, rfl, rfl⟩
  | aggregating =>
    cases hfocus
    cases h
    exact .inr ⟨_, _, _, rfl, rfl⟩
  | _ => cases hfocus

def ClientWorld.At (client : ClientWorld κ) (t s : Nat) (pc : SourcePc κ) : Prop :=
  ∃ thread, client.threads[t]? = some thread ∧ thread.focus = some (s, pc)

def ClientWorld.Holds (client : ClientWorld κ) (s : Nat) (P : RemoteSource κ → Prop) : Prop :=
  ∃ source, client.registry.sources[s]? = some source ∧ P source

structure ClientWorld.Consistent (client : ClientWorld κ) : Prop where
  holder {t s pc} : client.At t s pc → pc.begins = true →
    client.Holds s fun source => source.transferLocked = true ∧ source.transfer = none
  alone {t u s pc q} : client.At t s pc → client.At u s q → pc.begins = true →
    q.begins = true → t = u
  carried {t s pc c} : client.At t s pc → pc.credentials = some c →
    client.Holds s fun source => source.transfer = some c

namespace ClientWorld

variable {client client' : ClientWorld κ} {t u s r : Nat} {pc pc' q : SourcePc κ}
  {source source' : RemoteSource κ} {thread : Thread κ} {registry : Registry κ}

theorem At.unique (h : client.At t s pc) (h' : client.At t r q) : s = r ∧ pc = q := by
  obtain ⟨thread, hthread, hfocus⟩ := h
  obtain ⟨other, hother, hfocus'⟩ := h'
  cases hthread.symm.trans hother
  cases hfocus.symm.trans hfocus'
  exact ⟨rfl, rfl⟩

theorem at_set (h : (⟨registry, client.threads.set t thread⟩ : ClientWorld κ).At u r q) :
    (u = t ∧ thread.focus = some (r, q)) ∨ (u ≠ t ∧ client.At u r q) := by
  obtain ⟨found, hfound, hfocus⟩ := h
  rcases Position.set_cases hfound with ⟨rfl, rfl⟩ | ⟨hut, hold⟩
  · exact .inl ⟨rfl, hfocus⟩
  · exact .inr ⟨hut, found, hold, hfocus⟩

theorem at_concat {added : Thread κ}
    (h : (⟨registry, client.threads ++ [added]⟩ : ClientWorld κ).At u r q) :
    client.At u r q ∨ (u = client.threads.length ∧ added.focus = some (r, q)) := by
  obtain ⟨found, hfound, hfocus⟩ := h
  rcases Position.concat_cases hfound with hold | ⟨hu, rfl⟩
  · exact .inl ⟨found, hold, hfocus⟩
  · exact .inr ⟨hu, hfocus⟩

theorem getElem?_setSource (hsource : client.registry.sources[s]? = some source) :
    (client.registry.setSource s source').sources[r]? =
      if r = s then some source' else client.registry.sources[r]? := by
  have hlt := (List.getElem?_eq_some_iff.mp hsource).1
  rw [Registry.setSource, List.getElem?_set]
  by_cases hrs : r = s
  · rw [hrs, if_pos rfl, if_pos rfl, if_pos hlt]
  · rw [if_neg (fun hsr => hrs hsr.symm), if_neg hrs]

theorem Holds.elim {P : RemoteSource κ → Prop} (h : client.Holds s P)
    (hsource : client.registry.sources[s]? = some source) : P source := by
  obtain ⟨found, hfound, hp⟩ := h
  cases hfound.symm.trans hsource
  exact hp

theorem Holds.setSource {P : RemoteSource κ → Prop} {threads : List (Thread κ)}
    (h : client.Holds r P) (hsource : client.registry.sources[s]? = some source)
    (hkeep : r = s → P source → P source') :
    (⟨client.registry.setSource s source', threads⟩ : ClientWorld κ).Holds r P := by
  by_cases hrs : r = s
  · subst hrs
    exact ⟨source', by rw [getElem?_setSource hsource, if_pos rfl], hkeep rfl (h.elim hsource)⟩
  · obtain ⟨found, hfound, hp⟩ := h
    exact ⟨found, by rw [getElem?_setSource hsource, if_neg hrs, hfound], hp⟩

namespace Consistent

theorem transfer_kept (hc : client.Consistent) (hthread : client.threads[t]? = some thread)
    (hfocus : thread.focus = some (s, pc)) (hsource : client.registry.sources[s]? = some source)
    (h : SourcePc.Evolves pc source pc' source') {threads : List (Thread κ)} {c : κ}
    (hheld : client.Holds r fun source => source.transfer = some c) :
    (⟨client.registry.setSource s source', threads⟩ : ClientWorld κ).Holds r
      fun source => source.transfer = some c := by
  refine hheld.setSource hsource ?_
  rintro rfl hcarried
  cases h with
  | lock _ _ hnone => cases hnone.symm.trans hcarried
  | begun hpc =>
    have hnone := ((hc.holder ⟨thread, hthread, hfocus⟩ hpc).elim hsource).2
    cases hnone.symm.trans hcarried
  | failed _ _ _ htransfer | carry _ _ _ _ htransfer => exact htransfer.trans hcarried

theorem evolves (hc : client.Consistent) (hthread : client.threads[t]? = some thread)
    (hfocus : thread.focus = some (s, pc)) (hsource : client.registry.sources[s]? = some source)
    (h : SourcePc.Evolves pc source pc' source') :
    (⟨client.registry.setSource s source', client.threads.set t (thread.setFocus pc')⟩ :
      ClientWorld κ).Consistent := by
  have hat : client.At t s pc := ⟨thread, hthread, hfocus⟩
  have hfocus' := Thread.focus_setFocus hfocus pc'
  have hnew : ∀ {P}, P source' → Holds
      ⟨client.registry.setSource s source', client.threads.set t (thread.setFocus pc')⟩ s P :=
    fun hp => ⟨source', by rw [getElem?_setSource hsource, if_pos rfl], hp⟩
  have hbusy : ∀ {u q}, u ≠ t → client.At u s q → q.begins = true →
      pc.begins = false ∧ source.transferLocked = true ∧ source.transfer = none := by
    intro u q hut hother hq
    refine ⟨?_, (hc.holder hother hq).elim hsource⟩
    by_contra hpc
    exact hut (hc.alone hother hat hq (by simpa using hpc))
  constructor
  · intro u r q hother hq
    rcases at_set hother with ⟨rfl, hfocus''⟩ | ⟨hut, hold⟩
    · cases hfocus'.symm.trans hfocus''
      cases h with
      | lock _ _ _ _ _ hlocked htransfer => exact hnew ⟨hlocked, htransfer⟩
      | begun _ hpc' | failed _ hpc' | carry _ hpc' => cases hpc'.symm.trans hq
    · refine (hc.holder hold hq).setSource hsource ?_
      rintro rfl -
      obtain ⟨hpc, hlocked, hnone⟩ := hbusy hut hold hq
      cases h with
      | lock _ hfree => cases hfree.symm.trans hlocked
      | begun hpc' | failed hpc' => cases hpc.symm.trans hpc'
      | carry _ _ _ hlocked' htransfer => exact ⟨hlocked'.trans hlocked, htransfer.trans hnone⟩
  · have hfirst : ∀ {v r q}, v ≠ t → client.At v r q → q.begins = true →
        (thread.setFocus pc').focus = some (r, pc') → pc'.begins = true → False := by
      intro v r q hvt hother hq hfocus'' hpc'
      cases hfocus'.symm.trans hfocus''
      obtain ⟨hpc, hlocked, -⟩ := hbusy hvt hother hq
      cases h with
      | lock _ hfree => cases hfree.symm.trans hlocked
      | begun _ hnot | failed _ hnot | carry _ hnot => cases hnot.symm.trans hpc'
    intro u v r q q' hu hv hq hq'
    rcases at_set hu with ⟨rfl, hu'⟩ | ⟨hut, hu'⟩ <;> rcases at_set hv with ⟨rfl, hv'⟩ | ⟨hvt, hv'⟩
    · rfl
    · cases hfocus'.symm.trans hu'
      exact (hfirst hvt hv' hq' hfocus' hq).elim
    · cases hfocus'.symm.trans hv'
      exact (hfirst hut hu' hq hfocus' hq').elim
    · exact hc.alone hu' hv' hq hq'
  · intro u r q c hother hq
    rcases at_set hother with ⟨rfl, hfocus''⟩ | ⟨hut, hold⟩
    · cases hfocus'.symm.trans hfocus''
      apply hnew
      cases h with
      | lock _ _ _ _ hcarries | failed _ _ hcarries => cases hcarries.symm.trans hq
      | begun _ _ hcarries => exact hcarries.symm.trans hq
      | carry _ _ hcarries _ htransfer =>
        rcases hcarries with hnone | hsame | hsource'
        · cases hnone.symm.trans hq
        · exact htransfer.trans ((hc.carried hat (hsame.symm.trans hq)).elim hsource)
        · exact htransfer.trans (hsource'.symm.trans hq)
    · exact hc.transfer_kept hthread hfocus hsource h (hc.carried hold hq)

theorem launch (hc : client.Consistent) {client' : ClientWorld κ}
    (hsources : ∀ {r P}, client.Holds r P → client'.Holds r P)
    (hat : ∀ {u r q}, client'.At u r q → client.At u r q ∨ ∃ task, q = .start task) :
    client'.Consistent := by
  constructor
  · intro u r q hu hq
    rcases hat hu with hu | ⟨task, rfl⟩
    · exact hsources (hc.holder hu hq)
    · cases hq
  · intro u v r q q' hu hv hq hq'
    rcases hat hu with hu | ⟨task, rfl⟩
    · rcases hat hv with hv | ⟨task, rfl⟩
      · exact hc.alone hu hv hq hq'
      · cases hq'
    · cases hq
  · intro u r q c hu hq
    rcases hat hu with hu | ⟨task, rfl⟩
    · exact hsources (hc.carried hu hq)
    · cases hq

theorem step {l : ClientLabel κ} (hc : client.Consistent) (h : ClientStep client l client') :
    client'.Consistent := by
  cases h with
  | spawn hspawned =>
    refine hc.launch (fun h => h) fun hat => ?_
    rcases at_concat hat with hold | ⟨-, hfocus⟩
    · exact .inl hold
    · exact .inr (hspawned.focus hfocus)
  | remember connection manifest entry =>
    refine hc.launch ?_ .inl
    rintro r P ⟨source, hsource, hp⟩
    have hlt := (List.getElem?_eq_some_iff.mp hsource).1
    exact ⟨source, (List.getElem?_append_left hlt).trans hsource, hp⟩
  | source hthread hfocus hsource h =>
    exact hc.evolves hthread hfocus hsource (SourcePc.advance_evolves h)
  | group hthread _ h =>
    obtain ⟨hsources, hlaunch⟩ := GroupPc.advance_launching h
    refine hc.launch ?_ fun hat => ?_
    · rintro r P ⟨source, hsource, hp⟩
      exact ⟨source, by rw [hsources, hsource], hp⟩
    · rcases at_set hat with ⟨-, hfocus⟩ | ⟨-, hold⟩
      · exact .inr (hlaunch.focus hfocus)
      · exact .inl hold
  | answer hthread hfocus hsource h =>
    exact hc.evolves hthread hfocus hsource (SourcePc.answer_evolves h)

theorem holds_transfer {l : ClientLabel κ} (hc : client.Consistent)
    (h : ClientStep client l client') {c : κ}
    (hheld : client.Holds r fun source => source.transfer = some c) :
    client'.Holds r fun source => source.transfer = some c := by
  cases h with
  | spawn => exact hheld
  | remember connection manifest entry =>
    obtain ⟨source, hsource, hp⟩ := hheld
    have hlt := (List.getElem?_eq_some_iff.mp hsource).1
    exact ⟨source, (List.getElem?_append_left hlt).trans hsource, hp⟩
  | source hthread hfocus hsource h =>
    exact hc.transfer_kept hthread hfocus hsource (SourcePc.advance_evolves h) hheld
  | group hthread _ h =>
    obtain ⟨source, hsource, hp⟩ := hheld
    exact ⟨source, by rw [(GroupPc.advance_launching h).1, hsource], hp⟩
  | answer hthread hfocus hsource h =>
    exact hc.transfer_kept hthread hfocus hsource (SourcePc.answer_evolves h) hheld

theorem empty : (ClientWorld.empty : ClientWorld κ).Consistent := by
  have hat : ∀ {t s pc}, ¬(ClientWorld.empty : ClientWorld κ).At t s pc := by
    rintro t s pc ⟨thread, hthread, -⟩
    cases hthread
  exact ⟨fun h => (hat h).elim, fun h => (hat h).elim, fun h => (hat h).elim⟩

end Consistent

end ClientWorld

namespace ClientStep

variable {client client' : ClientWorld κ} {l : ClientLabel κ} {t s : Nat} {pc : SourcePc κ}

inductive Moved (client : ClientWorld κ) (l : ClientLabel κ) (client' : ClientWorld κ) (t s : Nat)
    (pc : SourcePc κ) : Prop
  | stays (hat : client'.At t s pc)
  | finished {result : Except IoError TransferStatus} (hl : l = .group t) (hpc : pc = .done result)
  | source {source source' : RemoteSource κ} {pc' : SourcePc κ} (hl : l = .source t)
      (hsource : client.registry.sources[s]? = some source)
      (h : pc.advance client.registry.groupPaused client.registry.groupCancelled source =
        some (source', pc')) (hat : client'.At t s pc')
  | answer {source source' : RemoteSource κ} {pc' : SourcePc κ} {reply : Reply κ}
      (hl : l = .answer t reply) (hsource : client.registry.sources[s]? = some source)
      (h : pc.answer source reply = some (source', pc')) (hat : client'.At t s pc')

theorem moved (h : ClientStep client l client') (hat : client.At t s pc) :
    Moved client l client' t s pc := by
  obtain ⟨thread, hthread, hfocus⟩ := hat
  have hlt := (List.getElem?_eq_some_iff.mp hthread).1
  have hself : ∀ {registry : Registry κ} {pc' : SourcePc κ}, (⟨registry,
      client.threads.set t (thread.setFocus pc')⟩ : ClientWorld κ).At t s pc' :=
    fun {_ pc'} => ⟨_, List.getElem?_set_self hlt, Thread.focus_setFocus hfocus pc'⟩
  have hother : ∀ {registry : Registry κ} {u : Nat} {other : Thread κ}, u ≠ t →
      (⟨registry, client.threads.set u other⟩ : ClientWorld κ).At t s pc :=
    fun hut => ⟨thread, (List.getElem?_set_ne hut).trans hthread, hfocus⟩
  cases h with
  | spawn => exact .stays ⟨thread, (List.getElem?_append_left hlt).trans hthread, hfocus⟩
  | remember => exact .stays ⟨thread, hthread, hfocus⟩
  | @source u _ _ _ _ _ _ hmoved hmovedFocus hsource h =>
    by_cases hut : u = t
    · subst hut
      cases hmoved.symm.trans hthread
      cases hmovedFocus.symm.trans hfocus
      exact .source rfl hsource h hself
    · exact .stays (hother hut)
  | @group u op moved _ _ hmoved hfree h =>
    by_cases hut : u = t
    · subst hut
      cases hmoved.symm.trans hthread
      cases moved with
      | controlling all r sub rest total | aggregating all r sub rest total =>
        cases hfocus
        cases pc with
        | done result => exact .finished rfl rfl
        | _ => cases h
      | start | scanning todo found | cancelFlag all | storing all | done result => cases hfocus
    · exact .stays (hother hut)
  | @answer u _ _ _ _ _ _ reply hmoved hmovedFocus hsource h =>
    by_cases hut : u = t
    · subst hut
      cases hmoved.symm.trans hthread
      cases hmovedFocus.symm.trans hfocus
      exact .answer rfl hsource h hself
    · exact .stays (hother hut)

theorem waiting (h : ClientStep client l client') (hother : ∀ reply, l ≠ .answer t reply)
    (hat : client.At t s pc) (hrpc : pc.rpc s ≠ none) : client'.At t s pc := by
  cases h.moved hat with
  | stays hat => exact hat
  | finished hl hpc =>
    subst hpc
    exact absurd rfl hrpc
  | source hl hsource h => exact absurd (SourcePc.advance_silent h s) hrpc
  | answer hl => exact absurd hl (hother _)

theorem answered {reply : Reply κ} (h : ClientStep client (.answer t reply) client')
    (hat : client.At t s pc) : ∃ source source' pc', client.registry.sources[s]? = some source ∧
      pc.answer source reply = some (source', pc') ∧ client'.At t s pc' := by
  obtain ⟨thread, hthread, hfocus⟩ := hat
  have hlt := (List.getElem?_eq_some_iff.mp hthread).1
  cases h with
  | answer hmoved hmovedFocus hsource h =>
    cases hmoved.symm.trans hthread
    cases hmovedFocus.symm.trans hfocus
    exact ⟨_, _, _, hsource, h, _, List.getElem?_set_self hlt, Thread.focus_setFocus hfocus _⟩

theorem threads_length (h : ClientStep client l client') :
    client.threads.length ≤ client'.threads.length := by
  cases h with
  | spawn =>
    rw [List.length_append]
    exact Nat.le_add_right _ _
  | remember => exact Nat.le_refl _
  | source | group | answer =>
    rw [List.length_set]

theorem groupCancelled (h : ClientStep client l client')
    (hcancelled : client.registry.groupCancelled = true) :
    client'.registry.groupCancelled = true := by
  cases h with
  | spawn | remember | source | answer => exact hcancelled
  | group hthread hfree h => exact GroupPc.advance_groupCancelled h hcancelled

inductive Grouped (client : ClientWorld κ) (l : ClientLabel κ) (client' : ClientWorld κ) (t : Nat)
    (op : GroupOp) (pc' : GroupPc κ) : Prop
  | stays (hthread : client.threads[t]? = some (.group op pc'))
  | spawned (hnew : client.threads.length ≤ t) (hpc : pc' = .start)
  | group {pc : GroupPc κ} (hl : l = .group t) (hthread : client.threads[t]? = some (.group op pc))
      (h : pc.advance client.registry op = some (client'.registry, pc'))
  | source {pc : GroupPc κ} {s : Nat} {sub sub' : SourcePc κ} {source source' : RemoteSource κ}
      (hl : l = .source t) (hthread : client.threads[t]? = some (.group op pc))
      (hfocus : (Thread.group op pc).focus = some (s, sub))
      (hsource : client.registry.sources[s]? = some source)
      (h : sub.advance client.registry.groupPaused client.registry.groupCancelled source =
        some (source', sub')) (hpc' : (Thread.group op pc).setFocus sub' = .group op pc')
  | answer {pc : GroupPc κ} {s : Nat} {sub sub' : SourcePc κ} {source source' : RemoteSource κ}
      {reply : Reply κ} (hl : l = .answer t reply)
      (hthread : client.threads[t]? = some (.group op pc))
      (hfocus : (Thread.group op pc).focus = some (s, sub))
      (hsource : client.registry.sources[s]? = some source)
      (h : sub.answer source reply = some (source', sub'))
      (hpc' : (Thread.group op pc).setFocus sub' = .group op pc')

theorem grouped (h : ClientStep client l client') {op : GroupOp} {pc' : GroupPc κ}
    (hthread : client'.threads[t]? = some (.group op pc')) :
    Grouped client l client' t op pc' := by
  cases h with
  | spawn hspawned =>
    rcases Position.concat_cases hthread with hold | ⟨rfl, rfl⟩
    · exact .stays hold
    · exact .spawned (Nat.le_refl _) hspawned
  | remember => exact .stays hthread
  | source hmoved hfocus hsource h =>
    rcases Position.set_cases hthread with ⟨rfl, hset⟩ | ⟨-, hold⟩
    · obtain ⟨pc, rfl⟩ := Thread.setFocus_group hset.symm
      exact .source rfl hmoved hfocus hsource h hset.symm
    · exact .stays hold
  | group hmoved hfree h =>
    rcases Position.set_cases hthread with ⟨rfl, hset⟩ | ⟨-, hold⟩
    · cases hset
      exact .group rfl hmoved h
    · exact .stays hold
  | answer hmoved hfocus hsource h =>
    rcases Position.set_cases hthread with ⟨rfl, hset⟩ | ⟨-, hold⟩
    · obtain ⟨pc, rfl⟩ := Thread.setFocus_group hset.symm
      exact .answer rfl hmoved hfocus hsource h hset.symm
    · exact .stays hold

end ClientStep

theorem ClientStep.transfer {client client' : ClientWorld κ} {l : ClientLabel κ} {r : Nat} {c : κ}
    (h : ClientStep client l client')
    (hheld : client'.Holds r fun source => source.transfer = some c) :
    client.Holds r (fun source => source.transfer = some c) ∨
      ∃ t pc, l = .answer t (.began c) ∧ client.At t r pc ∧ pc.begins = true := by
  obtain ⟨found, hfound, htransfer⟩ := hheld
  cases h with
  | spawn => exact .inl ⟨found, hfound, htransfer⟩
  | remember =>
    rcases Position.concat_cases hfound with hold | ⟨-, rfl⟩
    · exact .inl ⟨found, hold, htransfer⟩
    · cases htransfer
  | group hthread hfree h =>
    exact .inl ⟨found, (GroupPc.advance_launching h).1 ▸ hfound, htransfer⟩
  | @source t s thread pc pc' source source' hthread hfocus hsource h =>
    rcases Position.set_cases hfound with ⟨rfl, rfl⟩ | ⟨-, hold⟩
    · exact .inl ⟨source, hsource, (SourcePc.advance_kept h).2.2.symm.trans htransfer⟩
    · exact .inl ⟨found, hold, htransfer⟩
  | @answer t s thread pc pc' source source' reply hthread hfocus hsource h =>
    rcases Position.set_cases hfound with ⟨rfl, rfl⟩ | ⟨-, hold⟩
    · rcases (SourcePc.answer_kept h).2.2 with hsame | ⟨began, rfl, hbegins, hnew⟩
      · exact .inl ⟨source, hsource, hsame.symm.trans htransfer⟩
      · cases hnew.symm.trans htransfer
        exact .inr ⟨t, pc, rfl, ⟨thread, hthread, hfocus⟩, hbegins⟩
    · exact .inl ⟨found, hold, htransfer⟩

end ClipFerry.Client
